import TensorPlan.Dispatch.Params
import TensorPlan.Proofs.Operator.Described
/-! The text that the current key of the tuning cache is made from. It tells the operator, its attributes and every slot,
so parameters that differ in any of these have different texts. -/
namespace TensorPlan
open Text (Ends Word Names Tells endsNil endsMark)

theorem ElementType.textNames : Names ElementType.text := .ofAll all memberOfAll (by decide) (by decide)

theorem MemoryFormat.textNames : Names MemoryFormat.text :=
  .ofAll all (by intro f; cases f <;> decide) (by decide) (by decide)

theorem Dimension.textCharacters {d : Dimension} {c : Char} (member : c ∈ d.text.toList) :
    Json.Reader.isDigit c = true ∨ c = '?' := by
  cases d with
  | known n => exact .inl (Json.Reader.digitMember (Json.Reader.digitsOf n ▸ member))
  | unknown => exact .inr (List.mem_singleton.mp member)

theorem Dimension.textNames : Names Dimension.text where
  word d := by
    cases d with
    | known n => exact Text.naturalNames.word n
    | unknown => exact ⟨List.cons_ne_nil _ _, Text.plainOf rfl⟩
  injective d e same := by
    have apart (n : Nat) : (toString n).toList ≠ ['?'] := fun own => by
      have digit := @Json.Reader.digitMember n '?' (by rw [← Json.Reader.digitsOf, own]; exact List.mem_cons_self)
      cases digit
    cases d <;> cases e
    · exact congrArg known (Text.naturalNames.injective same)
    · exact absurd (congrArg String.toList same) (apart _)
    · exact absurd (congrArg String.toList same.symm) (apart _)
    · rfl

namespace Shape

def cells : Shape → List (Option Dimension)
  | unranked => [none]
  | ranked dims => dims.map some

def cellText : Option Dimension → String
  | none => "..."
  | some d => d.text

theorem cellNames : Names cellText where
  word cell := by
    cases cell with
    | none => exact ⟨List.cons_ne_nil _ _, Text.plainOf rfl⟩
    | some d => exact Dimension.textNames.word d
  injective cell other same := by
    have apart (d : Dimension) : d.text.toList ≠ ['.', '.', '.'] := fun own => by
      rcases @Dimension.textCharacters d '.' (by rw [own]; exact List.mem_cons_self) with digit | same
      · cases digit
      · cases same
    cases cell <;> cases other
    · rfl
    · exact absurd (congrArg String.toList same.symm) (apart _)
    · exact absurd (congrArg String.toList same) (apart _)
    · exact congrArg some (Dimension.textNames.injective same)

theorem textCells (s : Shape) : s.text = "[" ++ ",".intercalate (s.cells.map cellText) ++ "]" := by
  cases s with
  | unranked => simp [cells, cellText, text]
  | ranked dims => rw [cells, List.map_map]; rfl

theorem cellsInjective : Function.Injective cells := by
  intro s t same
  cases s <;> cases t
  · rfl
  · rename_i dims
    cases dims <;> simp [cells] at same
  · rename_i dims
    cases dims <;> simp [cells] at same
  · exact congrArg ranked (List.map_injective_iff.mpr (Option.some_injective _) same)

theorem textTells (s t : Shape) : Tells s.text t.text (s = t) := by
  rw [textCells, textCells]
  exact (@Tells.enclosed _ _ _ "," [] cellNames.word (fun _ _ => cellNames.injective.eq_iff) rfl s.cells t.cells).imp
    (by rw [List.forall₂_eq_eq_eq, cellsInjective.eq_iff])

end Shape

structure Slot.Agree (slot other : Slot) : Prop where
  type : slot.type = other.type
  format : slot.format = other.format
  shape : slot.shape = other.shape

namespace KernelParams

def slotText (slot : Slot) : String := slot.type.text ++ ":" ++ slot.format.text ++ ":" ++ slot.shape.text

theorem slotTells (slot other : Slot) : Tells (slotText slot) (slotText other) (slot.Agree other) :=
  (((ElementType.textNames.tells slot.type other.type).join ":" rfl rfl
    (MemoryFormat.textNames.tells slot.format other.format)).join ":" rfl rfl (slot.shape.textTells other.shape)).imp
    ⟨fun ⟨⟨type, format⟩, shape⟩ => ⟨type, format, shape⟩,
      fun ⟨type, format, shape⟩ => ⟨⟨type, format⟩, shape⟩⟩

def slotsFrom (tag : String) : Nat → List Slot → List Char
  | _, [] => []
  | k, slot :: slots =>
    ';' :: (tag.toList ++ ((toString k).toList ++ '=' :: (slotText slot).toList)) ++ slotsFrom tag (k + 1) slots

theorem slotsTextFrom (tag : String) (slots : List Slot) : (slotsText tag slots).toList = slotsFrom tag 0 slots := by
  have from' (k : Nat) : (String.join (((List.range' k slots.length).zip slots).map fun p =>
      s!";{tag}{p.1}={p.2.type.text}:{p.2.format.text}:{p.2.shape.text}")).toList = slotsFrom tag k slots := by
    induction slots generalizing k with
    | nil => simp [slotsFrom]
    | cons slot slots ih =>
      have plain (s : String) : toString s = s := rfl
      simp only [List.length_cons, List.range'_succ, List.zip_cons_cons, List.map_cons, String.join_cons, String.toList_append,
        ih (k + 1), slotsFrom]
      simp [plain, slotText]
  rw [slotsText, List.range_eq_range']
  exact from' 0

theorem slotsEnd (tag : String) (k : Nat) (slots : List Slot) {rest : List Char} (ends : Ends rest) :
    Ends (slotsFrom tag k slots ++ rest) := by
  cases slots with
  | nil => exact ends
  | cons slot slots => exact endsMark rfl _

theorem slotsEqual (tag : String) {slots others : List Slot} (each : List.Forall₂ Slot.Agree slots others) (k : Nat) :
    slotsFrom tag k slots = slotsFrom tag k others := by
  induction each generalizing k with
  | nil => rfl
  | cons own _ ih => rw [slotsFrom, slotsFrom, ih, (slotTells _ _).equal own]

theorem slotsLead (tag : String) (k : Nat) (slot : Slot) (slots : List Slot) (rest : List Char) :
    ';' :: tag.toList <+: slotsFrom tag k (slot :: slots) ++ rest := by
  simp [slotsFrom]

theorem slotsApart {tag : String} {slots others : List Slot} {k : Nat} {rest rest' : List Char} (ends : Ends rest)
    (ends' : Ends rest') (other : ¬ ';' :: tag.toList <+: rest) (other' : ¬ ';' :: tag.toList <+: rest')
    (same : slotsFrom tag k slots ++ rest = slotsFrom tag k others ++ rest') :
    List.Forall₂ Slot.Agree slots others ∧ rest = rest' := by
  induction slots generalizing others k with
  | nil =>
    cases others with
    | nil => exact ⟨.nil, same⟩
    | cons next others => exact absurd ((show rest = _ from same) ▸ slotsLead tag k next others rest') other
  | cons slot slots ih =>
    cases others with
    | nil => exact absurd ((show _ = rest' from same) ▸ slotsLead tag k slot slots rest) other'
    | cons next others =>
      rw [slotsFrom, slotsFrom] at same
      simp only [List.cons_append, List.append_assoc] at same
      have same := List.append_cancel_left (List.append_cancel_left (List.cons.inj same).2)
      obtain ⟨own, same⟩ := (slotTells slot next).apart (slotsEnd tag _ slots ends) (slotsEnd tag _ others ends')
        (List.cons.inj same).2
      obtain ⟨each, after⟩ := ih same
      exact ⟨.cons own each, after⟩

/-- Parameters have one text exactly if their attributes and their slots agree. -/
theorem normalizedUnambiguous (p q : KernelParams) : p.normalized = q.normalized ↔ p.attributes.Agree q.attributes ∧
    List.Forall₂ Slot.Agree p.inputs q.inputs ∧ List.Forall₂ Slot.Agree p.outputs q.outputs := by
  have text (p : KernelParams) : p.normalized.toList = p.kind.text.toList ++ ';' :: (p.attributes.describe.toList ++
      (slotsFrom "in" 0 p.inputs ++ slotsFrom "out" 0 p.outputs)) := by
    simp [normalized, slotsTextFrom]
  rw [← String.toList_inj, text p, text q]
  constructor
  · intro same
    obtain ⟨kindSame, same⟩ := (OperatorKind.textNames.tells p.kind q.kind).apart (endsMark rfl _) (endsMark rfl _) same
    have ends (r : KernelParams) : Ends (slotsFrom "out" 0 r.outputs) :=
      List.append_nil (slotsFrom "out" 0 r.outputs) ▸ slotsEnd "out" 0 r.outputs endsNil
    have other (r : KernelParams) : ¬ ';' :: "in".toList <+: slotsFrom "out" 0 r.outputs := by
      cases r.outputs with
      | nil => exact fun ⟨_, own⟩ => by cases own
      | cons slot slots =>
        rintro ⟨_, own⟩
        cases (List.cons.inj (List.cons.inj own).2).1
    obtain ⟨attributes, same⟩ := (Attributes.describeTells kindSame).apart (slotsEnd "in" 0 _ (ends p))
      (slotsEnd "in" 0 _ (ends q)) (List.cons.inj same).2
    obtain ⟨inputs, same⟩ := slotsApart (ends p) (ends q) (other p) (other q) same
    have none : ¬ ';' :: "out".toList <+: [] := fun ⟨_, own⟩ => by cases own
    obtain ⟨outputs, _⟩ := slotsApart endsNil endsNil none none (congrArg (· ++ []) same)
    exact ⟨attributes, inputs, outputs⟩
  · rintro ⟨attributes, inputs, outputs⟩
    have kind : p.kind = q.kind := attributes.kind
    rw [kind, (Attributes.describeTells attributes.kind).equal attributes, slotsEqual "in" inputs, slotsEqual "out" outputs]

end KernelParams
end TensorPlan
