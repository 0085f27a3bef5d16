import TensorPlan.Plan.Planning
import TensorPlan.Proofs.Encoding
import TensorPlan.Proofs.Machine
import TensorPlan.Proofs.Pad.Axes
import TensorPlan.Proofs.Tiling
/-! Requests and their outputs. A request made from inputs has borders that its axes can fill, so every
position of the output has its bytes: an element of the source, the pad value, or zeros behind the last
channel. Filling element by element writes exactly these. -/
namespace TensorPlan.PadRequest
open Index (Within)

structure Sound (r : PadRequest) : Prop where
  fills : r.mode.FillsAll r.source.dims r.before r.after
  target : r.target = ⟨padded r.source.dims r.before r.after, r.source.type, r.source.format⟩

theorem widthsOk {what : String} {rank : Nat} {values : List Int} {ws : List Nat}
    (ok : widths what rank values = .ok ws) : values.length = rank ∧ (∀ v ∈ values, 0 ≤ v) ∧ ws = values.map Int.toNat := by
  simp only [widths, Result.bindOk, Result.ensureOk, beq_iff_eq, List.all_eq_true, decide_eq_true_eq] at ok
  obtain ⟨_, length, _, natural, last⟩ := ok
  cases last
  exact ⟨length, natural, rfl⟩

theorem widthsLength {what : String} {rank : Nat} {values : List Int} {ws : List Nat}
    (ok : widths what rank values = .ok ws) : ws.length = rank := by
  obtain ⟨length, _, same⟩ := widthsOk ok
  rw [same, List.length_map, length]

theorem resolvedLength {given : Option (List Int)} {inputs : List Tensor} {position rank : Nat} {what : String}
    {ws : List Nat} (ok : resolveWidths given inputs position what rank = .ok ws) : ws.length = rank := by
  cases given with
  | some values => exact widthsLength ok
  | none =>
    simp only [resolveWidths, Result.bindOk] at ok
    obtain ⟨_, _, _, _, last⟩ := ok
    exact widthsLength last

theorem limitsFill {mode : PadMode} {dims ds bs es : List Nat} {axis : Nat}
    (ok : checkLimits mode dims axis ds bs es = .ok ()) (before : bs.length = ds.length)
    (after : es.length = ds.length) : mode.FillsAll ds bs es := by
  induction ds generalizing axis bs es with
  | nil =>
    cases List.length_eq_zero_iff.mp before
    cases List.length_eq_zero_iff.mp after
    exact .nil
  | cons d ds ih =>
    match bs, es, before, after with
    | b :: bs, e :: es, before, after =>
      unfold checkLimits at ok
      cases limited : limit? mode d with
      | none =>
        rw [limited] at ok
        exact .cons (fun limit given => by rw [limited] at given; cases given)
          (ih ok (by simpa using before) (by simpa using after))
      | some limit =>
        simp only [limited, Result.bindOk, Result.ensureOk, decide_eq_true_eq] at ok
        obtain ⟨_, bounds, rest⟩ := ok
        exact .cons (fun _ given => by rw [limited] at given; cases given; exact bounds)
          (ih rest (by simpa using before) (by simpa using after))

theorem ofInputsParts [Widths] {a : PadAttributes} {inputs : List Tensor} {r : PadRequest} (ok : ofInputs a inputs = .ok r) :
    ∃ data, inputs[0]? = some data ∧ data.descriptor = r.source ∧ r.mode = a.mode ∧
      resolveWidths a.before inputs 1 "pads_begin" r.source.rank = .ok r.before ∧
      resolveWidths a.after inputs 2 "pads_end" r.source.rank = .ok r.after ∧
      checkLimits r.mode r.source.dims 0 r.source.dims r.before r.after = .ok () ∧
      r.target = ⟨padded r.source.dims r.before r.after, r.source.type, r.source.format⟩ ∧
      ∀ n ∈ r.target.dims, n < pow2 64 := by
  unfold ofInputs at ok
  cases given : a.value <;> simp only [given, Result.bindOk, Machine.wordsOk] at ok
  case none =>
    obtain ⟨data, found, before, hbefore, after, hafter, _, _, _, _, _, limits, _, ⟨words, rfl⟩, last⟩ := ok
    cases last
    exact ⟨data, by rw [← List.head?_eq_getElem?, Result.ofOptionOk.mp found], rfl, rfl, hbefore, hafter, limits, rfl, words⟩
  case some =>
    obtain ⟨data, found, before, hbefore, after, hafter, _, _, _, limits, _, ⟨words, rfl⟩, last⟩ := ok
    cases last
    exact ⟨data, by rw [← List.head?_eq_getElem?, Result.ofOptionOk.mp found], rfl, rfl, hbefore, hafter, limits, rfl, words⟩

theorem ofInputsSound [Widths] {a : PadAttributes} {inputs : List Tensor} {r : PadRequest} (ok : ofInputs a inputs = .ok r) :
    r.Sound ∧ ∃ data, inputs[0]? = some data ∧ data.descriptor = r.source := by
  obtain ⟨data, first, described, _, before, after, limits, target, _⟩ := ofInputsParts ok
  exact ⟨⟨limitsFill limits (resolvedLength before) (resolvedLength after), target⟩, data, first, described⟩

theorem paddedLength {ds bs es : List Nat} (before : bs.length = ds.length) (after : es.length = ds.length) :
    (padded ds bs es).length = ds.length := by
  induction ds generalizing bs es with
  | nil => rfl
  | cons d ds ih =>
    match bs, es, before, after with
    | b :: bs, e :: es, before, after =>
      simp [padded, @ih bs es (by simpa using before) (by simpa using after)]

section
variable {r : PadRequest} {l m : Layout} {source : Bytes} {position : Nat}

theorem Sound.targetLayout (sound : r.Sound) (sourceLayout : r.source.layout = .ok l) :
    ∃ m, r.target.layout = .ok m := by
  obtain ⟨format, dims⟩ := Descriptor.layoutOk sourceLayout
  have lengths := PadMode.fillsLength sound.fills
  have supported : r.target.format.supportsRank r.target.dims.length = true := by
    rw [sound.target, paddedLength lengths.1 lengths.2, ← format, ← dims]
    exact l.supported
  exact ⟨_, Descriptor.layoutSupported supported⟩

def cell [Widths] (r : PadRequest) (l m : Layout) (source : Bytes) (position : Nat) : Bytes :=
  if m.holds (m.coordinates position) then
    if r.zeroInput then r.source.type.encode r.value
    else
      match r.mode.sourceIndices (m.coordinates position) r.before r.source.dims with
      | none => r.source.type.encode r.value
      | some index => Bytes.item r.source.type.size source (l.offset index)
  else Bytes.zeros r.source.type.size

def output [Widths] (r : PadRequest) (l m : Layout) (source : Bytes) : Bytes :=
  (List.range m.physicalSize).flatMap (r.cell l m source)

theorem collectNaturals (xs : List Nat) : collect Int.toNat? (xs.map Int.ofNat) = some xs :=
  collectMapped fun _ _ => rfl

theorem Sound.sourceElement (sound : r.Sound) (sourceLayout : r.source.layout = .ok l)
    (targetLayout : r.target.layout = .ok m) (full : 0 ∉ r.source.dims) {coords index : List Nat}
    (inside : Within coords m.dims) (found : r.mode.sourceIndices coords r.before r.source.dims = some index) :
    Within index l.dims := by
  have dims := (Descriptor.layoutOk sourceLayout).2
  rw [(Descriptor.layoutOk targetLayout).2, sound.target] at inside
  rw [dims]
  exact PadMode.sourceIndicesWithin sound.fills full inside found

theorem sourceFull (targetLayout : r.target.layout = .ok m) (filled : r.zeroInput = false)
    (inside : position < m.physicalSize) : 0 ∉ r.source.dims := by
  have full := m.physicalFull inside
  rw [m.emptyAxes, (Descriptor.layoutOk targetLayout).2] at full
  simpa [zeroInput, full] using filled

theorem elementOk [Widths] (sound : r.Sound) (sourceLayout : r.source.layout = .ok l) (targetLayout : r.target.layout = .ok m)
    (held : source.length = l.physicalSize * r.source.type.size) (inside : position < m.physicalSize) :
    r.element l m (r.source.type.encode r.value) source position = .ok (r.cell l m source position) ∧
      (r.cell l m source position).length = r.source.type.size := by
  obtain ⟨_, _, within⟩ := m.positionArranged inside
  unfold element cell
  simp only [m.coordinatesSome inside, Result.orFaultSome, Result.okBind]
  cases element : m.holds (m.coordinates position) with
  | false => exact ⟨rfl, Bytes.zerosLength _⟩
  | true =>
    cases empty : r.zeroInput with
    | true => exact ⟨rfl, ElementType.encodeLength _ _⟩
    | false =>
      have full := sourceFull targetLayout empty inside
      have coords := within element
      have dims := (Descriptor.layoutOk targetLayout).2
      rw [dims, sound.target] at coords
      have agree := PadMode.sourceCoordinatesEq sound.fills full coords
      simp only [Bool.not_true, Bool.false_eq_true, if_false, if_true, agree]
      cases found : r.mode.sourceIndices (m.coordinates position) r.before r.source.dims with
      | none => exact ⟨rfl, ElementType.encodeLength _ _⟩
      | some index =>
        have reached := sound.sourceElement sourceLayout targetLayout full (within element) found
        have bound := Nat.mul_le_mul_right r.source.type.size (l.offsetInside reached)
        rw [← held] at bound
        simp only [Option.map_some, collectNaturals, l.offsetSome (Index.withinLength reached), Result.orFaultSome,
          Result.okBind, Bytes.sliceItem bound, true_and]
        exact Bytes.itemLength bound

theorem fillOk [Widths] (sound : r.Sound) (sourceLayout : r.source.layout = .ok l) (targetLayout : r.target.layout = .ok m)
    (held : source.length = l.physicalSize * r.source.type.size) {team : Nat} {bytes : Bytes}
    (room : bytes.length = m.physicalSize * r.source.type.size) :
    r.fill (.ofTeam m.physicalSize team) source bytes = .ok (r.output l m source) := by
  simp only [fill, sourceLayout, targetLayout, Result.okBind]
  exact Partition.overwriteEachOk room fun position inside =>
    elementOk sound sourceLayout targetLayout held inside

theorem outputLength [Widths] (sound : r.Sound) (sourceLayout : r.source.layout = .ok l) (targetLayout : r.target.layout = .ok m)
    (held : source.length = l.physicalSize * r.source.type.size) :
    (r.output l m source).length = m.physicalSize * r.source.type.size := by
  apply Bytes.rangeLength
  intro position inside
  exact (elementOk sound sourceLayout targetLayout held inside).2

end
end TensorPlan.PadRequest
