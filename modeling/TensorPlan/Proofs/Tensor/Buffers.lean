import TensorPlan.Element.UpperWord
import TensorPlan.Proofs.Tensor.InPlace
import TensorPlan.Tensor.Grid
/-! Buffers and their descriptors. However a tensor is built and whatever is done to it afterwards, the bytes that it holds
are those its layout has places for. -/
namespace TensorPlan
open Index (Within)

inductive Tensor.Source where
  | zeros (d : Descriptor)
  | bytes (d : Descriptor) (data : Bytes)
  | elements (dims : List Nat) (type : ElementType) (es : List Bytes) (typed : ∀ e ∈ es, e.length = type.size)
  | scalar (type : ElementType) (e : Bytes) (typed : e.length = type.size)
  | grid (g : Grid) (typed : ∀ e ∈ g.elements, e.length = g.type.size) (full : g.elements.length = volume g.dims)

namespace Tensor.Source

def build : Source → Result Tensor
  | zeros d => Tensor.zeros d
  | bytes d data => Tensor.ofBytes d data
  | elements dims type es _ => Tensor.ofElements dims type es
  | scalar type e _ => Tensor.scalar type e
  | grid g _ _ => g.toTensor

def raw : Source → RawTensor
  | zeros d => ⟨d, Bytes.zeros (d.byteSize?.getD 0)⟩
  | bytes d data => ⟨d, data⟩
  | elements dims type es _ => ⟨.plain dims type, es.flatten⟩
  | scalar type e _ => ⟨.plain [] type, e⟩
  | grid g _ _ => ⟨.plain g.dims g.type, g.elements.flatten⟩

def refusal? : Source → Option Error
  | zeros d => some (.unsupportedRank d.format d.dims)
  | bytes d data =>
    match d.layout? with
    | some l => some (.bufferSize data.length d (l.physicalSize * d.type.size))
    | none => some (.unsupportedRank d.format d.dims)
  | elements dims _ es _ => some (.valueCount es.length dims)
  | scalar .. | grid .. => none

def Counted : Source → Prop
  | zeros d => ∀ l, d.layout? = some l → l.Sized d.type.size ∧ l.physicalSize * d.type.size < pow2 63
  | bytes d _ => ∀ l, d.layout? = some l → l.Sized d.type.size
  | elements dims _ _ _ => Machine.Counts dims
  | scalar .. | grid .. => True

end Tensor.Source

namespace RawTensor
variable {t : RawTensor}

theorem fittingMade (fits : t.Fits) : ∃ u, Tensor.ofBytes? t.descriptor t.data = some u ∧ u.raw = t :=
  ⟨⟨t.descriptor, t.data, fitsSize.mp fits⟩, dif_pos (fitsSize.mp fits), rfl⟩

theorem unfitRefused (unfit : ¬ t.Fits) : Tensor.ofBytes? t.descriptor t.data = none :=
  dif_neg fun size => unfit (fitsSize.mpr size)

theorem elementsFit {dims : List Nat} {type : ElementType} {es : List Bytes} (typed : ∀ e ∈ es, e.length = type.size) :
    (RawTensor.mk (.plain dims type) es.flatten).Fits ↔ es.length = volume dims := by
  rw [fitsSize, Descriptor.plainSize, Bytes.flattenLength typed, Option.some.injEq, Nat.mul_left_inj (Nat.ne_of_gt type.sizePositive), eq_comm]

end RawTensor

namespace Tensor

def Settled (built : Result Tensor) (raw : RawTensor) (refusal? : Option Error) (counted : Prop) : Prop :=
  (counted ∧ raw.Fits ∧ ∃ t, built = .ok t ∧ t.raw = raw) ∨
    (counted ∧ ¬ raw.Fits ∧ ∃ e, refusal? = some e ∧ built = Result.fail e) ∨ (¬ counted ∧ built = Result.fault)

theorem elementsSettled {dims : List Nat} {type : ElementType} {es : List Bytes} (typed : ∀ e ∈ es, e.length = type.size) :
    Settled (ofElements dims type es) ⟨.plain dims type, es.flatten⟩ (some (.valueCount es.length dims))
      (Machine.Counts dims) := by
  have fits := @RawTensor.elementsFit dims type es typed
  by_cases counted : Machine.Counts dims
  · rw [ofElements, Machine.productOk.mpr ⟨counted, rfl⟩, Result.okBind]
    by_cases whole : es.length = volume dims
    · obtain ⟨t, made, raw⟩ := RawTensor.fittingMade (fits.mpr whole)
      refine .inl ⟨counted, fits.mpr whole, t, ?_, raw⟩
      rw [beq_iff_eq.mpr whole, made]
      rfl
    · refine .inr (.inl ⟨counted, fun held => whole (fits.mp held), _, rfl, ?_⟩)
      rw [beq_false_of_ne whole]
      rfl
  · refine .inr (.inr ⟨counted, ?_⟩)
    rw [ofElements, Machine.productFault.mpr counted]
    rfl

theorem unsupportedUnfit {d : Descriptor} (missing : d.layout? = none) (data : Bytes) : ¬ (RawTensor.mk d data).Fits := by
  intro fits
  rw [RawTensor.fitsSize, Descriptor.byteSize?, missing] at fits
  cases fits

theorem zerosSettled (d : Descriptor) : Settled (zeros d) ⟨d, Bytes.zeros (d.byteSize?.getD 0)⟩
    (some (.unsupportedRank d.format d.dims)) (Source.zeros d).Counted := by
  cases found : d.layout? with
  | none =>
    refine .inr (.inl ⟨fun l supported => ?_, unsupportedUnfit found _, _, rfl, ?_⟩)
    · cases found.symm.trans supported
    · rw [zeros, Descriptor.byteSizeUnsupported found]
      rfl
  | some l =>
    have size : d.byteSize? = some (l.physicalSize * d.type.size) := by rw [Descriptor.byteSize?, found, Option.map_some]
    have own : (Source.zeros d).Counted ↔ l.Sized d.type.size ∧ l.physicalSize * d.type.size < pow2 63 :=
      ⟨fun counted => counted l found, fun counted m supported => by cases found.symm.trans supported; exact counted⟩
    by_cases sized : l.Sized d.type.size
    · rw [zeros, Descriptor.byteSizeSized found sized, Result.okBind]
      by_cases room : l.physicalSize * d.type.size < pow2 63
      · have fits : (RawTensor.mk d (Bytes.zeros (l.physicalSize * d.type.size))).Fits := by
          rw [RawTensor.fitsSize, size, Bytes.zeros, List.length_replicate]
        obtain ⟨t, made, raw⟩ := RawTensor.fittingMade fits
        rw [size, Option.getD_some]
        refine .inl ⟨own.mpr ⟨sized, room⟩, fits, t, ?_, raw⟩
        have capacity : Machine.capacity (l.physicalSize * d.type.size) = .ok () := Machine.capacityOk.mpr room
        rw [capacity, Result.okBind, zeros?, size, Option.bind_some, made]
        rfl
      · refine .inr (.inr ⟨fun counted => room (own.mp counted).2, ?_⟩)
        rw [Machine.capacity, if_neg room]
        rfl
    · refine .inr (.inr ⟨fun counted => sized (own.mp counted).1, ?_⟩)
      rw [zeros, Descriptor.byteSizeFault found sized]
      rfl

theorem bytesSettled (d : Descriptor) (data : Bytes) :
    Settled (ofBytes d data) ⟨d, data⟩ (Source.bytes d data).refusal? (Source.bytes d data).Counted := by
  cases found : d.layout? with
  | none =>
    refine .inr (.inl ⟨fun l supported => ?_, unsupportedUnfit found _, .unsupportedRank d.format d.dims, ?_, ?_⟩)
    · cases found.symm.trans supported
    · rw [Source.refusal?, found]
    · rw [ofBytes, Descriptor.byteSizeUnsupported found]
      rfl
  | some l =>
    have own : (Source.bytes d data).Counted ↔ l.Sized d.type.size :=
      ⟨fun counted => counted l found, fun counted m supported => by cases found.symm.trans supported; exact counted⟩
    by_cases sized : l.Sized d.type.size
    · rw [ofBytes, Descriptor.byteSizeSized found sized, Result.okBind, Source.refusal?, found]
      by_cases fits : (RawTensor.mk d data).Fits
      · obtain ⟨t, made, raw⟩ := RawTensor.fittingMade fits
        exact .inl ⟨own.mpr sized, fits, t, by rw [made]; rfl, raw⟩
      · exact .inr (.inl ⟨own.mpr sized, fits, _, rfl, by rw [RawTensor.unfitRefused fits]; rfl⟩)
    · refine .inr (.inr ⟨fun counted => sized (own.mp counted), ?_⟩)
      rw [ofBytes, Descriptor.byteSizeFault found sized]
      rfl

theorem Settled.certain {built : Result Tensor} {raw : RawTensor} {refusal? : Option Error} {counted : Prop}
    (settled : Settled built raw refusal? counted) (counts : counted) (fits : raw.Fits) : Settled built raw none True := by
  obtain ⟨_, made⟩ | ⟨_, unfit, _⟩ | ⟨beyond, _⟩ := settled
  · exact .inl ⟨trivial, made⟩
  · exact (unfit fits).elim
  · exact (beyond counts).elim

theorem Source.settled (s : Source) : Settled s.build s.raw s.refusal? s.Counted := by
  cases s with
  | zeros d => exact zerosSettled d
  | bytes d data => exact bytesSettled d data
  | elements dims type es typed => exact elementsSettled typed
  | scalar type e typed =>
    have each : ∀ x ∈ [e], x.length = type.size := fun x member => by rw [List.mem_singleton.mp member, typed]
    have one : Machine.Counts [] := fun k => by rw [List.take_nil]; decide
    have settled := (@elementsSettled [] type [e] each).certain one ((RawTensor.elementsFit each).mpr rfl)
    rwa [List.flatten_cons, List.flatten_nil, List.append_nil] at settled
  | grid g typed full =>
    have fits := (RawTensor.elementsFit typed).mpr full
    obtain ⟨t, made, raw⟩ := RawTensor.fittingMade fits
    exact .inl ⟨trivial, fits, t, Result.orFaultOk.mpr made, raw⟩

end Tensor

inductive Change where
  | truncate (output rows : Nat)
  | write (output position : Nat) (b : UInt8)
  | execute (k : BuiltinKernel) (s : Schedule) (plan : ExecutionPlan) (inputs : List Tensor)

section
variable [Widths]

namespace Change

def run : Change → Run Unit
  | truncate output rows => Run.update output (·.truncateOuter rows)
  | write output position b => Run.update output (·.setByte position b)
  | execute k s plan inputs => k.execute s plan inputs

def inPlace : Change → RawRun Unit
  | truncate output rows => RawRun.edit output (.truncate rows)
  | write output position b => RawRun.edit output (.write position b)
  | execute k s plan inputs => RawRun.execute k s plan inputs

theorem sound (c : Change) : RawRun.Sound c.inPlace c.run := by
  cases c with
  | truncate output rows => exact RawRun.Sound.edit output (e := .truncate rows) trivial
  | write output position b =>
    have keeps : (Edit.write position b).KeepsLength := fun _ _ ok => Bytes.patchLength (Result.orFaultOk.mp ok)
    have sound := RawRun.Sound.edit output keeps
    rwa [show (Edit.write position b).apply = (·.setByte position b) from funext (Edit.writeApply position b)] at sound
  | execute k s plan inputs => exact RawRun.Sound.execute k s plan inputs

end Change

namespace RawTensor

inductive Becomes (s : RawTensor) : RawTensor → Prop where
  | same : Becomes s s
  | changed {t u : RawTensor} (c : Change) (outputs : List RawTensor) (place : Nat) (history : Becomes s t)
      (before : outputs[place]? = some t) (after : (c.inPlace.run outputs).2[place]? = some u) : Becomes s u

theorem Becomes.follows {s u : RawTensor} (history : s.Becomes u) : s.Follows u := by
  induction history with
  | same => exact .refl s
  | changed c outputs place _ before after ih =>
    obtain ⟨w, found, follows⟩ := c.sound.follows before
    cases found.symm.trans after
    exact ih.trans follows

end RawTensor

namespace Tensor

end Tensor
end

namespace Tensor

example : ofElements [pow2 32, pow2 32] .u8 [] = Result.fault ∧
    (ofElements [0, pow2 33, pow2 33] .u8 []).map raw = .ok ⟨.plain [0, pow2 33, pow2 33] .u8, []⟩ ∧
    (ofElements [0, pow2 33, pow2 33] .u8 [] >>= fun t => t.truncateOuter 0) = Result.fault := by decide

end Tensor
end TensorPlan
