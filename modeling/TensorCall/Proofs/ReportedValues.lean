import Mathlib
import TensorCall.Proofs.ShapeBounds
import TensorCall.Proofs.Refusal

namespace TensorCall

/-- The refusal calls for the very value that was given. -/
def Error.AsGiven : Error → Prop
  | .countMismatch _ expected actual => expected = actual
  | .typeMismatch _ _ expected actual => expected = actual
  | .shapeMismatch _ _ expected actual => expected = actual
  | _ => False

namespace PartialShape

theorem largest_relaxes_iff {s : PartialShape} :
    s.largest.Relaxes s ↔ s = .unranked ∨ s.IsStatic := by
  cases s with
  | unranked => exact iff_of_true trivial (.inl rfl)
  | ranked ds =>
    have lengths : (ranked ds).largest.Relaxes (ranked ds) ↔ ds = (ds.map Dim.bound).map .fixed :=
      Dim.allRelax_fixed_iff
    rw [lengths, isStatic_iff]
    constructor
    · intro same
      exact .inr ⟨_, congrArg ranked same⟩
    · rintro (⟨⟨⟩⟩ | ⟨dims, same⟩)
      obtain rfl : ds = dims.map .fixed := PartialShape.ranked.inj same
      simp [Function.comp_def, Dim.bound, Dim.length?]

end PartialShape

/-- The tensor has the declared shape but for the unknown lengths, of which there is one at least:
each of them is the greatest length. -/
def Slot.FilledUp (slot : Slot) (t : Tensor) : Prop :=
  ∃ ds, slot.shape = .ranked ds ∧ .unknown ∈ ds ∧
    t.shape = .static (ds.map (Dim.filled Length.greatest))

namespace Slot

variable {slot : Slot} {port : Port} {t : Tensor}

theorem typeFits_of_eq (same : slot.elementType = t.elementType) : slot.TypeFits t port := by
  cases port with
  | input => exact .inr same
  | output => exact .inr (.inr same)

theorem filledUp_iff :
    slot.FilledUp t ↔ slot.shape.largest = t.shape ∧ ¬ slot.ShapeFits t .output := by
  constructor
  · rintro ⟨ds, declared, unknown, shape⟩
    have same : slot.shape.largest = t.shape := by
      rw [declared, shape]
      rfl
    refine ⟨same, fun fits => ?_⟩
    have fits : slot.shape.largest.Relaxes slot.shape := same ▸ fits
    rcases PartialShape.largest_relaxes_iff.mp fits with other | static
    · cases declared.symm.trans other
    · exact PartialShape.not_isStatic_ranked_iff.mpr unknown (declared ▸ static)
  · rintro ⟨same, narrow⟩
    have narrow : ¬ slot.shape.largest.Relaxes slot.shape := same ▸ narrow
    obtain ⟨known, partly⟩ := not_or.mp (mt PartialShape.largest_relaxes_iff.mpr narrow)
    cases declared : slot.shape with
    | unranked => exact absurd declared known
    | ranked ds =>
      refine ⟨ds, declared, PartialShape.not_isStatic_ranked_iff.mp (declared ▸ partly), ?_⟩
      rw [← same, declared]
      rfl

end Slot

namespace Signature

variable {s : Signature} {b : Binding} {e : Error}

theorem Refuses.asGiven_iff (refused : s.Refuses b e) :
    e.AsGiven ↔ ∃ i result t, s.results[i]? = some result ∧ b.outputs[i]? = some t ∧
      result.FilledUp t ∧ e = .shapeMismatch .output i t.shape t.shape := by
  constructor
  · intro same
    cases refused with
    | inputCount differ => exact absurd same differ
    | outputCount _ differ => exact absurd same differ
    | type _ _ _ apart => exact absurd (Slot.typeFits_of_eq same) apart
    | @shape port i slot t _ declared given _ apart =>
      cases port with
      | input =>
        have same : slot.shape = t.shape := same
        have fits : slot.shape.Relaxes t.shape := same ▸ PartialShape.relaxes_refl slot.shape
        exact absurd fits apart
      | output =>
        have same : slot.shape.largest = t.shape := same
        refine ⟨i, slot, t, declared, given, Slot.filledUp_iff.mpr ⟨same, apart⟩, ?_⟩
        exact congrArg (Error.shapeMismatch .output i · t.shape) same
  · rintro ⟨i, result, t, -, -, -, rfl⟩
    exact rfl

theorem validate_of_filledUp {i : Nat} {result : Slot} {t : Tensor} (clear : s.ClearUpTo b .output i)
    (declared : s.results[i]? = some result) (given : b.outputs[i]? = some t)
    (typed : result.TypeFits t .output) (full : result.FilledUp t) :
    s.validate b = .error (.shapeMismatch .output i t.shape t.shape) := by
  obtain ⟨same, apart⟩ := Slot.filledUp_iff.mp full
  have refused := validate_eq_error_iff.mpr (.shape clear declared given typed apart)
  rwa [Slot.expectedShape, same] at refused

/-- A refusal is a mismatch, and what it calls for is not what was given. The one exception, which
is always refused in this way, is an output that has the bounds of a result of unknown lengths. -/
theorem reported_apart (s : Signature) (b : Binding) :
    (∀ e, s.validate b = .error e → e.IsMismatch ∧
      (e.AsGiven ↔ ∃ i result t, s.results[i]? = some result ∧ b.outputs[i]? = some t ∧
        result.FilledUp t ∧ e = .shapeMismatch .output i t.shape t.shape)) ∧
    ∀ i result t, s.ClearUpTo b .output i → s.results[i]? = some result →
      b.outputs[i]? = some t → result.TypeFits t .output → result.FilledUp t →
        s.validate b = .error (.shapeMismatch .output i t.shape t.shape) := by
  constructor
  · intro e refused
    exact ⟨isMismatch_of_validate refused, (validate_eq_error_iff.mp refused).asGiven_iff⟩
  · intro i result t
    exact validate_of_filledUp

/- The result may have any length and the output has the greatest one, in a row of no elements. -/
theorem reported_alike :
    let s : Signature := ⟨[], [⟨"y", .f32, .ranked [.fixed 0, .unknown]⟩]⟩
    let t : Tensor := .holding .f32 ⟨[], [0, Length.greatest]⟩
    let e : Error := .shapeMismatch .output 0 t.shape t.shape
    Tensor.zeros .f32 [0, Length.greatest] = .ok t ∧ s.validate ⟨[], [t]⟩ = .error e ∧
      e.IsMismatch ∧ e.AsGiven :=
  ⟨rfl, rfl, trivial, rfl⟩

/- An output of another shape is told the bounds, which it does not have; an output that has them
is told its own shape. -/
theorem reported_apart_bounds :
    let s : Signature := ⟨[], [⟨"y", .f32, .ranked [.unknown, .fixed 4]⟩]⟩
    let e : Error := .shapeMismatch .output 0 (.static [Length.greatest, 4]) (.static [3, 5])
    let t : Tensor := .unallocated .f32 (.static [Length.greatest, 4])
    (s.validate ⟨[], [.unallocated .f32 (.static [3, 5])]⟩ = .error e ∧ ¬ e.AsGiven) ∧
      s.validate ⟨[], [t]⟩ = .error (.shapeMismatch .output 0 t.shape t.shape) := by
  intro s e t
  obtain ⟨apart, -⟩ := reported_apart s ⟨[], [.unallocated .f32 (.static [3, 5])]⟩
  obtain ⟨-, same⟩ := reported_apart s ⟨[], [t]⟩
  have clear : s.ClearUpTo ⟨[], [t]⟩ .output 0 := by
    refine ⟨?_, ?_, nofun⟩
    · rintro (_ | _) <;> rfl
    · rintro - j slot t' ⟨⟩
  refine ⟨⟨rfl, ?_⟩, same 0 _ t clear rfl rfl (.inr (.inr rfl)) ⟨_, rfl, by decide, rfl⟩⟩
  intro given
  obtain ⟨i, result, t', -, -, -, told⟩ := (apart e rfl).2.mp given
  obtain ⟨-, -, bounds, actual⟩ := Error.shapeMismatch.inj told
  exact absurd (bounds.trans actual.symm) (by decide)

end Signature

end TensorCall
