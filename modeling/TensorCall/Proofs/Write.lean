import Mathlib
import TensorCall.Proofs.ElementCount

namespace TensorCall

theorem length_littleEndian (count n : Nat) : (littleEndian count n).length = count := by
  induction count generalizing n with
  | zero => rfl
  | succ count ih => simp [littleEndian, ih]

theorem Scalar.length_encode (s : Scalar) (values : List s.Value) :
    (s.encode values).length = values.length * s.size := by
  simp [Scalar.encode, List.length_flatMap, length_littleEndian]

structure Contents.Fits (c : Contents) (e : ElementType) (s : PartialShape) : Prop where
  typed : e.IsStatic
  admitted : s.Admits c.dims
  counted : Counted c.dims
  filled : c.bytes.length = product c.dims * e.size

namespace Payload

def contents (p : Payload) : Contents := ⟨p.scalar.encode p.values, p.dims⟩

structure Fits (p : Payload) (e : ElementType) (s : PartialShape) : Prop where
  typed : p.scalar.elementType = e
  admitted : s.Admits p.dims
  counted : Counted p.dims
  filled : p.values.length = product p.dims

theorem Fits.contents {p : Payload} {e : ElementType} {s : PartialShape} (h : p.Fits e s) :
    p.contents.Fits e s where
  typed := h.typed ▸ p.scalar.elementType_isStatic
  admitted := h.admitted
  counted := h.counted
  filled := by
    have bytes := p.scalar.length_encode p.values
    rwa [h.filled, Scalar.size, h.typed] at bytes

/-- The first thing that is wrong with the payload for a tensor of this type and shape. -/
inductive Refused (p : Payload) (e : ElementType) (s : PartialShape) : TensorFault → Prop where
  | type : p.scalar.elementType ≠ e → Refused p e s (.typeRequested p.scalar.elementType e)
  | shape : p.scalar.elementType = e → ¬ s.Admits p.dims → Refused p e s (.notAdmitted p.dims s)
  | count : p.scalar.elementType = e → s.Admits p.dims → elementCount? p.dims = none →
      Refused p e s (.countOverflow p.dims)
  | length {n : Length} : p.scalar.elementType = e → s.Admits p.dims →
      elementCount? p.dims = some n → p.values.length ≠ n.toNat →
      Refused p e s (.elementCount p.values.length p.dims n)

theorem fits_iff {p : Payload} {e : ElementType} {s : PartialShape} :
    p.Fits e s ↔ p.scalar.elementType = e ∧ s.Admits p.dims ∧
      ∃ n, elementCount? p.dims = some n ∧ p.values.length = n.toNat := by
  constructor
  · intro fits
    obtain ⟨n, count⟩ := exists_elementCount? fits.counted
    have total : n.toNat = product p.dims := (elementCount?_eq_some_iff.mp count).2
    exact ⟨fits.typed, fits.admitted, n, count, fits.filled.trans total.symm⟩
  · rintro ⟨typed, admitted, n, count, filled⟩
    obtain ⟨counted, total⟩ := elementCount?_eq_some_iff.mp count
    exact ⟨typed, admitted, counted, filled.trans total⟩

theorem Refused.not_fits {p : Payload} {e : ElementType} {s : PartialShape} {fault : TensorFault}
    (refused : p.Refused e s fault) : ¬ p.Fits e s := by
  rw [fits_iff]
  rintro ⟨typed, admitted, n, count, filled⟩
  cases refused with
  | type other => exact other typed
  | shape _ outside => exact outside admitted
  | count _ _ overflow => simp [overflow] at count
  | length _ _ count' other =>
    cases count.symm.trans count'
    exact other filled

end Payload

namespace Tensor

variable {t t' : Tensor} {p : Payload} {fault : TensorFault}

def stored (t : Tensor) (p : Payload) : Tensor :=
  { t with contents := some p.contents, written := true }

def attempt (t : Tensor) (p : Payload) : Tensor := (t.write p).2

theorem length_of_contents {c : Contents} {n : Length} (held : t.contents = some c)
    (count : TensorCall.elementCount? c.dims = some n) : t.length = n := by
  have dims : t.dims? = some c.dims := by rw [dims?, held, Option.map_some]
  rw [length, dims]
  exact foldl_mul_eq_of_foldlM count

/- All that a write can come to; every refusing branch gives the tensor back. -/
theorem write_cases (t : Tensor) (p : Payload) :
    (p.Fits t.elementType t.shape ∧ t.write p = (.ok (), t.stored p)) ∨
      ∃ fault, p.Refused t.elementType t.shape fault ∧ t.write p = (.error fault, t) := by
  unfold write
  split
  · next other => exact .inr ⟨_, .type other, rfl⟩
  · next typed =>
    have typed := not_not.mp typed
    split
    · next outside => exact .inr ⟨_, .shape typed outside, rfl⟩
    · next admitted =>
      have admitted := not_not.mp admitted
      split
      · next overflow => exact .inr ⟨_, .count typed admitted overflow, rfl⟩
      · next n count =>
        split
        · next filled =>
          exact .inl ⟨Payload.fits_iff.mpr ⟨typed, admitted, n, count, filled⟩, rfl⟩
        · next other => exact .inr ⟨_, .length typed admitted count other, rfl⟩

theorem write_eq_ok_iff :
    t.write p = (.ok (), t') ↔ p.Fits t.elementType t.shape ∧ t' = t.stored p := by
  rcases t.write_cases p with ⟨fits, taken⟩ | ⟨fault, refused, failed⟩
  · simp [taken, fits, eq_comm]
  · simp [failed, refused.not_fits]

theorem write_of_refused (refused : p.Refused t.elementType t.shape fault) :
    t.write p = (.error fault, t) := by
  unfold write
  cases refused with
  | type other => rw [if_pos other]
  | shape typed outside => rw [if_neg (not_not.mpr typed), if_pos outside]
  | count typed admitted overflow =>
    rw [if_neg (not_not.mpr typed), if_neg (not_not.mpr admitted), overflow]
  | length typed admitted count other =>
    rw [if_neg (not_not.mpr typed), if_neg (not_not.mpr admitted), count]
    exact if_neg other

theorem write_eq_error_iff :
    t.write p = (.error fault, t') ↔ p.Refused t.elementType t.shape fault ∧ t' = t := by
  constructor
  · intro failed
    rcases t.write_cases p with ⟨-, taken⟩ | ⟨fault', refused, failed'⟩
    · cases taken.symm.trans failed
    · cases failed'.symm.trans failed
      exact ⟨refused, rfl⟩
  · rintro ⟨refused, rfl⟩
    exact write_of_refused refused

theorem attempt_cases (t : Tensor) (p : Payload) :
    (p.Fits t.elementType t.shape ∧ t.attempt p = t.stored p) ∨
      (¬ p.Fits t.elementType t.shape ∧ t.attempt p = t) := by
  rcases t.write_cases p with ⟨fits, taken⟩ | ⟨fault, refused, failed⟩
  · exact .inl ⟨fits, congrArg Prod.snd taken⟩
  · exact .inr ⟨refused.not_fits, congrArg Prod.snd failed⟩

/-- A write succeeds exactly if the type is that of the tensor, its shape admits the lengths, and
these have a count, which is the number of values; it replaces the contents and sets the flag.
Otherwise the first of the four that fails is the fault, and the tensor is as it was. -/
theorem write_outcome (t : Tensor) (p : Payload) :
    ((∃ t', t.write p = (.ok (), t')) ↔
      p.scalar.elementType = t.elementType ∧ t.shape.Relaxes (.static p.dims) ∧
        ∃ n, TensorCall.elementCount? p.dims = some n ∧ p.values.length = n.toNat) ∧
    (∀ t', t.write p = (.ok (), t') →
      t' = { t with contents := some ⟨p.scalar.encode p.values, p.dims⟩, written := true } ∧
        t'.length.toNat = p.values.length) ∧
    ∀ fault t', t.write p = (.error fault, t') ↔
      p.Refused t.elementType t.shape fault ∧ t' = t := by
  refine ⟨?_, ?_, fun _ _ => write_eq_error_iff⟩
  · constructor
    · rintro ⟨t', written⟩
      exact Payload.fits_iff.mp (write_eq_ok_iff.mp written).1
    · intro fits
      exact ⟨_, write_eq_ok_iff.mpr ⟨Payload.fits_iff.mpr fits, rfl⟩⟩
  · intro t' written
    obtain ⟨fits, rfl⟩ := write_eq_ok_iff.mp written
    obtain ⟨-, -, n, count, filled⟩ := Payload.fits_iff.mp fits
    refine ⟨rfl, ?_⟩
    rw [length_of_contents (c := p.contents) rfl count, filled]

/- The tensor holds a value and has its flag set. Lengths whose count overflows are refused before
the values are counted, but not before the type is looked at. -/
theorem write_outcome_overflow :
    let t : Tensor := ⟨.u8, .unranked, some ⟨[9], [1]⟩, true⟩
    let dims : List Length := [0x8000000000000000, 2]
    (∃ t', t.write ⟨.u8, [7, 8], [2]⟩ = (.ok (), t') ∧ t'.length.toNat = 2) ∧
      t.write ⟨.u8, [7, 8], dims⟩ = (.error (.countOverflow dims), t) ∧
      t.write ⟨.i8, [7, 8], dims⟩ = (.error (.typeRequested .i8 .u8), t) := by
  intro t dims
  have overflow : TensorCall.elementCount? dims = none := by decide
  obtain ⟨accepted, changed, -⟩ := write_outcome t ⟨.u8, [7, 8], [2]⟩
  obtain ⟨-, -, refused⟩ := write_outcome t ⟨.u8, [7, 8], dims⟩
  obtain ⟨-, -, mistyped⟩ := write_outcome t ⟨.i8, [7, 8], dims⟩
  obtain ⟨t', written⟩ := accepted.mpr ⟨rfl, trivial, 2, by decide, rfl⟩
  refine ⟨⟨t', written, (changed t' written).2⟩, ?_, ?_⟩
  · exact (refused _ _).mpr ⟨.count rfl trivial overflow, rfl⟩
  · exact (mistyped _ _).mpr ⟨.type (by decide), rfl⟩

end Tensor

end TensorCall
