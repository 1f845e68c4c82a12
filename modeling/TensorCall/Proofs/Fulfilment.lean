import Mathlib
import TensorCall.Proofs.Creation
import TensorCall.Proofs.ShapeBounds
import TensorCall.Proofs.HostCall

namespace TensorCall

theorem Scalar.exists_elementType_iff {e : ElementType} :
    (∃ k : Scalar, k.elementType = e) ↔ e.IsStatic ∧ e ≠ .bool ∧ e ≠ .f16 := by
  constructor
  · rintro ⟨k, rfl⟩
    cases k <;> decide
  · rintro ⟨typed, truth, half⟩
    cases e with
    | dynamic => exact absurd rfl typed
    | bool => exact absurd rfl truth
    | f16 => exact absurd rfl half
    | f32 => exact ⟨.f32, rfl⟩
    | f64 => exact ⟨.f64, rfl⟩
    | i8 => exact ⟨.i8, rfl⟩
    | i32 => exact ⟨.i32, rfl⟩
    | i64 => exact ⟨.i64, rfl⟩
    | u8 => exact ⟨.u8, rfl⟩
    | u32 => exact ⟨.u32, rfl⟩

namespace Dim

theorem exists_split_of_unknown_mem {ds : List Dim} (mem : .unknown ∈ ds) :
    ∃ (before : List Length) (after : List Dim), ds = before.map .fixed ++ .unknown :: after := by
  induction ds with
  | nil => cases mem
  | cons d ds ih =>
    cases d with
    | unknown => exact ⟨[], ds, rfl⟩
    | fixed n =>
      have later : .unknown ∈ ds := by simpa using mem
      obtain ⟨before, after, rfl⟩ := ih later
      exact ⟨n :: before, after, rfl⟩

theorem exists_append_of_allRelax {before dims : List Length} {ds : List Dim}
    (h : AllRelax (before.map .fixed ++ ds) (dims.map .fixed)) : ∃ rest, dims = before ++ rest := by
  induction before generalizing dims with
  | nil => exact ⟨dims, rfl⟩
  | cons n before ih =>
    cases dims with
    | nil => exact h.elim
    | cons m dims =>
      obtain rfl : n = m := h.1
      obtain ⟨rest, rfl⟩ := ih h.2
      exact ⟨rest, rfl⟩

end Dim

namespace PartialShape

/- Where a length is unknown, what is before it decides: it may be zero. -/
theorem exists_counted_iff {before : List Length} {after : List Dim} :
    (∃ dims, (ranked (before.map .fixed ++ .unknown :: after)).Admits dims ∧ Counted dims) ↔
      Counted before := by
  constructor
  · rintro ⟨dims, admitted, counted⟩
    obtain ⟨rest, rfl⟩ := Dim.exists_append_of_allRelax admitted
    exact counted.of_append
  · intro counted
    have filled := ranked_admits_filled 0 (before.map .fixed ++ .unknown :: after)
    rw [List.map_append, List.map_map] at filled
    have same : before.map (Dim.filled 0 ∘ .fixed) = before := List.map_id before
    rw [same] at filled
    exact ⟨_, filled, counted.append_zero _⟩

end PartialShape

theorem Payload.exists_fits {k : Scalar} {s : PartialShape} {dims : List Length}
    (admitted : s.Admits dims) (counted : Counted dims) :
    ∃ p : Payload, p.Fits k.elementType s :=
  ⟨⟨k, List.replicate (product dims) 0, dims⟩, rfl, admitted, counted, List.length_replicate⟩

theorem Tensor.exists_write_iff {t : Tensor} :
    (∃ p t', t.write p = (.ok (), t')) ↔ ∃ p : Payload, p.Fits t.elementType t.shape := by
  simp only [write_eq_ok_iff, exists_and_left, exists_eq, and_true]

namespace Slot

/-- No write can ever fill a tensor of the slot: there is no scalar of its type, or before an
unknown length the known ones have no count. -/
inductive Barred (slot : Slot) : Prop where
  | truth : slot.elementType = .bool → Barred slot
  | half : slot.elementType = .f16 → Barred slot
  | uncounted {before : List Length} {after : List Dim} :
      slot.shape = .ranked (before.map .fixed ++ .unknown :: after) → ¬ Counted before →
      Barred slot

variable {slot : Slot} {index : Nat} {t : Tensor}

theorem Barred.not_fits (barred : slot.Barred) (p : Payload) :
    ¬ p.Fits slot.elementType slot.shape := by
  intro fits
  obtain ⟨-, truth, half⟩ := Scalar.exists_elementType_iff.mp ⟨p.scalar, fits.typed⟩
  cases barred with
  | truth other => exact truth other
  | half other => exact half other
  | uncounted shape overflow =>
    exact overflow (PartialShape.exists_counted_iff.mp ⟨_, shape ▸ fits.admitted, fits.counted⟩)

theorem exists_counted (created : slot.create .output index = .ok t) (free : ¬ slot.Barred) :
    ∃ dims, slot.shape.Admits dims ∧ Counted dims := by
  rcases create_eq_ok_iff.mp created with ⟨dims, size, takes, -⟩ | ⟨waits, -⟩
  · exact ⟨dims, takes.shape ▸ PartialShape.static_admits dims, takes.counted⟩
  · cases shape : slot.shape with
    | unranked => exact ⟨[], trivial, counted_nil⟩
    | ranked ds =>
      have unknown : .unknown ∈ ds := PartialShape.not_isStatic_ranked_iff.mp (shape ▸ waits.shape)
      obtain ⟨before, after, rfl⟩ := Dim.exists_split_of_unknown_mem unknown
      apply PartialShape.exists_counted_iff.mpr
      by_contra overflow
      exact free (.uncounted shape overflow)

theorem exists_fits_iff (created : slot.create .output index = .ok t) :
    (∃ p : Payload, p.Fits slot.elementType slot.shape) ↔ ¬ slot.Barred := by
  constructor
  · rintro ⟨p, fits⟩ barred
    exact barred.not_fits p fits
  · intro free
    have typed : slot.elementType.IsStatic := by
      rcases create_eq_ok_iff.mp created with ⟨_, _, takes, -⟩ | ⟨waits, -⟩
      · exact takes.typed
      · exact waits.typed
    have scalar := Scalar.exists_elementType_iff.mpr
      ⟨typed, fun truth => free (.truth truth), fun half => free (.half half)⟩
    obtain ⟨k, same⟩ := scalar
    obtain ⟨dims, admitted, counted⟩ := exists_counted created free
    exact same ▸ Payload.exists_fits admitted counted

end Slot

namespace Run

variable {σ : Type} {state : σ}

def offering (state : σ) : Nat → List Payload → Run σ
  | _, [] => .finish state (.ok ())
  | output, p :: ps => .write output p fun _ => offering state (output + 1) ps

theorem verdict_offering (ps : List Payload) (i : Nat) (outputs : List Tensor) :
    ((offering state i ps).exec outputs).verdict = .ok () := by
  induction ps generalizing i outputs with
  | nil => rfl
  | cons p ps ih =>
    rw [offering, exec]
    exact ih (i + 1) _

/- A payload for an earlier output leaves the later outputs as they are. -/
theorem writtenIn_offering {ps : List Payload} {i k : Nat} {outputs : List Tensor} {p : Payload}
    {t : Tensor} (offered : ps[k]? = some p) (found : outputs[i + k]? = some t)
    (fits : p.Fits t.elementType t.shape) :
    WrittenIn ((offering state i ps).log outputs) (i + k) := by
  induction ps generalizing i k outputs with
  | nil => cases offered
  | cons q ps ih =>
    cases k with
    | zero =>
      cases offered
      rw [Nat.add_zero] at found ⊢
      simp only [offering, log, writeAt_of_fits found fits]
      exact ⟨_, List.mem_cons_self, rfl⟩
    | succ k =>
      have place : i + (k + 1) = i + 1 + k := by omega
      rw [place] at found ⊢
      rcases writeAt_cases outputs i q with ⟨t', -, -, taken⟩ | ⟨e, refused⟩
      · simp only [offering, log, taken]
        have kept : (outputs.set i (t'.stored q))[i + 1 + k]? = some t := by
          rwa [List.getElem?_set_ne (by omega)]
        obtain ⟨entry, mem, here⟩ := ih offered kept
        exact ⟨entry, List.mem_cons_of_mem _ mem, here⟩
      · simp only [offering, log, refused]
        exact ih offered found

end Run

namespace Host

variable {σ : Type}

theorem fits_of_writtenIn {h : Host σ} {b : Binding} {i : Nat} {t : Tensor}
    (found : b.outputs[i]? = some t) (written : WrittenIn (h.log b) i) :
    ∃ p : Payload, p.Fits t.elementType t.shape := by
  obtain ⟨entry, mem, rfl⟩ := written
  obtain ⟨t', found', fits⟩ := Run.fits_of_mem_log _ _ mem
  rw [List.getElem?_map, found, Option.map_some] at found'
  cases found'
  exact ⟨entry.payload, fits⟩

/- One kernel writes all that can be written. It offers each output a payload that fits, if there
is one. -/
theorem exists_kernel (h : Host σ) (b : Binding) : ∃ kernel : Kernel σ,
    ({ h with kernel }).kernelVerdict b = .ok () ∧
    ∀ i t, b.outputs[i]? = some t → (∃ p : Payload, p.Fits t.elementType t.shape) →
      WrittenIn (({ h with kernel }).log b) i := by
  have best : ∀ t : Tensor, ∃ p : Payload,
      (∃ q : Payload, q.Fits t.elementType t.shape) → p.Fits t.elementType t.shape := by
    intro t
    by_cases some_fits : ∃ q : Payload, q.Fits t.elementType t.shape
    · obtain ⟨q, fits⟩ := some_fits
      exact ⟨q, fun _ => fits⟩
    · exact ⟨⟨.u8, [], []⟩, fun fits => absurd fits some_fits⟩
  choose payload fits using best
  refine ⟨fun state _ => .offering state 0 (b.outputs.map payload), ?_, ?_⟩
  · exact Run.verdict_offering _ 0 _
  · intro i t found some_fits
    have offered : (b.outputs.map payload)[i]? = some (payload t) := by
      rw [List.getElem?_map, found, Option.map_some]
    have cleared : (b.outputs.map Tensor.beginCall)[0 + i]? = some t.beginCall := by
      rw [Nat.zero_add, List.getElem?_map, found, Option.map_some]
    have written : WrittenIn ((Run.offering h.state 0 (b.outputs.map payload)).log
        (b.outputs.map Tensor.beginCall)) (0 + i) :=
      Run.writtenIn_offering offered cleared (fits t some_fits)
    rwa [Nat.zero_add] at written

/-- The call is no error, and the output at the place counts as written. -/
def Fulfils (h : Host σ) (b : Binding) (i : Nat) : Prop :=
  (∃ v, (h.call b).verdict = .ok v) ∧ ∃ t, (h.call b).outputs[i]? = some t ∧ t.written = true

variable {h : Host σ} {b : Binding} {i index : Nat} {t : Tensor}

theorem exists_verdict_iff : (∃ v, (h.call b).verdict = .ok v) ↔ h.kernelVerdict b = .ok () := by
  rw [verdict_call]
  cases h.kernelVerdict b <;> simp

theorem verdict_eq_true_iff : (h.call b).verdict = .ok true ↔
    h.kernelVerdict b = .ok () ∧ ∀ i < b.outputs.length, WrittenIn (h.log b) i := by
  rw [verdict_call, ← all_written_call_iff]
  cases h.kernelVerdict b <;> simp

theorem fulfils_iff (found : b.outputs[i]? = some t) :
    h.Fulfils b i ↔ h.kernelVerdict b = .ok () ∧ WrittenIn (h.log b) i := by
  have output := h.getElem?_call b i
  rw [found, Option.map_some] at output
  simp only [Fulfils, exists_verdict_iff, output, Option.some.injEq, exists_eq_left',
    written_after_beginCall]

theorem exists_kernel_fulfils_iff (h : Host σ) (found : b.outputs[i]? = some t) :
    (∃ kernel : Kernel σ, ({ h with kernel }).Fulfils b i) ↔
      ∃ p : Payload, p.Fits t.elementType t.shape := by
  simp only [fulfils_iff found]
  constructor
  · rintro ⟨kernel, -, written⟩
    exact fits_of_writtenIn found written
  · intro fits
    obtain ⟨kernel, done, writes⟩ := h.exists_kernel b
    exact ⟨kernel, done, writes i t found fits⟩

theorem exists_kernel_succeeds_iff (h : Host σ) (b : Binding) :
    (∃ kernel : Kernel σ, (({ h with kernel }).call b).verdict = .ok true) ↔
      ∀ t ∈ b.outputs, ∃ p : Payload, p.Fits t.elementType t.shape := by
  simp only [verdict_eq_true_iff]
  constructor
  · rintro ⟨kernel, -, written⟩ t mem
    obtain ⟨i, found⟩ := List.mem_iff_getElem?.mp mem
    exact fits_of_writtenIn found (written i (List.getElem?_eq_some_iff.mp found).1)
  · intro fits
    obtain ⟨kernel, done, writes⟩ := h.exists_kernel b
    refine ⟨kernel, done, fun i below => ?_⟩
    exact writes i _ (List.getElem?_eq_getElem below) (fits _ (List.getElem_mem below))

theorem exists_fits_iff_of_create (created : h.create .output index = .ok t) :
    ∃ slot, h.signature.results[index]? = some slot ∧
      ((∃ p : Payload, p.Fits t.elementType t.shape) ↔ ¬ slot.Barred) := by
  obtain ⟨slot, declared, made⟩ := create_eq_ok_iff.mp created
  obtain ⟨slot', declared', outline⟩ := outline_create created
  cases declared.symm.trans declared'
  have type : t.elementType = slot.elementType := congrArg Prod.fst outline
  have shape : t.shape = slot.shape := congrArg Prod.snd outline
  refine ⟨slot, declared, ?_⟩
  rw [type, shape]
  exact Slot.exists_fits_iff made

theorem write_ne_ok {slot : Slot} (created : h.create .output index = .ok t)
    (declared : h.signature.results[index]? = some slot) (barred : slot.Barred) (p : Payload)
    (t' : Tensor) : t.write p ≠ (.ok (), t') := by
  intro written
  obtain ⟨slot', declared', fits⟩ := exists_fits_iff_of_create created
  cases declared.symm.trans declared'
  exact fits.mp (Tensor.exists_write_iff.mp ⟨p, t', written⟩) barred

/-- An output that was created takes some write unless its slot is barred. Exactly if it takes one,
there is a kernel for which a call succeeds and counts it as written; and exactly if all outputs
of a call take one, there is a kernel for which the call reports that it wrote them all. -/
theorem created_fulfilled (h : Host σ) {index : Nat} {t : Tensor}
    (created : h.create .output index = .ok t) :
    ∃ slot, h.signature.results[index]? = some slot ∧
      ((∃ p t', t.write p = (.ok (), t')) ↔ ¬ slot.Barred) ∧
      ∀ b : Binding,
        (∀ i, b.outputs[i]? = some t →
          ((∃ kernel : Kernel σ, ({ h with kernel }).Fulfils b i) ↔ ¬ slot.Barred)) ∧
        ((∃ kernel : Kernel σ, (({ h with kernel }).call b).verdict = .ok true) ↔
          ∀ t ∈ b.outputs, ∃ p t', t.write p = (.ok (), t')) := by
  obtain ⟨slot, declared, fits⟩ := exists_fits_iff_of_create created
  simp only [Tensor.exists_write_iff]
  refine ⟨slot, declared, fits, fun b => ⟨fun i found => ?_, h.exists_kernel_succeeds_iff b⟩⟩
  exact (h.exists_kernel_fulfils_iff found).trans fits

/- A truth value, a half-precision number, and lengths that are too many whatever the last one is. -/
theorem created_never_fulfilled :
    let wide : PartialShape := .ranked [.fixed 0x8000000000000000, .fixed 4, .unknown]
    let h : Host Unit := ⟨"f", ⟨[], [⟨"x", .bool, .static [2]⟩, ⟨"y", .f16, .unranked⟩,
      ⟨"z", .u8, wide⟩]⟩, 2, fun _ _ => .finish () (.ok ()), ()⟩
    (∃ t, h.create .output 0 = .ok t ∧ ∀ p t', t.write p ≠ (.ok (), t')) ∧
      (∃ t, h.create .output 1 = .ok t ∧ ∀ p t', t.write p ≠ (.ok (), t')) ∧
      ∃ t, h.create .output 2 = .ok t ∧ ∀ p t', t.write p ≠ (.ok (), t') := by
  intro wide h
  have overflow : ¬ Counted [0x8000000000000000, 4] := fun counted =>
    absurd (counted 2) (by decide)
  have barred : Slot.Barred ⟨"z", .u8, wide⟩ := @Slot.Barred.uncounted _ _ [] rfl overflow
  have x : h.create .output 0 = .ok (.holding .bool ⟨[0, 0], [2]⟩) := rfl
  have y : h.create .output 1 = .ok (.unallocated .f16 .unranked) := rfl
  have z : h.create .output 2 = .ok (.unallocated .u8 wide) := rfl
  exact ⟨⟨_, x, write_ne_ok x rfl (.truth rfl)⟩, ⟨_, y, write_ne_ok y rfl (.half rfl)⟩,
    ⟨_, z, write_ne_ok z rfl barred⟩⟩

/- The number of rows is unknown, and then there are three of each. -/
theorem created_fulfilled_rows :
    let y : Slot := ⟨"y", .f32, .ranked [.unknown, .fixed 3]⟩
    let h : Host Unit := ⟨"f", ⟨[], [y]⟩, 2, fun _ _ => .finish () (.ok ()), ()⟩
    let t : Tensor := .unallocated .f32 y.shape
    h.create .output 0 = .ok t ∧ (∃ p t', t.write p = (.ok (), t')) ∧
      ∃ kernel : Kernel Unit, (({ h with kernel }).call ⟨[], [t]⟩).verdict = .ok true := by
  intro y h t
  have created : h.create .output 0 = .ok t := rfl
  obtain ⟨slot, declared, takes, reports⟩ := created_fulfilled h created
  cases declared
  have free : ¬ y.Barred := by
    rintro (⟨⟨⟩⟩ | ⟨⟨⟩⟩ | @⟨_ | ⟨_, _⟩, after, shape, overflow⟩)
    · exact overflow counted_nil
    · cases shape
  have written := takes.mpr free
  refine ⟨created, written, (reports ⟨[], [t]⟩).2.mpr fun t' mem => ?_⟩
  obtain rfl := List.mem_singleton.mp mem
  exact written

end Host

end TensorCall
