import Mathlib
import TensorCall.Proofs.SetInvariants
import TensorCall.Proofs.Refusal

namespace TensorCall

def Slot.outline (slot : Slot) : Outline := (slot.elementType, slot.shape)

def Binding.Matches (b : Binding) (s : Signature) : Prop :=
  ∀ port, outlines (b.tensors port) = (s.slots port).map Slot.outline

theorem Binding.Matches.accepted {b : Binding} {s : Signature} (h : b.Matches s) :
    s.validate b = .ok () := by
  apply Signature.validate_eq_ok_iff_accepts.mpr
  constructor
  · intro port
    have length := congrArg List.length (h port)
    rw [outlines, List.length_map, List.length_map] at length
    exact length.symm
  · intro port i slot t declared given
    have same : t.outline = slot.outline := by
      have here := congrArg (·[i]?) (h port)
      simpa [outlines, declared, given] using here
    have type : t.elementType = slot.elementType := congrArg Prod.fst same
    have shape : t.shape = slot.shape := congrArg Prod.snd same
    cases port with
    | input =>
      have room : slot.shape.Relaxes t.shape := shape ▸ PartialShape.relaxes_refl _
      exact ⟨.inr type.symm, room⟩
    | output =>
      have room : t.shape.Relaxes slot.shape := shape ▸ PartialShape.relaxes_refl _
      exact ⟨.inr (.inr type.symm), room⟩

namespace Dim

theorem length?_eq_some_iff {d : Dim} {n : Length} : d.length? = some n ↔ d = .fixed n := by
  cases d <;> simp [length?]

theorem mapM_length?_eq_some_iff {ds : List Dim} {dims : List Length} :
    ds.mapM length? = some dims ↔ ds = dims.map .fixed := by
  induction ds generalizing dims with
  | nil => cases dims <;> simp
  | cons d ds ih =>
    simp only [List.mapM_cons, Option.bind_eq_bind, Option.bind_eq_some_iff, Option.pure_def,
      Option.some.injEq, length?_eq_some_iff, ih]
    constructor
    · rintro ⟨n, rfl, rest, rfl, rfl⟩
      rfl
    · intro same
      cases dims with
      | nil => cases same
      | cons n dims =>
        obtain ⟨rfl, rfl⟩ := List.cons.inj same
        exact ⟨n, rfl, dims, rfl, rfl⟩

end Dim

theorem PartialShape.lengths?_eq_some_iff {s : PartialShape} {dims : List Length} :
    s.lengths? = some dims ↔ s = .static dims := by
  cases s with
  | ranked ds => simp [lengths?, dims?, static, Dim.mapM_length?_eq_some_iff]
  | unranked => simp [lengths?, dims?, static]

theorem PartialShape.static_injective {dims dims' : List Length} (h : static dims = static dims') :
    dims = dims' := by
  have lengths := PartialShape.lengths?_eq_some_iff.mpr (rfl : static dims = static dims)
  exact Option.some.inj (lengths.symm.trans (PartialShape.lengths?_eq_some_iff.mpr h))

theorem Dim.fixed_bound {d : Dim} (static : d.IsStatic) : .fixed d.bound = d := by
  cases d with
  | fixed n => rfl
  | unknown => cases static

theorem PartialShape.isStatic_iff {s : PartialShape} : s.IsStatic ↔ ∃ dims, s = .static dims := by
  cases s with
  | unranked =>
    constructor
    · rintro ⟨_, ⟨⟩, -⟩
    · rintro ⟨_, ⟨⟩⟩
  | ranked ds =>
    constructor
    · rintro ⟨_, ⟨⟩, all⟩
      have same : (ds.map Dim.bound).map .fixed = ds := by
        rw [List.map_map]
        exact (List.map_congr_left fun d mem => Dim.fixed_bound (all d mem)).trans (List.map_id ds)
      exact ⟨ds.map Dim.bound, congrArg _ same.symm⟩
    · rintro ⟨dims, ⟨⟩⟩
      refine ⟨_, rfl, fun d mem => ?_⟩
      obtain ⟨n, -, rfl⟩ := List.mem_map.mp mem
      rfl

theorem PartialShape.lengths?_eq_none_iff {s : PartialShape} :
    s.lengths? = none ↔ ¬ s.IsStatic := by
  simp only [Option.eq_none_iff_forall_ne_some, ne_eq, lengths?_eq_some_iff, isStatic_iff,
    not_exists]

namespace Slot

variable {slot : Slot} {port : Port} {index : Nat} {dims : List Length} {t : Tensor}

theorem shape_of_allocatedDims (h : slot.allocatedDims port index = .ok dims) :
    slot.shape = .static dims := by
  unfold allocatedDims at h
  split at h
  · cases h
  · split at h
    · next found =>
      cases h
      exact PartialShape.lengths?_eq_some_iff.mp found
    · cases h

theorem outline_zeroed (h : slot.zeroed port index dims = .ok t)
    (shape : slot.shape = .static dims) : t.outline = slot.outline := by
  obtain ⟨_, -, zeros⟩ := bind_eq_ok_iff.mp h
  obtain ⟨_, -, made⟩ := bind_eq_ok_iff.mp (mapError_eq_ok_iff.mp zeros)
  cases made
  exact Prod.ext rfl shape.symm

theorem outline_createInput (h : slot.createInput index = .ok t) : t.outline = slot.outline := by
  obtain ⟨dims, allocated, zeroed⟩ := bind_eq_ok_iff.mp h
  exact outline_zeroed zeroed (shape_of_allocatedDims allocated)

theorem outline_createOutput (h : slot.createOutput index = .ok t) : t.outline = slot.outline := by
  unfold createOutput at h
  split at h
  · cases h
  · split at h
    · next found => exact outline_zeroed h (PartialShape.lengths?_eq_some_iff.mp found)
    · cases h
      rfl

theorem outline_createOver {memory : List UInt8} (h : slot.createOver port index memory = .ok t) :
    t.outline = slot.outline := by
  obtain ⟨dims, allocated, rest⟩ := bind_eq_ok_iff.mp h
  obtain ⟨needed, -, rest⟩ := bind_eq_ok_iff.mp rest
  split at rest
  · obtain ⟨_, -, made⟩ := bind_eq_ok_iff.mp (mapError_eq_ok_iff.mp rest)
    split at made
    · cases made
      exact Prod.ext rfl (shape_of_allocatedDims allocated).symm
    · cases made
  · cases rest

end Slot

theorem Signature.slotAt_eq_ok_iff {s : Signature} {port : Port} {index : Nat} {slot : Slot} :
    s.slotAt port index = .ok slot ↔ (s.slots port)[index]? = some slot := by
  unfold slotAt
  split <;> simp_all

theorem Signature.slotAt_eq_error_iff {s : Signature} {port : Port} {index : Nat} {e : Error} :
    s.slotAt port index = .error e ↔ (s.slots port).length ≤ index ∧
      e = .indexOutOfRange port index (s.slots port).length := by
  unfold slotAt
  split
  · next found =>
    obtain ⟨below, -⟩ := List.getElem?_eq_some_iff.mp found
    simp [Nat.not_le_of_lt below]
  · next none => simp [List.getElem?_eq_none_iff.mp none, eq_comm]

namespace Host

variable {σ : Type}

/-- The executable makes the tensor for the slot at the place, by any of its four ways. -/
inductive Provides (h : Host σ) (port : Port) (index : Nat) : Tensor → Prop where
  | created {t : Tensor} : h.create port index = .ok t → Provides h port index t
  | createdOver {memory : List UInt8} {t : Tensor} : h.createOver port index memory = .ok t →
      Provides h port index t
  | createdEach {depth : Nat} {ts : List Tensor} {t : Tensor} :
      h.createEach port index depth = .ok ts → t ∈ ts → Provides h port index t
  | createdEachOver {depth : Nat} {memory : List (List UInt8)} {ts : List Tensor} {t : Tensor} :
      h.createEachOver port index depth memory = .ok ts → t ∈ ts → Provides h port index t

variable {h : Host σ} {port : Port} {index : Nat} {t : Tensor}

theorem outline_create (made : h.create port index = .ok t) :
    ∃ slot, (h.signature.slots port)[index]? = some slot ∧ t.outline = slot.outline := by
  obtain ⟨slot, found, made⟩ := bind_eq_ok_iff.mp made
  refine ⟨slot, Signature.slotAt_eq_ok_iff.mp found, ?_⟩
  cases port with
  | input => exact Slot.outline_createInput made
  | output => exact Slot.outline_createOutput made

theorem outline_createOver {memory : List UInt8} (made : h.createOver port index memory = .ok t) :
    ∃ slot, (h.signature.slots port)[index]? = some slot ∧ t.outline = slot.outline := by
  obtain ⟨slot, found, made⟩ := bind_eq_ok_iff.mp made
  exact ⟨slot, Signature.slotAt_eq_ok_iff.mp found, Slot.outline_createOver made⟩

theorem Provides.outline (provided : h.Provides port index t) :
    ∃ slot, (h.signature.slots port)[index]? = some slot ∧ t.outline = slot.outline := by
  cases provided with
  | created made => exact outline_create made
  | createdOver made => exact outline_createOver made
  | createdEach made mem => exact outline_create (create_of_createEach made mem)
  | createdEachOver made mem =>
    obtain ⟨buffer, -, made⟩ := createOver_of_createEachOver made mem
    exact outline_createOver made

end Host

theorem outlines_eq_map {slots : List Slot} {tensors : List Tensor}
    (length : tensors.length = slots.length)
    (each : ∀ (i : Nat) (t : Tensor), tensors[i]? = some t →
      ∃ slot, slots[i]? = some slot ∧ t.outline = slot.outline) :
    outlines tensors = slots.map Slot.outline := by
  apply List.ext_getElem?
  intro i
  rw [outlines, List.getElem?_map, List.getElem?_map]
  cases given : tensors[i]? with
  | none =>
    have beyond : slots.length ≤ i := length ▸ List.getElem?_eq_none_iff.mp given
    rw [List.getElem?_eq_none_iff.mpr beyond]
    rfl
  | some t =>
    obtain ⟨slot, declared, same⟩ := each i t given
    rw [declared]
    exact congrArg some same

namespace TensorSet

def binding (s : TensorSet) : Binding := ⟨s.inputs, s.outputs⟩

structure Alike (s s' : TensorSet) : Prop where
  pipeline : s'.pipeline = s.pipeline
  outlines : ∀ port, outlines (s'.binding.tensors port) = outlines (s.binding.tensors port)

theorem alike_attempt (s : TensorSet) (port : Port) (place : Nat) (p : Payload) :
    s.Alike (s.attempt port place p) := by
  have kept := map_modify_eq (Tensor.outline_attempt · p)
  cases port with
  | input =>
    refine ⟨rfl, ?_⟩
    rintro (_ | _)
    · exact kept s.inputs place
    · rfl
  | output =>
    refine ⟨rfl, ?_⟩
    rintro (_ | _)
    · rfl
    · exact kept s.outputs place

theorem alike_call {σ : Type} (s : TensorSet) (h : Host σ) : s.Alike (s.call h).2 := by
  refine ⟨rfl, ?_⟩
  rintro (_ | _)
  · rfl
  · exact h.outlines_callChecked s.binding

theorem Alike.matches {s s' : TensorSet} (alike : s.Alike s') {d : Signature}
    (h : s.binding.Matches d) : s'.binding.Matches d :=
  fun port => (alike.outlines port).trans (h port)

end TensorSet

namespace Host

variable {σ : Type} {h : Host σ}

theorem outlines_row {port : Port} {depth : Nat} {tensors : List (List Tensor)}
    (made : Pipeline.columns h port depth (List.range (h.signature.slots port).length) = .ok tensors)
    {k : Nat} {row : List Tensor} (found : (rows depth tensors)[k]? = some row) :
    outlines row = (h.signature.slots port).map Slot.outline := by
  obtain ⟨length, each⟩ := List.forall₂_iff_get.mp (Pipeline.forall₂_of_row made found)
  rw [List.length_range] at length
  apply outlines_eq_map length.symm
  intro i t given
  obtain ⟨below, rfl⟩ := List.getElem?_eq_some_iff.mp given
  obtain ⟨column, created, here⟩ := each i (by simpa [length] using below) below
  rw [List.get_eq_getElem, List.getElem_range] at created
  exact (Provides.createdEach created (List.mem_of_getElem? here)).outline

theorem matches_of_create {id depth : Nat} {p : Pipeline}
    (made : Pipeline.create id h depth = .ok p) {s : TensorSet} (stored : some s ∈ p.entries) :
    s.pipeline = id ∧ s.binding.Matches h.signature := by
  obtain ⟨-, inputs, outputs, hi, ho, rfl⟩ := Pipeline.exists_columns_of_create made
  obtain ⟨k, found⟩ := List.mem_iff_getElem?.mp stored
  simp only [List.getElem?_mapIdx, Option.map_eq_some_iff, Option.some.injEq] at found
  obtain ⟨row, zipped, rfl⟩ := found
  obtain ⟨input, output⟩ := List.getElem?_zip_eq_some.mp zipped
  refine ⟨rfl, ?_⟩
  rintro (_ | _)
  · exact outlines_row hi input
  · exact outlines_row ho output

end Host

end TensorCall
