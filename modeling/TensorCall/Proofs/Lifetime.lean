import Mathlib
import TensorCall.Proofs.HostCall
import TensorCall.Proofs.Sequencing

namespace TensorCall

namespace Tensor

inductive Change : Tensor → Tensor → Prop where
  | write (t : Tensor) (p : Payload) : Change t (t.attempt p)
  | call {σ : Type} (h : Host σ) (b : Binding) (place : Nat) {t t' : Tensor} :
      b.outputs[place]? = some t → (h.call b).outputs[place]? = some t' → Change t t'
  | callChecked {σ : Type} (h : Host σ) (b : Binding) (place : Nat) {t t' : Tensor} :
      b.outputs[place]? = some t → (Executable.callChecked h b).outputs[place]? = some t' →
        Change t t'

abbrev Becomes : Tensor → Tensor → Prop := Relation.ReflTransGen Change

/-- A new tensor: built from values or bytes, zeroed, left empty, made for a slot of a host
executable, or copied from a tensor in the middle of its life. -/
inductive Made : Tensor → Prop where
  | ofValues {p : Payload} {t : Tensor} : Tensor.ofValues p = .ok t → Made t
  | ofBytes {e : ElementType} {bytes : List UInt8} {dims : List Length} {t : Tensor} :
      Tensor.ofBytes e bytes dims = .ok t → Made t
  | zeros {e : ElementType} {dims : List Length} {t : Tensor} :
      Tensor.zeros e dims = .ok t → Made t
  | unallocated (e : ElementType) (s : PartialShape) : Made (.unallocated e s)
  | created {σ : Type} {h : Host σ} {port : Port} {index : Nat} {t : Tensor} :
      h.create port index = .ok t → Made t
  | createdOver {σ : Type} {h : Host σ} {port : Port} {index : Nat} {memory : List UInt8}
      {t : Tensor} : h.createOver port index memory = .ok t → Made t
  | createdEach {σ : Type} {h : Host σ} {port : Port} {index depth : Nat} {ts : List Tensor}
      {t : Tensor} : h.createEach port index depth = .ok ts → t ∈ ts → Made t
  | createdEachOver {σ : Type} {h : Host σ} {port : Port} {index depth : Nat}
      {memory : List (List UInt8)} {ts : List Tensor} {t : Tensor} :
      h.createEachOver port index depth memory = .ok ts → t ∈ ts → Made t
  | copied {t t' : Tensor} : Made t → t.Becomes t' → Made t'

/-- Contents fit the tensor, and nothing is written that is not held. -/
structure Sound (t : Tensor) : Prop where
  fits : ∀ c ∈ t.contents, c.Fits t.elementType t.shape
  held : t.written = true → t.isAllocated = true

theorem sound_holding {e : ElementType} {c : Contents} (h : c.Fits e (.static c.dims)) :
    (holding e c).Sound where
  fits := by
    intro c' mem
    obtain rfl := Option.some.inj mem
    exact h
  held _ := rfl

theorem sound_unallocated (e : ElementType) (s : PartialShape) : (unallocated e s).Sound where
  fits c mem := by cases mem
  held written := by cases written

theorem Sound.beginCall {t : Tensor} (h : t.Sound) : t.beginCall.Sound where
  fits := h.fits
  held written := by cases written

theorem Sound.after {t : Tensor} (h : t.Sound) {p : Option Payload}
    (fits : ∀ q ∈ p, q.Fits t.elementType t.shape) : (t.after p).Sound := by
  cases p with
  | none => exact h
  | some q =>
    constructor
    · intro c mem
      obtain rfl := Option.some.inj mem
      exact (fits q rfl).contents
    · intro _
      rfl

theorem exists_after_of_call {σ : Type} {t t' : Tensor} (x : Host σ) (b : Binding) {i : Nat}
    (before : b.outputs[i]? = some t) (afterwards : (x.call b).outputs[i]? = some t') :
    ∃ p : Option Payload, (∀ q ∈ p, q.Fits t.elementType t.shape) ∧ t' = t.beginCall.after p := by
  rw [Host.getElem?_call, before, Option.map_some] at afterwards
  refine ⟨lastWrite? (x.log b) i, ?_, (Option.some.inj afterwards).symm⟩
  intro q last
  obtain ⟨old, found, fits⟩ := Run.fits_of_mem_log _ _ (mem_of_lastWrite? last)
  rw [List.getElem?_map, before] at found
  obtain rfl := Option.some.inj found
  exact fits

/- All that a change can do: at most one payload is stored in the end, and it fits. A call
also clears the flag first. -/
theorem Change.outcome {t t' : Tensor} (change : Change t t') :
    ∃ p : Option Payload, (∀ q ∈ p, q.Fits t.elementType t.shape) ∧
      (t' = t.after p ∨ t' = t.beginCall.after p) := by
  cases change with
  | write _ p =>
    rcases t.attempt_cases p with ⟨fits, stored⟩ | ⟨-, same⟩
    · refine ⟨some p, ?_, .inl stored⟩
      intro q mem
      exact Option.some.inj mem ▸ fits
    · exact ⟨none, by simp, .inl same⟩
  | call x b place before afterwards =>
    obtain ⟨p, fits, outcome⟩ := exists_after_of_call x b before afterwards
    exact ⟨p, fits, .inr outcome⟩
  | callChecked x b place before afterwards =>
    rcases x.callChecked_outputs b with called | refused
    · rw [called] at afterwards
      obtain ⟨p, fits, outcome⟩ := exists_after_of_call x b before afterwards
      exact ⟨p, fits, .inr outcome⟩
    · rw [refused, before] at afterwards
      exact ⟨none, by simp, .inl (Option.some.inj afterwards).symm⟩

theorem Change.sound {t t' : Tensor} (change : Change t t') (h : t.Sound) : t'.Sound := by
  obtain ⟨p, fits, rfl | rfl⟩ := change.outcome
  · exact h.after fits
  · exact h.beginCall.after fits

theorem Change.keeps {t t' : Tensor} (change : Change t t') :
    t'.elementType = t.elementType ∧ t'.shape = t.shape := by
  obtain ⟨p, -, rfl | rfl⟩ := change.outcome
  · simp
  · simp [Tensor.beginCall]

theorem Becomes.sound {t t' : Tensor} (changes : t.Becomes t') (h : t.Sound) : t'.Sound := by
  induction changes with
  | refl => exact h
  | tail _ change ih => exact change.sound ih

theorem Becomes.keeps {t t' : Tensor} (changes : t.Becomes t') :
    t'.elementType = t.elementType ∧ t'.shape = t.shape := by
  induction changes with
  | refl => exact ⟨rfl, rfl⟩
  | tail _ change ih =>
    have last := change.keeps
    exact ⟨last.1.trans ih.1, last.2.trans ih.2⟩

theorem sound_ofValues {p : Payload} {t : Tensor} (h : ofValues p = .ok t) : t.Sound := by
  unfold ofValues at h
  split at h
  · next filled =>
    obtain ⟨n, count, length⟩ := Option.map_eq_some_iff.mp filled
    obtain ⟨counted, total⟩ := elementCount?_eq_some_iff.mp count
    obtain rfl := Except.ok.inj h
    have fits : p.Fits p.scalar.elementType (.static p.dims) :=
      ⟨rfl, PartialShape.static_admits p.dims, counted, length.symm.trans total⟩
    exact sound_holding fits.contents
  · cases h

theorem sound_ofBytes {e : ElementType} {bytes : List UInt8} {dims : List Length} {t : Tensor}
    (h : ofBytes e bytes dims = .ok t) : t.Sound := by
  obtain ⟨size, sized, rest⟩ := bind_eq_ok_iff.mp h
  obtain ⟨static, counted, total⟩ := byteSize_eq_ok_iff.mp sized
  split at rest
  · next filled =>
    obtain rfl := Except.ok.inj rest
    exact sound_holding ⟨static, PartialShape.static_admits dims, counted, filled.trans total⟩
  · cases rest

theorem sound_zeros {e : ElementType} {dims : List Length} {t : Tensor}
    (h : zeros e dims = .ok t) : t.Sound := by
  obtain ⟨size, sized, rest⟩ := bind_eq_ok_iff.mp h
  obtain ⟨static, counted, total⟩ := byteSize_eq_ok_iff.mp sized
  obtain rfl := Except.ok.inj rest
  refine sound_holding ⟨static, PartialShape.static_admits dims, counted, ?_⟩
  rw [List.length_replicate, total]

end Tensor

namespace Slot

theorem sound_zeroed {slot : Slot} {port : Port} {index : Nat} {dims : List Length} {t : Tensor}
    (h : slot.zeroed port index dims = .ok t) : t.Sound := by
  obtain ⟨_, -, zeros⟩ := bind_eq_ok_iff.mp h
  exact Tensor.sound_zeros (mapError_eq_ok_iff.mp zeros)

theorem sound_createInput {slot : Slot} {index : Nat} {t : Tensor}
    (h : slot.createInput index = .ok t) : t.Sound := by
  obtain ⟨dims, -, zeroed⟩ := bind_eq_ok_iff.mp h
  exact sound_zeroed zeroed

theorem sound_createOutput {slot : Slot} {index : Nat} {t : Tensor}
    (h : slot.createOutput index = .ok t) : t.Sound := by
  unfold createOutput at h
  split at h
  · cases h
  · split at h
    · exact sound_zeroed h
    · obtain rfl := Except.ok.inj h
      exact Tensor.sound_unallocated _ _

theorem sound_createOver {slot : Slot} {port : Port} {index : Nat} {memory : List UInt8}
    {t : Tensor} (h : slot.createOver port index memory = .ok t) : t.Sound := by
  obtain ⟨dims, -, rest⟩ := bind_eq_ok_iff.mp h
  obtain ⟨needed, -, rest⟩ := bind_eq_ok_iff.mp rest
  split at rest
  · exact Tensor.sound_ofBytes (mapError_eq_ok_iff.mp rest)
  · cases rest

end Slot

namespace Host

variable {σ : Type}

theorem sound_create {h : Host σ} {port : Port} {index : Nat} {t : Tensor}
    (made : h.create port index = .ok t) : t.Sound := by
  obtain ⟨slot, -, made⟩ := bind_eq_ok_iff.mp made
  cases port with
  | input => exact Slot.sound_createInput made
  | output => exact Slot.sound_createOutput made

theorem sound_createOver {h : Host σ} {port : Port} {index : Nat} {memory : List UInt8}
    {t : Tensor} (made : h.createOver port index memory = .ok t) : t.Sound := by
  obtain ⟨slot, -, made⟩ := bind_eq_ok_iff.mp made
  exact Slot.sound_createOver made

theorem create_of_createEach {h : Host σ} {port : Port} {index depth : Nat} {ts : List Tensor}
    (made : h.createEach port index depth = .ok ts) {t : Tensor} (mem : t ∈ ts) :
    h.create port index = .ok t := by
  unfold createEach at made
  split at made
  · cases made
  · exact (collect_eq_ok_iff.mp made).2 t mem

theorem createOver_of_createEachOver {h : Host σ} {port : Port} {index depth : Nat}
    {memory : List (List UInt8)} {ts : List Tensor}
    (made : h.createEachOver port index depth memory = .ok ts) {t : Tensor} (mem : t ∈ ts) :
    ∃ buffer ∈ memory, h.createOver port index buffer = .ok t := by
  unfold createEachOver at made
  split at made
  · cases made
  · split at made
    · cases made
    · exact exists_of_mem_mapM made mem

end Host

namespace Tensor

theorem Made.sound {t : Tensor} (made : Made t) : t.Sound := by
  induction made with
  | ofValues h => exact sound_ofValues h
  | ofBytes h => exact sound_ofBytes h
  | zeros h => exact sound_zeros h
  | unallocated e s => exact sound_unallocated e s
  | created h => exact Host.sound_create h
  | createdOver h => exact Host.sound_createOver h
  | createdEach h mem => exact Host.sound_create (Host.create_of_createEach h mem)
  | createdEachOver h mem =>
    obtain ⟨buffer, -, made⟩ := Host.createOver_of_createEachOver h mem
    exact Host.sound_createOver made
  | copied _ changes ih => exact changes.sound ih

theorem Sound.elementCount? {t : Tensor} (h : t.Sound) {c : Contents} (mem : c ∈ t.contents) :
    elementCount? c.dims = some t.length := by
  obtain ⟨n, count⟩ := exists_elementCount? (h.fits c mem).counted
  rw [length_of_contents mem count, count]

/-- What a tensor holds fits it: the type is static, the lengths are admitted and their
products never leave the words, so that the length of the tensor is the number of its
elements; and type and shape are those it was made with. -/
theorem sound_of_becomes {t₀ t : Tensor} (made : Made t₀) (changes : t₀.Becomes t) :
    (∀ c ∈ t.contents, t.elementType.IsStatic ∧ t.shape.Admits c.dims ∧
      c.bytes.length = product c.dims * t.elementType.size ∧
      (∀ k, product (c.dims.take k) < UInt64.size) ∧
      t.length.toNat = product c.dims ∧ TensorCall.elementCount? c.dims = some t.length) ∧
    (t.written = true → t.isAllocated = true) ∧
    (t.elementType = .dynamic → t.contents = none) ∧
    t.elementType = t₀.elementType ∧ t.shape = t₀.shape := by
  have sound : t.Sound := changes.sound made.sound
  refine ⟨?_, sound.held, ?_, changes.keeps⟩
  · intro c mem
    have fits := sound.fits c mem
    have count := sound.elementCount? mem
    exact ⟨fits.typed, fits.admitted, fits.filled, fits.counted,
      (elementCount?_eq_some_iff.mp count).2, count⟩
  · intro dynamic
    cases held : t.contents with
    | none => rfl
    | some c => exact absurd dynamic (sound.fits c held).typed

theorem sound_of_becomes_filled :
    let t₀ : Tensor := .unallocated .u8 (.ranked [.unknown])
    let filled : Tensor := ⟨.u8, .ranked [.unknown], some ⟨[7, 8], [2]⟩, true⟩
    Made t₀ ∧ t₀.Becomes filled ∧ filled.length.toNat = product [2] := by
  intro t₀ filled
  let script : Script := [[.write 0 ⟨.u8, [7, 8], [2]⟩]]
  let h : Host Nat := ⟨"f", .empty, 2, script.kernel, 0⟩
  have made : Made t₀ := .unallocated _ _
  have becomes : t₀.Becomes filled := .single (.call h ⟨[], [t₀]⟩ 0 rfl rfl)
  exact ⟨made, becomes, ((sound_of_becomes made becomes).1 _ rfl).2.2.2.2.1⟩

end Tensor

end TensorCall
