import Mathlib
import TensorCall.Proofs.ElementCount
import TensorCall.Proofs.Provision

namespace TensorCall

namespace Tensor

variable {e : ElementType} {dims : List Length} {size : Length}

theorem zeros_of_byteSize (sized : byteSize e dims = .ok size) :
    zeros e dims = .ok (holding e ⟨List.replicate size.toNat 0, dims⟩) := by
  simp only [zeros, sized]
  rfl

theorem ofBytes_of_byteSize (sized : byteSize e dims = .ok size) {bytes : List UInt8}
    (filled : bytes.length = size.toNat) :
    ofBytes e bytes dims = .ok (holding e ⟨bytes, dims⟩) := by
  simp only [ofBytes, sized]
  exact if_pos filled

end Tensor

namespace Slot

/-- The declared type and shape are static, and the elements take so many bytes, with no product
on the way that leaves the words. -/
structure Takes (slot : Slot) (dims : List Length) (size : Length) : Prop where
  typed : slot.elementType.IsStatic
  shape : slot.shape = .static dims
  counted : Counted dims
  sized : size.toNat = product dims * slot.elementType.size

/-- The first reason why no bytes can be allocated for the slot. -/
inductive Unallocatable (slot : Slot) (port : Port) (index : Nat) : AllocationFault → Prop where
  | openType : ¬ slot.elementType.IsStatic → Unallocatable slot port index (.openType port index)
  | openShape : slot.elementType.IsStatic → ¬ slot.shape.IsStatic →
      Unallocatable slot port index (.openShape port index slot.shape)
  | unsized {dims : List Length} : slot.elementType.IsStatic → slot.shape = .static dims →
      (∀ size, ¬ slot.Takes dims size) →
      Unallocatable slot port index (.unsized port index (.sizeOverflow dims))

/-- An output is created without contents. -/
structure Waits (slot : Slot) (port : Port) : Prop where
  output : port = .output
  typed : slot.elementType.IsStatic
  shape : ¬ slot.shape.IsStatic

def zeroTensor (slot : Slot) (dims : List Length) (size : Length) : Tensor :=
  .holding slot.elementType ⟨List.replicate size.toNat 0, dims⟩

def create (slot : Slot) : Port → Nat → Except Error Tensor
  | .input, index => slot.createInput index
  | .output, index => slot.createOutput index

variable {slot : Slot} {port : Port} {index : Nat} {dims dims' : List Length} {size size' : Length}
  {fault : AllocationFault} {memory : List UInt8} {t : Tensor} {e : Error}

theorem takes_iff : slot.Takes dims size ↔
    slot.shape = .static dims ∧ byteSize slot.elementType dims = .ok size := by
  rw [byteSize_eq_ok_iff]
  exact ⟨fun h => ⟨h.shape, h.typed, h.counted, h.sized⟩,
    fun ⟨shape, typed, counted, sized⟩ => ⟨typed, shape, counted, sized⟩⟩

theorem Takes.byteSize (h : slot.Takes dims size) : byteSize slot.elementType dims = .ok size :=
  (takes_iff.mp h).2

theorem Takes.static (h : slot.Takes dims size) : slot.shape.IsStatic :=
  PartialShape.isStatic_iff.mpr ⟨dims, h.shape⟩

theorem Takes.unique (h : slot.Takes dims size) (h' : slot.Takes dims' size') :
    dims' = dims ∧ size' = size := by
  obtain rfl := PartialShape.static_injective (h'.shape.symm.trans h.shape)
  exact ⟨rfl, Except.ok.inj (h'.byteSize.symm.trans h.byteSize)⟩

theorem takes_or_unallocatable (slot : Slot) (port : Port) (index : Nat) :
    (∃ dims size, slot.Takes dims size) ∨ ∃ fault, slot.Unallocatable port index fault := by
  by_cases typed : slot.elementType.IsStatic
  · by_cases static : slot.shape.IsStatic
    · obtain ⟨dims, shape⟩ := PartialShape.isStatic_iff.mp static
      by_cases sized : ∃ size, slot.Takes dims size
      · exact .inl ⟨dims, sized⟩
      · exact .inr ⟨_, .unsized typed shape (not_exists.mp sized)⟩
    · exact .inr ⟨_, .openShape typed static⟩
  · exact .inr ⟨_, .openType typed⟩

theorem Takes.allocatedSize (h : slot.Takes dims size) :
    slot.allocatedSize port index dims = .ok size := by
  simp only [Slot.allocatedSize, h.byteSize]
  rfl

theorem Takes.bind (h : slot.Takes dims size) {α : Type}
    (f : List Length → Length → Except Error α) :
    (slot.allocatedDims port index >>= fun dims =>
      slot.allocatedSize port index dims >>= f dims) = f dims size := by
  simp only [Slot.allocatedDims, if_neg (not_not.mpr h.typed),
    PartialShape.lengths?_eq_some_iff.mpr h.shape]
  change (slot.allocatedSize port index dims >>= _) = _
  simp only [h.allocatedSize]
  rfl

theorem Takes.zeros (h : slot.Takes dims size) :
    (Tensor.zeros slot.elementType dims).mapError Error.tensor =
      .ok (slot.zeroTensor dims size) := by
  simp only [Tensor.zeros_of_byteSize h.byteSize]
  rfl

theorem Takes.create (h : slot.Takes dims size) :
    slot.create port index = .ok (slot.zeroTensor dims size) := by
  cases port with
  | input => exact (h.bind _).trans h.zeros
  | output =>
    simp only [Slot.create, createOutput, if_neg (not_not.mpr h.typed),
      PartialShape.lengths?_eq_some_iff.mpr h.shape, zeroed, h.allocatedSize]
    exact h.zeros

theorem Takes.createOver (h : slot.Takes dims size) (memory : List UInt8) :
    slot.createOver port index memory =
      if memory.length = size.toNat then .ok (.holding slot.elementType ⟨memory, dims⟩)
      else .error (.allocation (.byteCount port index size memory.length)) := by
  apply (h.bind _).trans
  split
  · next filled =>
    simp only [Tensor.ofBytes_of_byteSize h.byteSize filled]
    rfl
  · rfl

theorem allocatedSize_eq_error (typed : slot.elementType.IsStatic)
    (shape : slot.shape = .static dims) (none : ∀ size, ¬ slot.Takes dims size) :
    slot.allocatedSize port index dims =
      .error (.allocation (.unsized port index (.sizeOverflow dims))) := by
  cases counted : TensorCall.byteSize slot.elementType dims with
  | ok size => exact absurd (takes_iff.mpr ⟨shape, counted⟩) (none size)
  | error fault =>
    obtain rfl := byteSize_fault typed counted
    simp only [allocatedSize, counted]
    rfl

theorem Unallocatable.bind (h : slot.Unallocatable port index fault) {α : Type}
    (f : List Length → Length → Except Error α) :
    (slot.allocatedDims port index >>= fun dims =>
      slot.allocatedSize port index dims >>= f dims) = .error (.allocation fault) := by
  cases h with
  | openType other =>
    simp only [Slot.allocatedDims, if_pos other]
    rfl
  | openShape typed other =>
    simp only [Slot.allocatedDims, if_neg (not_not.mpr typed),
      PartialShape.lengths?_eq_none_iff.mpr other]
    rfl
  | unsized typed shape none =>
    simp only [Slot.allocatedDims, if_neg (not_not.mpr typed),
      PartialShape.lengths?_eq_some_iff.mpr shape]
    change (slot.allocatedSize _ _ _ >>= _) = _
    simp only [allocatedSize_eq_error typed shape none]
    rfl

theorem Unallocatable.createOver (h : slot.Unallocatable port index fault) (memory : List UInt8) :
    slot.createOver port index memory = .error (.allocation fault) :=
  h.bind _

theorem Unallocatable.create (h : slot.Unallocatable port index fault) (given : ¬ slot.Waits port) :
    slot.create port index = .error (.allocation fault) := by
  cases port with
  | input => exact h.bind _
  | output =>
    cases h with
    | openType other => simp [Slot.create, createOutput, other]
    | openShape typed other => exact absurd ⟨rfl, typed, other⟩ given
    | unsized typed shape none =>
      simp only [Slot.create, createOutput, if_neg (not_not.mpr typed),
        PartialShape.lengths?_eq_some_iff.mpr shape, zeroed,
        allocatedSize_eq_error typed shape none]
      rfl

theorem Waits.create (h : slot.Waits port) (index : Nat) :
    slot.create port index = .ok (.unallocated slot.elementType slot.shape) := by
  obtain ⟨rfl, typed, shape⟩ := h
  simp [Slot.create, createOutput, typed, PartialShape.lengths?_eq_none_iff.mpr shape]

theorem createOver_cases (slot : Slot) (port : Port) (index : Nat) (memory : List UInt8) :
    (∃ dims size, slot.Takes dims size ∧ memory.length = size.toNat ∧
      slot.createOver port index memory = .ok (.holding slot.elementType ⟨memory, dims⟩)) ∨
    (∃ dims size, slot.Takes dims size ∧ memory.length ≠ size.toNat ∧
      slot.createOver port index memory =
        .error (.allocation (.byteCount port index size memory.length))) ∨
    ∃ fault, slot.Unallocatable port index fault ∧
      slot.createOver port index memory = .error (.allocation fault) := by
  rcases slot.takes_or_unallocatable port index with ⟨dims, size, takes⟩ | ⟨fault, refused⟩
  · by_cases filled : memory.length = size.toNat
    · exact .inl ⟨dims, size, takes, filled, (takes.createOver memory).trans (if_pos filled)⟩
    · exact .inr (.inl ⟨dims, size, takes, filled,
        (takes.createOver memory).trans (if_neg filled)⟩)
  · exact .inr (.inr ⟨fault, refused, refused.createOver memory⟩)

theorem createOver_eq_ok_iff : slot.createOver port index memory = .ok t ↔
    ∃ dims size, slot.Takes dims size ∧ memory.length = size.toNat ∧
      t = .holding slot.elementType ⟨memory, dims⟩ := by
  constructor
  · intro made
    rcases slot.createOver_cases port index memory with
      ⟨dims, size, takes, filled, done⟩ | ⟨_, _, _, _, failed⟩ | ⟨_, _, failed⟩
    · cases done.symm.trans made
      exact ⟨dims, size, takes, filled, rfl⟩
    · cases failed.symm.trans made
    · cases failed.symm.trans made
  · rintro ⟨dims, size, takes, filled, rfl⟩
    exact (takes.createOver memory).trans (if_pos filled)

theorem createOver_eq_error_iff : slot.createOver port index memory = .error e ↔
    ∃ fault, e = .allocation fault ∧ (slot.Unallocatable port index fault ∨
      ∃ dims size, slot.Takes dims size ∧ memory.length ≠ size.toNat ∧
        fault = .byteCount port index size memory.length) := by
  constructor
  · intro refused
    rcases slot.createOver_cases port index memory with
      ⟨_, _, _, _, done⟩ | ⟨dims, size, takes, other, failed⟩ | ⟨fault, reason, failed⟩
    · cases done.symm.trans refused
    · cases failed.symm.trans refused
      exact ⟨_, rfl, .inr ⟨dims, size, takes, other, rfl⟩⟩
    · cases failed.symm.trans refused
      exact ⟨fault, rfl, .inl reason⟩
  · rintro ⟨fault, rfl, reason | ⟨dims, size, takes, other, rfl⟩⟩
    · exact reason.createOver memory
    · exact (takes.createOver memory).trans (if_neg other)

theorem create_cases (slot : Slot) (port : Port) (index : Nat) :
    (∃ dims size, slot.Takes dims size ∧
      slot.create port index = .ok (slot.zeroTensor dims size)) ∨
    (slot.Waits port ∧
      slot.create port index = .ok (.unallocated slot.elementType slot.shape)) ∨
    ∃ fault, ¬ slot.Waits port ∧ slot.Unallocatable port index fault ∧
      slot.create port index = .error (.allocation fault) := by
  rcases slot.takes_or_unallocatable port index with ⟨dims, size, takes⟩ | ⟨fault, refused⟩
  · exact .inl ⟨dims, size, takes, takes.create⟩
  · by_cases waits : slot.Waits port
    · exact .inr (.inl ⟨waits, waits.create index⟩)
    · exact .inr (.inr ⟨fault, waits, refused, refused.create waits⟩)

theorem create_eq_ok_iff : slot.create port index = .ok t ↔
    (∃ dims size, slot.Takes dims size ∧ t = slot.zeroTensor dims size) ∨
      slot.Waits port ∧ t = .unallocated slot.elementType slot.shape := by
  constructor
  · intro made
    rcases slot.create_cases port index with
      ⟨dims, size, takes, done⟩ | ⟨waits, done⟩ | ⟨_, _, _, failed⟩
    · cases done.symm.trans made
      exact .inl ⟨dims, size, takes, rfl⟩
    · cases done.symm.trans made
      exact .inr ⟨waits, rfl⟩
    · cases failed.symm.trans made
  · rintro (⟨dims, size, takes, rfl⟩ | ⟨waits, rfl⟩)
    · exact takes.create
    · exact waits.create index

theorem create_eq_error_iff : slot.create port index = .error e ↔
    ¬ slot.Waits port ∧ ∃ fault, slot.Unallocatable port index fault ∧ e = .allocation fault := by
  constructor
  · intro refused
    rcases slot.create_cases port index with
      ⟨_, _, _, done⟩ | ⟨_, done⟩ | ⟨fault, given, reason, failed⟩
    · cases done.symm.trans refused
    · cases done.symm.trans refused
    · cases failed.symm.trans refused
      exact ⟨given, fault, reason, rfl⟩
  · rintro ⟨given, fault, reason, rfl⟩
    exact reason.create given

end Slot

namespace Host

variable {σ : Type} {h : Host σ} {port : Port} {index : Nat} {memory : List UInt8} {t : Tensor}
  {e : Error}

theorem create_eq (h : Host σ) (port : Port) (index : Nat) :
    h.create port index = h.signature.slotAt port index >>= fun slot => slot.create port index := by
  cases port <;> rfl

theorem create_eq_ok_iff : h.create port index = .ok t ↔
    ∃ slot, (h.signature.slots port)[index]? = some slot ∧ slot.create port index = .ok t := by
  simp only [create_eq, bind_eq_ok_iff, Signature.slotAt_eq_ok_iff]

theorem createOver_eq_ok_iff : h.createOver port index memory = .ok t ↔
    ∃ slot, (h.signature.slots port)[index]? = some slot ∧
      slot.createOver port index memory = .ok t := by
  simp only [createOver, bind_eq_ok_iff, Signature.slotAt_eq_ok_iff]

theorem create_eq_error_iff : h.create port index = .error e ↔
    ((h.signature.slots port).length ≤ index ∧
      e = .indexOutOfRange port index (h.signature.slots port).length) ∨
    ∃ slot, (h.signature.slots port)[index]? = some slot ∧ slot.create port index = .error e := by
  simp only [create_eq, bind_eq_error_iff, Signature.slotAt_eq_ok_iff,
    Signature.slotAt_eq_error_iff]

theorem createOver_eq_error_iff : h.createOver port index memory = .error e ↔
    ((h.signature.slots port).length ≤ index ∧
      e = .indexOutOfRange port index (h.signature.slots port).length) ∨
    ∃ slot, (h.signature.slots port)[index]? = some slot ∧
      slot.createOver port index memory = .error e := by
  simp only [createOver, bind_eq_error_iff, Signature.slotAt_eq_ok_iff,
    Signature.slotAt_eq_error_iff]

theorem exists_createOver_iff : (∃ t, h.createOver port index memory = .ok t) ↔
    ∃ slot dims size, (h.signature.slots port)[index]? = some slot ∧ slot.Takes dims size ∧
      memory.length = size.toNat := by
  simp only [createOver_eq_ok_iff, Slot.createOver_eq_ok_iff]
  constructor
  · rintro ⟨_, slot, declared, dims, size, takes, filled, -⟩
    exact ⟨slot, dims, size, declared, takes, filled⟩
  · rintro ⟨slot, dims, size, declared, takes, filled⟩
    exact ⟨_, slot, declared, dims, size, takes, filled, rfl⟩

theorem create_eq_zeroTensor_iff (static : ∀ slot, (h.signature.slots port)[index]? = some slot →
    port = .output → slot.shape.IsStatic) :
    h.create port index = .ok t ↔ ∃ slot dims size, (h.signature.slots port)[index]? = some slot ∧
      slot.Takes dims size ∧ t = slot.zeroTensor dims size := by
  simp only [create_eq_ok_iff, Slot.create_eq_ok_iff]
  constructor
  · rintro ⟨slot, declared, ⟨dims, size, takes, rfl⟩ | ⟨waits, -⟩⟩
    · exact ⟨slot, dims, size, declared, takes, rfl⟩
    · exact absurd (static slot declared waits.output) waits.shape
  · rintro ⟨slot, dims, size, declared, takes, rfl⟩
    exact ⟨slot, declared, .inl ⟨dims, size, takes, rfl⟩⟩

theorem createOver_zeros {slot : Slot} {dims : List Length} {size : Length}
    (declared : (h.signature.slots port)[index]? = some slot) (takes : slot.Takes dims size)
    (made : h.createOver port index memory = .ok t) :
    h.createOver port index (List.replicate memory.length 0) =
      .ok (slot.zeroTensor dims size) := by
  obtain ⟨slot', dims', size', declared', takes', filled⟩ := exists_createOver_iff.mp ⟨t, made⟩
  cases declared.symm.trans declared'
  obtain ⟨rfl, rfl⟩ := takes.unique takes'
  apply createOver_eq_ok_iff.mpr
  refine ⟨slot, declared, Slot.createOver_eq_ok_iff.mpr ⟨_, _, takes, ?_, ?_⟩⟩
  · simp [filled]
  · simp [filled, Slot.zeroTensor]

theorem create_eq_unallocated_iff {slot : Slot}
    (declared : (h.signature.slots port)[index]? = some slot) (output : port = .output)
    (other : ¬ slot.shape.IsStatic) : h.create port index = .ok t ↔
      slot.elementType.IsStatic ∧ t = .unallocated slot.elementType slot.shape := by
  simp only [create_eq_ok_iff, Slot.create_eq_ok_iff, declared, Option.some.injEq, exists_eq_left']
  constructor
  · rintro (⟨dims, size, takes, -⟩ | ⟨waits, same⟩)
    · exact absurd takes.static other
    · exact ⟨waits.typed, same⟩
  · rintro ⟨typed, same⟩
    exact .inr ⟨⟨output, typed, other⟩, same⟩

theorem allocation_of_create (below : index < (h.signature.slots port).length)
    (failed : h.create port index = .error e) : ∃ fault, e = .allocation fault := by
  rcases create_eq_error_iff.mp failed with ⟨beyond, -⟩ | ⟨slot, -, failed⟩
  · omega
  · obtain ⟨-, fault, -, same⟩ := Slot.create_eq_error_iff.mp failed
    exact ⟨fault, same⟩

theorem allocation_of_createOver (below : index < (h.signature.slots port).length)
    (failed : h.createOver port index memory = .error e) : ∃ fault, e = .allocation fault := by
  rcases createOver_eq_error_iff.mp failed with ⟨beyond, -⟩ | ⟨slot, -, failed⟩
  · omega
  · obtain ⟨fault, same, -⟩ := Slot.createOver_eq_error_iff.mp failed
    exact ⟨fault, same⟩

/-- The ways to create one tensor for a slot agree: a static type, a static shape and a countable
size are needed, and the caller's bytes have to be just as many. An output of no static shape has
no contents. What fails is an index out of range, or else an allocation. -/
theorem created_alike (h : Host σ) (port : Port) (index : Nat) :
    (∀ memory, (∃ t, h.createOver port index memory = .ok t) ↔
      ∃ slot dims size, (h.signature.slots port)[index]? = some slot ∧ slot.Takes dims size ∧
        memory.length = size.toNat) ∧
    ((∀ slot, (h.signature.slots port)[index]? = some slot → port = .output →
        slot.shape.IsStatic) →
      ((∃ t, h.create port index = .ok t) ↔ ∃ memory t, h.createOver port index memory = .ok t) ∧
      ∀ t, h.create port index = .ok t → ∀ memory t', h.createOver port index memory = .ok t' →
        h.createOver port index (List.replicate memory.length 0) = .ok t) ∧
    (∀ slot, (h.signature.slots port)[index]? = some slot → port = .output →
      ¬ slot.shape.IsStatic →
        (∀ t, h.create port index = .ok t ↔
          slot.elementType.IsStatic ∧ t = .unallocated slot.elementType slot.shape) ∧
        ∀ memory t, h.createOver port index memory ≠ .ok t) ∧
    ((h.signature.slots port).length ≤ index →
      h.create port index =
        .error (.indexOutOfRange port index (h.signature.slots port).length) ∧
      ∀ memory, h.createOver port index memory =
        .error (.indexOutOfRange port index (h.signature.slots port).length)) ∧
    (index < (h.signature.slots port).length → ∀ e,
      (h.create port index = .error e ∨ ∃ memory, h.createOver port index memory = .error e) →
        ∃ fault, e = .allocation fault) := by
  refine ⟨fun memory => exists_createOver_iff, ?_, ?_, ?_, ?_⟩
  · intro static
    constructor
    · constructor
      · rintro ⟨t, made⟩
        obtain ⟨slot, dims, size, declared, takes, -⟩ := (create_eq_zeroTensor_iff static).mp made
        -- any bytes of the right number would do
        refine ⟨List.replicate size.toNat 0, exists_createOver_iff.mpr ?_⟩
        exact ⟨slot, dims, size, declared, takes, List.length_replicate⟩
      · rintro ⟨memory, filled⟩
        obtain ⟨slot, dims, size, declared, takes, -⟩ := exists_createOver_iff.mp filled
        exact ⟨_, (create_eq_zeroTensor_iff static).mpr ⟨slot, dims, size, declared, takes, rfl⟩⟩
    · intro t made memory t' filled
      obtain ⟨slot, dims, size, declared, takes, rfl⟩ := (create_eq_zeroTensor_iff static).mp made
      exact createOver_zeros declared takes filled
  · intro slot declared output other
    constructor
    · exact fun t => create_eq_unallocated_iff declared output other
    · intro memory t made
      obtain ⟨slot', dims, size, declared', takes, -⟩ := exists_createOver_iff.mp ⟨t, made⟩
      cases declared.symm.trans declared'
      exact other takes.static
  · intro beyond
    exact ⟨create_eq_error_iff.mpr (.inl ⟨beyond, rfl⟩),
      fun memory => createOver_eq_error_iff.mpr (.inl ⟨beyond, rfl⟩)⟩
  · rintro below e (failed | ⟨memory, failed⟩)
    · exact allocation_of_create below failed
    · exact allocation_of_createOver below failed

/- An input of two elements, and an output of as many as there will be. -/
theorem created_alike_ports :
    let y : PartialShape := .ranked [.unknown]
    let h : Host Unit := ⟨"f", ⟨[⟨"x", .f32, .static [2]⟩], [⟨"y", .f32, y⟩]⟩, 2,
      fun _ _ => .finish () (.ok ()), ()⟩
    (∃ t, h.create .input 0 = .ok t ∧ h.createOver .input 0 (List.replicate 8 0) = .ok t) ∧
      h.create .output 0 = .ok (.unallocated .f32 y) ∧
      (∀ memory t, h.createOver .output 0 memory ≠ .ok t) ∧
      (∃ fault, h.createOver .input 0 [0, 0, 0, 0] = .error (.allocation fault)) ∧
      h.create .output 1 = .error (.indexOutOfRange .output 1 1) := by
  intro y h
  obtain ⟨accepted, alike, -, -, allocation⟩ := created_alike h .input 0
  obtain ⟨-, -, waits, -, -⟩ := created_alike h .output 0
  obtain ⟨-, -, -, beyond, -⟩ := created_alike h .output 1
  have takes : Slot.Takes ⟨"x", .f32, .static [2]⟩ [2] 8 := Slot.takes_iff.mpr ⟨rfl, rfl⟩
  obtain ⟨t', filled⟩ := (accepted (List.replicate 8 1)).mpr ⟨_, _, _, rfl, takes, rfl⟩
  obtain ⟨same, zeros⟩ := alike fun _ _ => nofun
  obtain ⟨t, made⟩ := same.mpr ⟨_, t', filled⟩
  obtain ⟨deferred, refused⟩ := waits ⟨"y", .f32, y⟩ rfl rfl (by decide)
  refine ⟨⟨t, made, zeros t made _ t' filled⟩, ?_, refused, ?_, (beyond (by decide)).1⟩
  · exact (deferred _).mpr ⟨by decide, rfl⟩
  · cases short : h.createOver .input 0 [0, 0, 0, 0] with
    | ok _ => cases short
    | error e =>
      obtain ⟨fault, rfl⟩ := allocation (by decide) e (.inr ⟨_, short⟩)
      exact ⟨fault, rfl⟩

end Host

end TensorCall
