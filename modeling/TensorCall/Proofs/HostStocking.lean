import Mathlib
import TensorCall.Proofs.Batches
import TensorCall.Proofs.Creation
import TensorCall.Proofs.Stocking

namespace TensorCall

theorem forall_lt_getElem?_iff {α : Type} {as : List α} {n : Nat} (within : n ≤ as.length)
    {P : α → Prop} : (∀ i < n, ∃ a, as[i]? = some a ∧ P a) ↔ ∀ a ∈ as.take n, P a := by
  constructor
  · intro all a mem
    obtain ⟨i, below, rfl⟩ := List.mem_take_iff_getElem.mp mem
    obtain ⟨a, found, holds⟩ := all i (by omega)
    simp only [List.getElem?_eq_getElem (show i < as.length by omega), Option.some.injEq] at found
    exact found ▸ holds
  · intro all i below
    have inside : i < as.length := by omega
    refine ⟨as[i], List.getElem?_eq_getElem inside, all _ ?_⟩
    exact List.mem_take_iff_getElem.mpr ⟨i, by omega, rfl⟩

namespace Slot

def Creatable (slot : Slot) (port : Port) : Prop :=
  (∃ dims size, slot.Takes dims size) ∨ slot.Waits port

variable {slot : Slot} {port : Port}

theorem exists_create_iff (index : Nat) :
    (∃ t, slot.create port index = .ok t) ↔ slot.Creatable port := by
  simp only [create_eq_ok_iff, Creatable]
  constructor
  · rintro ⟨t, ⟨dims, size, takes, -⟩ | ⟨waits, -⟩⟩
    · exact .inl ⟨dims, size, takes⟩
    · exact .inr waits
  · rintro (⟨dims, size, takes⟩ | waits)
    · exact ⟨_, .inl ⟨dims, size, takes, rfl⟩⟩
    · exact ⟨_, .inr ⟨waits, rfl⟩⟩

theorem creatable_input_iff : slot.Creatable .input ↔ ∃ dims size, slot.Takes dims size := by
  apply or_iff_left
  rintro ⟨⟨⟩, -, -⟩

theorem creatable_output_iff : slot.Creatable .output ↔ slot.elementType.IsStatic ∧
    (¬ slot.shape.IsStatic ∨ ∃ dims size, slot.Takes dims size) := by
  constructor
  · rintro (⟨dims, size, takes⟩ | waits)
    · exact ⟨takes.typed, .inr ⟨dims, size, takes⟩⟩
    · exact ⟨waits.typed, .inl waits.shape⟩
  · rintro ⟨typed, other | takes⟩
    · exact .inr ⟨rfl, typed, other⟩
    · exact .inl takes

end Slot

/-- The slot is the first that no tensor can be created for, parameters before results, and this is
what is wrong with it. -/
structure Signature.FirstRefused (s : Signature) (port : Port) (index : Nat)
    (fault : AllocationFault) : Prop where
  refused : ∃ slot, (s.slots port)[index]? = some slot ∧ ¬ slot.Waits port ∧
    slot.Unallocatable port index fault
  inputs : port = .output → ∀ slot ∈ s.parameters, slot.Creatable .input
  earlier : ∀ slot ∈ (s.slots port).take index, slot.Creatable port

namespace Host

variable {σ : Type} {h : Host σ} {port : Port} {depth index : Nat} {e : Error}

theorem exists_create_iff : (∃ t, h.create port index = .ok t) ↔
    ∃ slot, (h.signature.slots port)[index]? = some slot ∧ slot.Creatable port := by
  simp only [create_eq_ok_iff, ← Slot.exists_create_iff index]
  exact ⟨fun ⟨t, slot, declared, made⟩ => ⟨slot, declared, t, made⟩,
    fun ⟨slot, declared, t, made⟩ => ⟨t, slot, declared, made⟩⟩

theorem exists_creates_iff (positive : 1 ≤ depth) :
    (∃ column, Pipeline.Creates h port depth index column) ↔
      ∃ slot, (h.signature.slots port)[index]? = some slot ∧ slot.Creatable port := by
  have nonzero : depth ≠ 0 := Nat.one_le_iff_ne_zero.mp positive
  rw [← exists_create_iff]
  constructor
  · rintro ⟨column, made, -⟩
    obtain ⟨t, single, -⟩ := (createEach_eq_ok_iff nonzero).mp made
    exact ⟨t, single⟩
  · rintro ⟨t, single⟩
    have made := (createEach_eq_ok_iff nonzero).mpr ⟨t, single, rfl⟩
    exact ⟨_, made, List.length_replicate⟩

theorem fails_iff (positive : 1 ≤ depth) :
    Pipeline.Fails h port depth index e ↔ h.create port index = .error e := by
  have nonzero : depth ≠ 0 := Nat.one_le_iff_ne_zero.mp positive
  constructor
  · rintro (failed | ⟨made, other⟩)
    · exact (createEach_eq_error_iff nonzero).mp failed
    · obtain ⟨t, -, rfl⟩ := (createEach_eq_ok_iff nonzero).mp made
      exact absurd List.length_replicate other
  · intro failed
    exact .refused ((createEach_eq_error_iff nonzero).mpr failed)

theorem forall_creates_iff (h : Host σ) (port : Port) (positive : 1 ≤ depth) {n : Nat}
    (within : n ≤ (h.signature.slots port).length) :
    (∀ i < n, ∃ column, Pipeline.Creates h port depth i column) ↔
      ∀ slot ∈ (h.signature.slots port).take n, slot.Creatable port := by
  simp only [exists_creates_iff positive]
  exact forall_lt_getElem?_iff within

theorem forall_declared_creates_iff (h : Host σ) (port : Port) (positive : 1 ≤ depth) :
    (∀ i < (h.signature.slots port).length, ∃ column, Pipeline.Creates h port depth i column) ↔
      ∀ slot ∈ h.signature.slots port, slot.Creatable port := by
  simpa only [List.take_length] using forall_creates_iff h port positive le_rfl

theorem exists_pipeline_iff {id : Nat} :
    (∃ p, Pipeline.create id h depth = .ok p) ↔
      1 ≤ depth ∧ ∀ port, ∀ slot ∈ h.signature.slots port, slot.Creatable port := by
  apply Pipeline.exists_create_iff.trans
  refine and_congr_right fun positive => forall_congr' fun port => ?_
  exact forall_declared_creates_iff h port positive

theorem firstFails_iff (positive : 1 ≤ depth) :
    Pipeline.FirstFails h depth port index e ↔
      ∃ fault, h.signature.FirstRefused port index fault ∧ e = .allocation fault := by
  constructor
  · rintro ⟨declared, failed, before, earlier⟩
    have inputs := fun output => (forall_declared_creates_iff h .input positive).mp (before output)
    have earlier := (forall_creates_iff h port positive (Nat.le_of_lt declared)).mp earlier
    have single := create_eq_error_iff.mp ((fails_iff positive).mp failed)
    rcases single with ⟨beyond, -⟩ | ⟨slot, found, failed⟩
    · exact absurd declared (Nat.not_lt_of_le beyond)
    · obtain ⟨given, fault, refused, same⟩ := Slot.create_eq_error_iff.mp failed
      exact ⟨fault, ⟨⟨slot, found, given, refused⟩, inputs, earlier⟩, same⟩
  · rintro ⟨fault, ⟨⟨slot, found, given, refused⟩, before, earlier⟩, rfl⟩
    obtain ⟨declared, -⟩ := List.getElem?_eq_some_iff.mp found
    have inputs := fun output => (forall_declared_creates_iff h .input positive).mpr (before output)
    have earlier := (forall_creates_iff h port positive (Nat.le_of_lt declared)).mpr earlier
    have failed := Slot.create_eq_error_iff.mpr ⟨given, fault, refused, rfl⟩
    have here := create_eq_error_iff.mpr (.inr ⟨slot, found, failed⟩)
    exact ⟨declared, (fails_iff positive).mpr here, inputs, earlier⟩

theorem create_pipeline_eq_error_iff {id : Nat} (positive : 1 ≤ depth) :
    Pipeline.create id h depth = .error e ↔
      ∃ port index fault, h.signature.FirstRefused port index fault ∧ e = .allocation fault := by
  simp only [Pipeline.create_eq_error_iff positive, firstFails_iff positive]

theorem signature_foldl_bind (fs : List CompiledFunction) (h : Host σ) :
    (fs.foldl bind h).signature = (fs.map CompiledFunction.signature).getLastD h.signature := by
  induction fs generalizing h with
  | nil => rfl
  | cons f fs ih =>
    simp only [List.foldl_cons, ih, List.map_cons, List.getLastD_cons]
    rfl

theorem depth_foldl_bind (fs : List CompiledFunction) (h : Host σ) :
    (fs.foldl bind h).depth = h.depth := by
  induction fs generalizing h with
  | nil => rfl
  | cons f fs ih => exact ih (h.bind f)

/-- The function bound last has a pipeline of one set or more exactly if every parameter takes bytes
that can be counted, and every result takes such bytes or has a static type and an open shape.
Otherwise the allocation of the first slot in the way fails. -/
theorem pipeline_of_declared {c : HostConfig σ} {h₀ : Host σ} (built : c.build = .ok h₀)
    (fs : List CompiledFunction) (id depth : Nat) :
    let h := fs.foldl Host.bind h₀
    let s := (fs.map CompiledFunction.signature).getLastD c.function.signature
    ((∃ p, Pipeline.create id h depth = .ok p) ↔
      1 ≤ depth ∧ (∀ slot ∈ s.parameters, ∃ dims size, slot.Takes dims size) ∧
        ∀ slot ∈ s.results, slot.elementType.IsStatic ∧
          (¬ slot.shape.IsStatic ∨ ∃ dims size, slot.Takes dims size)) ∧
    (1 ≤ depth → ∀ e, Pipeline.create id h depth = .error e ↔
      ∃ port index fault, s.FirstRefused port index fault ∧ e = .allocation fault) ∧
    ∀ fault, Pipeline.createPreferred id h ≠ .error (.pipeline fault) := by
  intro h s
  obtain ⟨nonzero, kernel, state, rfl⟩ := HostConfig.build_eq_ok built
  have signature : h.signature = s := signature_foldl_bind fs _
  have deep : h.depth = c.depth := depth_foldl_bind fs _
  refine ⟨?_, ?_, ?_⟩
  · rw [exists_pipeline_iff, signature]
    refine and_congr_right fun _ => ⟨?_, ?_⟩
    · intro all
      exact ⟨fun slot mem => Slot.creatable_input_iff.mp (all .input slot mem),
        fun slot mem => Slot.creatable_output_iff.mp (all .output slot mem)⟩
    · rintro ⟨inputs, outputs⟩ port slot mem
      cases port with
      | input => exact Slot.creatable_input_iff.mpr (inputs slot mem)
      | output => exact Slot.creatable_output_iff.mpr (outputs slot mem)
  · intro positive e
    rw [create_pipeline_eq_error_iff positive, signature]
  · intro fault failed
    have positive : 1 ≤ h.depth := by omega
    obtain ⟨_, _, _, -, ⟨⟩⟩ := (create_pipeline_eq_error_iff positive).mp failed

/- Bound to a function with a result of open type, the executable has no pipeline; bound to the
first function again, it has one. -/
theorem pipeline_of_declared_rebound :
    let x : Slot := ⟨"x", .f32, .static [2]⟩
    let y : Slot := ⟨"y", .f32, .unranked⟩
    let f : CompiledFunction := ⟨"f", ⟨[x], [y]⟩⟩
    let g : CompiledFunction := ⟨"g", ⟨[x], [y, ⟨"z", .dynamic, .unranked⟩]⟩⟩
    let kernel : Kernel Unit := fun _ _ => .finish () (.ok ())
    let h : Host Unit := ⟨"f", f.signature, 2, kernel, ()⟩
    HostConfig.build ⟨f, 2, some (kernel, ())⟩ = .ok h ∧
      Pipeline.create 0 ([g].foldl Host.bind h) 3 = .error (.allocation (.openType .output 1)) ∧
      (∃ p, Pipeline.create 0 ([g, f].foldl Host.bind h) 3 = .ok p) ∧
      Pipeline.createPreferred 0 ([g].foldl Host.bind h) ≠ .error (.pipeline .zeroDepth) := by
  intro x y f g kernel h
  have built : HostConfig.build ⟨f, 2, some (kernel, ())⟩ = .ok h := rfl
  have takes : x.Takes [2] 8 := Slot.takes_iff.mpr ⟨rfl, rfl⟩
  have deferred : ¬ y.shape.IsStatic := by decide
  obtain ⟨-, refused, preferred⟩ := pipeline_of_declared built [g] 0 3
  obtain ⟨stocked, -, -⟩ := pipeline_of_declared built [g, f] 0 3
  refine ⟨built, (refused (by decide) _).mpr ⟨.output, 1, _, ⟨⟨_, rfl, ?_, ?_⟩, ?_, ?_⟩, rfl⟩, ?_,
    preferred .zeroDepth⟩
  · exact fun waits => waits.typed rfl
  · exact .openType (by decide)
  · intro _ slot mem
    obtain rfl := List.mem_singleton.mp mem
    exact .inl ⟨_, _, takes⟩
  · intro slot mem
    obtain rfl := List.mem_singleton.mp mem
    exact .inr ⟨rfl, by decide, deferred⟩
  · refine stocked.mpr ⟨by decide, ?_, ?_⟩
    · intro slot mem
      obtain rfl := List.mem_singleton.mp mem
      exact ⟨_, _, takes⟩
    · intro slot mem
      obtain rfl := List.mem_singleton.mp mem
      exact ⟨by decide, .inl deferred⟩

end Host

end TensorCall
