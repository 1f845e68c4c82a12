import Mathlib
import TensorCall.Host
import TensorCall.Proofs.Sequencing

namespace TensorCall

namespace Host

variable {σ : Type} {h : Host σ} {port : Port} {index depth : Nat} {memory : List (List UInt8)}
  {ts : List Tensor} {e : Error}

theorem createEach_eq_collect (nonzero : depth ≠ 0) :
    h.createEach port index depth = collect (h.create port index) depth :=
  if_neg nonzero

theorem createEach_eq_ok_iff (nonzero : depth ≠ 0) : h.createEach port index depth = .ok ts ↔
    ∃ t, h.create port index = .ok t ∧ ts = List.replicate depth t := by
  rw [createEach_eq_collect nonzero]
  exact collect_eq_ok_iff_replicate nonzero

theorem createEach_eq_error_iff (nonzero : depth ≠ 0) :
    h.createEach port index depth = .error e ↔ h.create port index = .error e := by
  rw [createEach_eq_collect nonzero, collect_eq_error_iff]
  exact and_iff_right nonzero

theorem createEachOver_of_length_ne (nonzero : depth ≠ 0) (other : memory.length ≠ depth) :
    h.createEachOver port index depth memory =
      .error (.allocation (.bufferCount memory.length depth)) := by
  rw [createEachOver, if_neg nonzero, if_pos other]

theorem createEachOver_eq_mapM (nonzero : depth ≠ 0) (length : memory.length = depth) :
    h.createEachOver port index depth memory = memory.mapM (h.createOver port index) := by
  rw [createEachOver, if_neg nonzero, if_neg (not_not.mpr length)]

/-- A depth of tensors is created for a slot exactly if one is, and all of them are that one. Over
buffers, each has to be accepted, and the first that is not gives the error. A depth of zero and
another number of buffers are refused before the slot or any buffer is looked at. -/
theorem created_in_batches (h : Host σ) (port : Port) (index depth : Nat)
    (memory : List (List UInt8)) :
    (depth = 0 →
      h.createEach port index depth = .error (.allocation .zeroDepth) ∧
      h.createEachOver port index depth memory = .error (.allocation .zeroDepth)) ∧
    (depth ≠ 0 →
      (∀ ts, h.createEach port index depth = .ok ts ↔
        ∃ t, h.create port index = .ok t ∧ ts = List.replicate depth t) ∧
      ∀ e, h.createEach port index depth = .error e ↔ h.create port index = .error e) ∧
    (depth ≠ 0 → memory.length ≠ depth →
      h.createEachOver port index depth memory =
        .error (.allocation (.bufferCount memory.length depth))) ∧
    (depth ≠ 0 → memory.length = depth →
      ((∃ ts, h.createEachOver port index depth memory = .ok ts) ↔
        ∀ buffer ∈ memory, ∃ t, h.createOver port index buffer = .ok t) ∧
      (∀ ts, h.createEachOver port index depth memory = .ok ts ↔
        List.Forall₂ (fun buffer t => h.createOver port index buffer = .ok t) memory ts) ∧
      ∀ e, h.createEachOver port index depth memory = .error e ↔
        ∃ before buffer after, memory = before ++ buffer :: after ∧
          h.createOver port index buffer = .error e ∧
          ∀ buffer' ∈ before, ∃ t, h.createOver port index buffer' = .ok t) := by
  refine ⟨?_, ?_, ?_, ?_⟩
  · rintro rfl
    exact ⟨rfl, rfl⟩
  · intro nonzero
    exact ⟨fun ts => createEach_eq_ok_iff nonzero, fun e => createEach_eq_error_iff nonzero⟩
  · exact fun nonzero other => createEachOver_of_length_ne nonzero other
  · intro nonzero length
    simp only [createEachOver_eq_mapM nonzero length]
    exact ⟨exists_mapM_iff, fun ts => mapM_eq_ok_iff, fun e => mapM_eq_error_iff⟩

/- Two inputs of two bytes each. The second buffer is too short, then it is missing. -/
theorem created_in_batches_second :
    let h : Host Unit := ⟨"f", ⟨[⟨"x", .u8, .static [2]⟩], []⟩, 2, fun _ _ => .finish () (.ok ()), ()⟩
    let filled (bytes : List UInt8) : Tensor := .holding .u8 ⟨bytes, [2]⟩
    h.createEach .input 0 2 = .ok [filled [0, 0], filled [0, 0]] ∧
      h.createEachOver .input 0 2 [[1, 2], [3, 4]] = .ok [filled [1, 2], filled [3, 4]] ∧
      h.createEachOver .input 0 2 [[1, 2], [3]] =
        .error (.allocation (.byteCount .input 0 2 1)) ∧
      h.createEachOver .input 0 2 [[1, 2]] = .error (.allocation (.bufferCount 1 2)) ∧
      h.createEachOver .input 7 0 [[1, 2]] = .error (.allocation .zeroDepth) := by
  intro h filled
  obtain ⟨-, each, -, full⟩ := created_in_batches h .input 0 2 [[1, 2], [3, 4]]
  obtain ⟨-, -, -, short⟩ := created_in_batches h .input 0 2 [[1, 2], [3]]
  obtain ⟨-, -, missing, -⟩ := created_in_batches h .input 0 2 [[1, 2]]
  obtain ⟨zero, -⟩ := created_in_batches h .input 7 0 [[1, 2]]
  have two : 2 ≠ 0 := by decide
  refine ⟨((each two).1 _).mpr ⟨_, rfl, rfl⟩, ((full two rfl).2.1 _).mpr ?_,
    ((short two rfl).2.2 _).mpr ⟨[[1, 2]], [3], [], rfl, rfl, ?_⟩, missing two (by decide),
    (zero rfl).2⟩
  · exact .cons rfl (.cons rfl .nil)
  · intro buffer mem
    obtain rfl := List.mem_singleton.mp mem
    exact ⟨filled [1, 2], rfl⟩

end Host

end TensorCall
