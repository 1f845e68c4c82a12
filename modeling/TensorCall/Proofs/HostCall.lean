import Mathlib
import TensorCall.Host
import TensorCall.Kernel.Script
import TensorCall.Proofs.RunLog

namespace TensorCall.Host

variable {σ : Type}

def kernelVerdict (h : Host σ) (b : Binding) : Except Error Unit :=
  ((h.kernel h.state b.inputs).exec (b.outputs.map Tensor.beginCall)).verdict

def log (h : Host σ) (b : Binding) : List LogEntry :=
  (h.kernel h.state b.inputs).log (b.outputs.map Tensor.beginCall)

theorem getElem?_call (h : Host σ) (b : Binding) (i : Nat) :
    (h.call b).outputs[i]? =
      (b.outputs[i]?).map fun t => t.beginCall.after (lastWrite? (h.log b) i) := by
  have outputs := (h.kernel h.state b.inputs).getElem?_exec (b.outputs.map Tensor.beginCall) i
  rw [List.getElem?_map, Option.map_map] at outputs
  exact outputs

theorem length_call (h : Host σ) (b : Binding) :
    (h.call b).outputs.length = b.outputs.length := by
  have length := (h.kernel h.state b.inputs).length_exec (b.outputs.map Tensor.beginCall)
  rwa [List.length_map] at length

theorem written_after_beginCall (t : Tensor) (log : List LogEntry) (i : Nat) :
    (t.beginCall.after (lastWrite? log i)).written = true ↔ WrittenIn log i := by
  have cleared : t.beginCall.written = false := rfl
  simp [Tensor.after_written, cleared, lastWrite?_eq_none_iff]

theorem all_written_call_iff (h : Host σ) (b : Binding) :
    (h.call b).outputs.all Tensor.written = true ↔
      ∀ i < b.outputs.length, WrittenIn (h.log b) i := by
  rw [List.all_eq_true]
  constructor
  · intro all i lt
    have found := h.getElem?_call b i
    rw [List.getElem?_eq_getElem lt, Option.map_some] at found
    exact (written_after_beginCall _ _ i).mp (all _ (List.mem_of_getElem? found))
  · intro all t mem
    obtain ⟨i, found⟩ := List.mem_iff_getElem?.mp mem
    rw [getElem?_call, Option.map_eq_some_iff] at found
    obtain ⟨old, here, rfl⟩ := found
    exact (written_after_beginCall old _ i).mpr (all i (List.getElem?_eq_some_iff.mp here).1)

theorem verdict_call (h : Host σ) (b : Binding) :
    (h.call b).verdict = match h.kernelVerdict b with
      | .error e => .error (.kernelFailed h.name e)
      | .ok _ => .ok ((h.call b).outputs.all Tensor.written) := rfl

theorem callChecked_outputs (h : Host σ) (b : Binding) :
    (Executable.callChecked h b).outputs = (h.call b).outputs ∨
      (Executable.callChecked h b).outputs = b.outputs := by
  unfold Executable.callChecked
  split
  · exact .inl rfl
  · exact .inr rfl

/-- An error is the kernel's own, wrapped; otherwise the answer tells whether every output
received a write in this call. In either case an output is what its last write of this call
made of it, and without one it holds just what it held before. -/
theorem call_outcome (h : Host σ) (b : Binding) :
    (∀ e, (h.call b).verdict = .error e ↔
      ∃ cause, h.kernelVerdict b = .error cause ∧ e = .kernelFailed h.name cause) ∧
    ((h.call b).verdict = .ok true ↔
      h.kernelVerdict b = .ok () ∧ ∀ i < b.outputs.length, WrittenIn (h.log b) i) ∧
    ((h.call b).verdict = .ok false ↔
      h.kernelVerdict b = .ok () ∧ ∃ i < b.outputs.length, ¬ WrittenIn (h.log b) i) ∧
    (h.call b).outputs.length = b.outputs.length ∧
    ∀ i t, b.outputs[i]? = some t → ∃ t', (h.call b).outputs[i]? = some t' ∧
      (t'.written = true ↔ WrittenIn (h.log b) i) ∧
      t'.contents = ((lastWrite? (h.log b) i).map Payload.contents).or t.contents ∧
      t'.elementType = t.elementType ∧ t'.shape = t.shape := by
  have all := h.all_written_call_iff b
  rw [verdict_call]
  refine ⟨?_, ?_, ?_, h.length_call b, ?_⟩
  · cases h.kernelVerdict b with
    | error cause => simp [eq_comm]
    | ok done => simp
  · cases h.kernelVerdict b with
    | error cause => simp
    | ok done => rw [← all]; simp
  · cases h.kernelVerdict b with
    | error cause => simp
    | ok done =>
      have some_unwritten : (∃ i < b.outputs.length, ¬ WrittenIn (h.log b) i) ↔
          ¬ ∀ i < b.outputs.length, WrittenIn (h.log b) i := by
        simp only [not_forall, exists_prop]
      rw [some_unwritten, ← all]
      simp
  · intro i t found
    refine ⟨t.beginCall.after (lastWrite? (h.log b) i), ?_, ?_, ?_, ?_, ?_⟩
    · rw [getElem?_call, found, Option.map_some]
    · exact written_after_beginCall t _ i
    · exact t.beginCall.after_contents _
    · exact t.beginCall.after_elementType _
    · exact t.beginCall.after_shape _

/- The kernel writes the second output and fails on the first, which keeps its stale
contents without the flag. -/
theorem call_outcome_stale :
    let stale : Tensor := ⟨.u8, .static [1], some ⟨[9], [1]⟩, true⟩
    let script : Script := [[.write 1 ⟨.u8, [7, 8], [2]⟩, .write 0 ⟨.u8, [5, 6], [2]⟩]]
    let h : Host Nat := ⟨"f", .empty, 2, script.kernel, 0⟩
    let b : Binding := ⟨[], [stale, .unallocated .u8 .unranked]⟩
    (∃ e, (h.call b).verdict = .error e) ∧
      ∃ t, (h.call b).outputs[0]? = some t ∧ t.written = false ∧ t.contents = some ⟨[9], [1]⟩ := by
  intro stale script h b
  obtain ⟨failed, -, -, -, kept⟩ := h.call_outcome b
  refine ⟨⟨_, (failed _).mpr ⟨_, rfl, rfl⟩⟩, ?_⟩
  obtain ⟨t, found, written, contents, -, -⟩ := kept 0 stale rfl
  have none : lastWrite? (h.log b) 0 = none := rfl
  refine ⟨t, found, ?_, by rw [contents, none]; rfl⟩
  rw [← Bool.not_eq_true, written]
  exact lastWrite?_eq_none_iff.mp none

end TensorCall.Host
