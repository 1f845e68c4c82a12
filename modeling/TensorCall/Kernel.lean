import TensorCall.Error
import TensorCall.Tensor

/-! Kernels: what an executable runs. A kernel sees its inputs as values and touches the
outputs only by inspecting and writing them one at a time, so a run of it is a tree of
such requests, each with the continuations for its answers. Every run is finite. -/
namespace TensorCall

inductive Run (σ : Type) where
  | finish (state : σ) (verdict : Except Error Unit)
  | inspect (output : Nat) (next : Option Tensor → Run σ)
  | write (output : Nat) (payload : Payload) (next : Except Error Unit → Run σ)

abbrev Kernel (σ : Type) : Type := σ → List Tensor → Run σ

structure Ran (σ : Type) where
  state : σ
  verdict : Except Error Unit
  outputs : List Tensor

def writeAt (outputs : List Tensor) (output : Nat) (payload : Payload) :
    Except Error Unit × List Tensor :=
  match outputs[output]? with
  | none => (.error (.indexOutOfRange .output output outputs.length), outputs)
  | some t =>
    let (answer, t) := t.write payload
    (answer.mapError .tensor, outputs.set output t)

theorem length_writeAt (outputs : List Tensor) (output : Nat) (payload : Payload) :
    (writeAt outputs output payload).2.length = outputs.length := by
  unfold writeAt
  split
  · rfl
  · exact List.length_set

namespace Run

variable {σ : Type}

def exec : Run σ → List Tensor → Ran σ
  | .finish state verdict, outputs => ⟨state, verdict, outputs⟩
  | .inspect output next, outputs => exec (next outputs[output]?) outputs
  | .write output payload next, outputs =>
    let (answer, outputs) := writeAt outputs output payload
    exec (next answer) outputs

theorem length_exec (r : Run σ) (outputs : List Tensor) :
    (r.exec outputs).outputs.length = outputs.length := by
  induction r generalizing outputs with
  | finish state verdict => rfl
  | inspect output next ih => exact ih _ outputs
  | write output payload next ih =>
    rw [exec, ih, length_writeAt]

end Run

end TensorCall
