import Mathlib
import TensorCall.Proofs.Outline
import TensorCall.Proofs.TidyPipeline

/-! Runs of any number of pipelines. Sets are acquired, written, called, released or dropped
in any order; a set is a value with one owner, so a release or a drop uses it up. -/
namespace TensorCall

namespace TensorSet

def tag (s : TensorSet) : Nat × Nat := (s.pipeline, s.index)

def attempt (s : TensorSet) (port : Port) (place : Nat) (p : Payload) : TensorSet :=
  match port with
  | .input => { s with inputs := s.inputs.modify place (·.attempt p) }
  | .output => { s with outputs := s.outputs.modify place (·.attempt p) }

theorem tag_attempt (s : TensorSet) (port : Port) (place : Nat) (p : Payload) :
    (s.attempt port place p).tag = s.tag := by
  cases port <;> rfl

theorem tag_call {ε : Type} [Executable ε] (s : TensorSet) (x : ε) :
    (s.call x).2.tag = s.tag := rfl

end TensorSet

/-- `lost` has the tags of sets that were dropped, or used up by a release to a pipeline that is
not theirs. Ids are drawn from a counter that wraps. -/
structure Circulation where
  nextId : UInt64
  pipelines : List Pipeline
  held : List TensorSet
  lost : List (Nat × Nat)

namespace Circulation

inductive Event : Type 1 where
  | create {ε : Type} [Executable ε] (x : ε) (depth : Nat)
  | acquire (pipeline : Nat)
  | release (set pipeline : Nat)
  | drop (set : Nat)
  | write (set : Nat) (port : Port) (place : Nat) (payload : Payload)
  | call (set : Nat) {ε : Type} [Executable ε] (x : ε)

/-- A creation of positive depth draws an id, even if it fails afterwards. -/
def Event.drawsId : Event → Bool
  | @Event.create _ _ _ depth => depth ≠ 0
  | _ => false

def start : Circulation := ⟨0, [], [], []⟩

def step (w : Circulation) : Event → Circulation
  | @Event.create _ _ x depth =>
    let nextId := if depth = 0 then w.nextId else w.nextId + 1
    match Pipeline.create w.nextId.toNat x depth with
    | .ok p => { w with nextId, pipelines := w.pipelines ++ [p] }
    | .error _ => { w with nextId }
  | .acquire k =>
    match w.pipelines[k]? with
    | none => w
    | some p =>
      { w with
        pipelines := w.pipelines.set k p.acquire.2
        held := w.held ++ p.acquire.1.toList }
  | .release j k =>
    match w.held[j]?, w.pipelines[k]? with
    | some s, some p =>
      { w with
        pipelines := w.pipelines.set k (p.release s).2
        held := w.held.eraseIdx j
        lost := if s.pipeline = p.id then w.lost else w.lost ++ [s.tag] }
    | _, _ => w
  | .drop j =>
    match w.held[j]? with
    | none => w
    | some s => { w with held := w.held.eraseIdx j, lost := w.lost ++ [s.tag] }
  | .write j port place payload =>
    { w with held := w.held.modify j (·.attempt port place payload) }
  | @Event.call j _ _ x => { w with held := w.held.modify j fun s => (s.call x).2 }

def run (events : List Event) : Circulation := events.foldl step start

def out (w : Circulation) : List (Nat × Nat) := w.held.map TensorSet.tag ++ w.lost

def heldOf (w : Circulation) (id : Nat) : Nat := w.held.countP (·.pipeline = id)

def lostOf (w : Circulation) (id : Nat) : Nat := w.lost.countP (·.1 = id)

theorem countP_out (w : Circulation) (id : Nat) :
    w.out.countP (·.1 = id) = w.heldOf id + w.lostOf id := by
  rw [out, List.countP_append, List.countP_map]
  rfl

end Circulation

end TensorCall
