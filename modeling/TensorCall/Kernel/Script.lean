import TensorCall.Kernel

/-! Scripted kernels: lists of actions, one list for each call. The memory of such a
kernel is the number of calls it has started. -/
namespace TensorCall

inductive Transfer where
  | copy
  | flatten
  | keepPositive
deriving DecidableEq

inductive Action where
  | write (output : Nat) (payload : Payload)
  | transfer (how : Transfer) (input output : Nat) (scalar : Scalar)
  | fail (error : Error)
  | readShape (text : String)
  | readElementType (text : String)

abbrev Script : Type := List (List Action)

namespace Transfer

def payload (how : Transfer) (s : Scalar) (values : List s.Value) (dims : List Length) : Payload :=
  match how with
  | .copy => ⟨s, values, dims⟩
  | .flatten => ⟨s, values, [UInt64.ofNat values.length]⟩
  | .keepPositive =>
    let kept := values.filter fun v => s.IsPositive v
    ⟨s, kept, [UInt64.ofNat kept.length]⟩

/-- The input is looked up and read before anything is known of the output. -/
def read (how : Transfer) (inputs : List Tensor) (input : Nat) (s : Scalar) :
    Except Error Payload :=
  match inputs[input]? with
  | none => .error (.indexOutOfRange .input input inputs.length)
  | some t =>
    match t.values s with
    | .ok values => .ok (how.payload s values (t.dims?.getD []))
    | .error fault => .error (.tensor fault)

end Transfer

namespace Action

variable {σ : Type}

def perform (inputs : List Tensor) : Action → (Except Error Unit → Run σ) → Run σ
  | .write output payload, next => .write output payload next
  | .transfer how input output scalar, next =>
    match how.read inputs input scalar with
    | .ok payload => .write output payload next
    | .error e => next (.error e)
  | .fail e, next => next (.error e)
  | .readShape text, next => next ((PartialShape.parse text).mapError .declaration |>.map fun _ => ())
  | .readElementType text, next =>
    next ((ElementType.parse text).mapError .declaration |>.map fun _ => ())

def performAll (inputs : List Tensor) (state : σ) : List Action → Run σ
  | [] => .finish state (.ok ())
  | action :: rest => action.perform inputs fun
    | .ok _ => performAll inputs state rest
    | .error e => .finish state (.error e)

end Action

namespace Script

/-- The last list serves every further call; without any list nothing is done. -/
def actions (script : Script) (call : Nat) : List Action :=
  (script[min call (script.length - 1)]?).getD []

def kernel (script : Script) : Kernel Nat := fun started inputs =>
  Action.performAll inputs (started + 1) (script.actions started)

end Script

end TensorCall
