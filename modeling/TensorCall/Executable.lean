import TensorCall.Signature
import TensorCall.Writer

/-! What an executable is: something with a signature that can be called. All else has a
default, and the optional operations are unimplemented until a backend provides them. -/
namespace TensorCall

inductive Capability where
  | save
  | createTensor
  | createTensorWithMemory
  | createPipelinedTensors
  | createPipelinedTensorsWithMemory
deriving DecidableEq

namespace Capability

def all : List Capability :=
  [save, createTensor, createTensorWithMemory, createPipelinedTensors,
    createPipelinedTensorsWithMemory]

end Capability

inductive Operation where
  | save
  | create (port : Port)
  | createOver (port : Port)
  | createEach (port : Port)
  | createEachOver (port : Port)
deriving DecidableEq

namespace Operation

def text : Operation → String
  | save => "save"
  | create port => "create_" ++ port.text ++ "_tensor"
  | createOver port => "create_" ++ port.text ++ "_tensor_with_memory"
  | createEach port => "create_" ++ port.text ++ "_tensors"
  | createEachOver port => "create_" ++ port.text ++ "_tensors_with_memory"

def missing (o : Operation) : Error := .unimplemented o.text

end Operation

/-- Two sets, so that one can be filled while the other is used. -/
def defaultDepth : Nat := 2

/-- Outputs may have been written before an error. -/
structure Outcome (ε : Type) where
  verdict : Except Error Bool
  outputs : List Tensor
  executable : ε

class Executable (ε : Type) where
  signature : ε → Signature
  bind : ε → CompiledFunction → ε
  call : ε → Binding → Outcome ε
  capabilities : ε → List Capability := fun _ => []
  preferredDepth : ε → Nat := fun _ => defaultDepth
  save : {ω : Type} → ε → Writer ω → ω → Except Error Unit × ω :=
    fun _ _ state => (.error Operation.save.missing, state)
  create : ε → Port → Nat → Except Error Tensor :=
    fun _ port _ => .error (Operation.create port).missing
  createOver : ε → Port → Nat → List UInt8 → Except Error Tensor :=
    fun _ port _ _ => .error (Operation.createOver port).missing
  createEach : ε → Port → Nat → Nat → Except Error (List Tensor) :=
    fun _ port _ _ => .error (Operation.createEach port).missing
  createEachOver : ε → Port → Nat → Nat → List (List UInt8) → Except Error (List Tensor) :=
    fun _ port _ _ _ => .error (Operation.createEachOver port).missing

namespace Executable

variable {ε : Type} [Executable ε]

def Supports (x : ε) (c : Capability) : Prop := c ∈ capabilities x

instance (x : ε) (c : Capability) : Decidable (Supports x c) :=
  inferInstanceAs (Decidable (c ∈ capabilities x))

def validate (x : ε) (b : Binding) : Except Error Unit := (signature x).validate b

/-- A binding that does not fit is never called, and nothing changes. -/
def callChecked (x : ε) (b : Binding) : Outcome ε :=
  match validate x b with
  | .ok _ => call x b
  | .error e => ⟨.error e, b.outputs, x⟩

end Executable

end TensorCall
