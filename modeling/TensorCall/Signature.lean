import TensorCall.Tensor

namespace TensorCall

/-- A declared parameter or result. An empty name is no name. -/
structure Slot where
  name : String
  elementType : ElementType
  shape : PartialShape
deriving DecidableEq

structure Signature where
  parameters : List Slot
  results : List Slot
deriving DecidableEq

namespace Signature

def empty : Signature := ⟨[], []⟩

def slots (s : Signature) : Port → List Slot
  | .input => s.parameters
  | .output => s.results

def slotAt (s : Signature) (port : Port) (index : Nat) : Except Error Slot :=
  match (s.slots port)[index]? with
  | some slot => .ok slot
  | none => .error (.indexOutOfRange port index (s.slots port).length)

end Signature

/-- The first of the names that is not empty and stands among those before it. -/
def firstRepeated? (seen : List String) : List String → Option String
  | [] => none
  | name :: names =>
    if name ≠ "" ∧ name ∈ seen then some name else firstRepeated? (name :: seen) names

structure CompiledFunction where
  name : String
  signature : Signature
deriving DecidableEq

namespace CompiledFunction

def uniqueNames (function : String) (port : Port) (slots : List Slot) :
    Except DeclarationError Unit :=
  match firstRepeated? [] (slots.map Slot.name) with
  | some name => .error (.repeatedName function port name)
  | none => .ok ()

/-- A parameter and a result may share a name; parameters are checked first. -/
def declare (name : String) (parameters results : List Slot) :
    Except DeclarationError CompiledFunction := do
  uniqueNames name .input parameters
  uniqueNames name .output results
  return ⟨name, ⟨parameters, results⟩⟩

end CompiledFunction

structure Binding where
  inputs : List Tensor
  outputs : List Tensor
deriving DecidableEq

def Slot.checkInput (parameter : Slot) (index : Nat) (t : Tensor) : Except Error Unit :=
  if parameter.elementType.IsStatic ∧ parameter.elementType ≠ t.elementType then
    .error (.typeMismatch .input index parameter.elementType t.elementType)
  else if parameter.shape.Relaxes t.shape then .ok ()
  else .error (.shapeMismatch .input index parameter.shape t.shape)

/-- An output has to leave room for every shape the result may have, so the direction is
the opposite one. A refusal tells the largest shape the result may have. -/
def Slot.checkOutput (result : Slot) (index : Nat) (t : Tensor) : Except Error Unit :=
  if t.elementType.IsStatic ∧ result.elementType.IsStatic ∧ result.elementType ≠ t.elementType then
    .error (.typeMismatch .output index result.elementType t.elementType)
  else if t.shape.Relaxes result.shape then .ok ()
  else .error (.shapeMismatch .output index result.shape.largest t.shape)

def checkEach (check : Slot → Nat → Tensor → Except Error Unit) :
    Nat → List Slot → List Tensor → Except Error Unit
  | index, slot :: slots, t :: tensors => do
    check slot index t
    checkEach check (index + 1) slots tensors
  | _, _, _ => .ok ()

namespace Signature

def checkCount (port : Port) (slots : List Slot) (tensors : List Tensor) : Except Error Unit :=
  if slots.length = tensors.length then .ok ()
  else .error (.countMismatch port slots.length tensors.length)

def validate (s : Signature) (b : Binding) : Except Error Unit := do
  checkCount .input s.parameters b.inputs
  checkCount .output s.results b.outputs
  checkEach Slot.checkInput 0 s.parameters b.inputs
  checkEach Slot.checkOutput 0 s.results b.outputs

end Signature

end TensorCall
