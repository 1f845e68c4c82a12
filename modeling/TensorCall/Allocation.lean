import TensorCall.Signature
import TensorCall.Tensor

namespace TensorCall

namespace Slot

def allocatedDims (slot : Slot) (port : Port) (index : Nat) : Except Error (List Length) :=
  if ¬ slot.elementType.IsStatic then .error (.allocation (.openType port index))
  else match slot.shape.lengths? with
    | some dims => .ok dims
    | none => .error (.allocation (.openShape port index slot.shape))

def allocatedSize (slot : Slot) (port : Port) (index : Nat) (dims : List Length) :
    Except Error Length :=
  (byteSize slot.elementType dims).mapError fun fault => .allocation (.unsized port index fault)

def zeroed (slot : Slot) (port : Port) (index : Nat) (dims : List Length) : Except Error Tensor := do
  let _ ← slot.allocatedSize port index dims
  (Tensor.zeros slot.elementType dims).mapError .tensor

def createInput (slot : Slot) (index : Nat) : Except Error Tensor := do
  let dims ← slot.allocatedDims .input index
  slot.zeroed .input index dims

/-- A result whose shape is not static gets a tensor that waits for its contents. -/
def createOutput (slot : Slot) (index : Nat) : Except Error Tensor :=
  if ¬ slot.elementType.IsStatic then .error (.allocation (.openType .output index))
  else match slot.shape.lengths? with
    | some dims => slot.zeroed .output index dims
    | none => .ok (.unallocated slot.elementType slot.shape)

def createOver (slot : Slot) (port : Port) (index : Nat) (memory : List UInt8) :
    Except Error Tensor := do
  let dims ← slot.allocatedDims port index
  let needed ← slot.allocatedSize port index dims
  if memory.length = needed.toNat then
    (Tensor.ofBytes slot.elementType memory dims).mapError .tensor
  else .error (.allocation (.byteCount port index needed memory.length))

end Slot

/-- So many results of one attempt after the other; the first error ends it. -/
def collect {α : Type} (attempt : Except Error α) : Nat → Except Error (List α)
  | 0 => .ok []
  | n + 1 => do
    let a ← attempt
    let as ← collect attempt n
    return a :: as

end TensorCall
