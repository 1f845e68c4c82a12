import TensorCall.Error
import TensorCall.Scalar

/-! A tensor keeps its partial shape for its whole life and is checked against it in a call.
Contents are not output by themselves: only a write that is taken sets the written flag. -/
namespace TensorCall

structure Contents where
  bytes : List UInt8
  dims : List Length
deriving DecidableEq

structure Tensor where
  elementType : ElementType
  shape : PartialShape
  contents : Option Contents
  written : Bool
deriving DecidableEq

structure Payload where
  scalar : Scalar
  values : List scalar.Value
  dims : List Length

def byteSize (elementType : ElementType) (dims : List Length) : Except TensorFault Length :=
  if elementType.IsStatic then
    match (elementCount? dims).bind (·.mul? (UInt64.ofNat elementType.size)) with
    | some n => .ok n
    | none => .error (.sizeOverflow dims)
  else .error .openType

/-- A payload whose values do not fill its lengths; `expected` is `none` where the
lengths have no count at all. -/
structure LengthMismatch where
  supplied : Nat
  dims : List Length
  expected : Option Length
deriving DecidableEq

namespace LengthMismatch

def message (m : LengthMismatch) : String :=
  let expected := m.expected.elim "None" fun n => "Some(" ++ Text.decimal n.toNat ++ ")"
  "Data length " ++ Text.decimal m.supplied ++ " doesn't match shape " ++
    TensorFault.dimsText m.dims ++ " (expected " ++ expected ++ ")"

end LengthMismatch

namespace Tensor

def holding (elementType : ElementType) (contents : Contents) : Tensor :=
  ⟨elementType, .static contents.dims, some contents, false⟩

def unallocated (elementType : ElementType) (shape : PartialShape) : Tensor :=
  ⟨elementType, shape, none, false⟩

def ofValues (p : Payload) : Except LengthMismatch Tensor :=
  if (elementCount? p.dims).map UInt64.toNat = some p.values.length then
    .ok (holding p.scalar.elementType ⟨p.scalar.encode p.values, p.dims⟩)
  else .error ⟨p.values.length, p.dims, elementCount? p.dims⟩

def ofBytes (elementType : ElementType) (bytes : List UInt8) (dims : List Length) :
    Except TensorFault Tensor := do
  let expected ← byteSize elementType dims
  if bytes.length = expected.toNat then .ok (holding elementType ⟨bytes, dims⟩)
  else .error (.byteCount bytes.length elementType dims expected)

/-- Memory is taken as unlimited: any size that is a length can be allocated. -/
def zeros (elementType : ElementType) (dims : List Length) : Except TensorFault Tensor := do
  let size ← byteSize elementType dims
  return holding elementType ⟨List.replicate size.toNat 0, dims⟩

def dims? (t : Tensor) : Option (List Length) := t.contents.map Contents.dims

def isAllocated (t : Tensor) : Bool := t.contents.isSome

/-- The number of elements held. The product is not checked again: contents are only
ever stored with a count that fits. -/
def length (t : Tensor) : Length :=
  t.dims?.elim (UInt64.ofNat 0) fun dims => dims.foldl (· * ·) (UInt64.ofNat 1)

def isEmpty (t : Tensor) : Bool := t.length = UInt64.ofNat 0

def bytes (t : Tensor) : Except TensorFault (List UInt8) :=
  match t.contents with
  | some c => .ok c.bytes
  | none => .error (.noData t.shape)

def values (t : Tensor) (s : Scalar) : Except TensorFault (List s.Value) :=
  if s.elementType = t.elementType then t.bytes.map s.decode
  else .error (.typeRequested s.elementType t.elementType)

/-- The answer, and the tensor after it. A payload that is taken replaces the contents. -/
def write (t : Tensor) (p : Payload) : Except TensorFault Unit × Tensor :=
  if p.scalar.elementType ≠ t.elementType then
    (.error (.typeRequested p.scalar.elementType t.elementType), t)
  else if ¬ t.shape.Admits p.dims then (.error (.notAdmitted p.dims t.shape), t)
  else match elementCount? p.dims with
    | none => (.error (.countOverflow p.dims), t)
    | some expected =>
      if p.values.length = expected.toNat then
        (.ok (), { t with contents := some ⟨p.scalar.encode p.values, p.dims⟩, written := true })
      else (.error (.elementCount p.values.length p.dims expected), t)

def beginCall (t : Tensor) : Tensor := { t with written := false }

end Tensor

end TensorCall
