import TensorCall.Declaration

/-! Scalars that programs exchange with tensors, and their bytes. A value is a word of
the scalar's width: signed integers are two's complement, floating-point numbers are
their bit patterns, so that the payload of a NaN is kept. -/
namespace TensorCall

inductive Scalar where
  | f32
  | f64
  | i8
  | i32
  | i64
  | u8
  | u32
deriving DecidableEq

namespace Scalar

def all : List Scalar := [f32, f64, i8, i32, i64, u8, u32]

def elementType : Scalar → ElementType
  | f32 => .f32
  | f64 => .f64
  | i8 => .i8
  | i32 => .i32
  | i64 => .i64
  | u8 => .u8
  | u32 => .u32

inductive Reading where
  | float
  | signed
  | unsigned
deriving DecidableEq

def reading : Scalar → Reading
  | f32 | f64 => .float
  | i8 | i32 | i64 => .signed
  | u8 | u32 => .unsigned

def size (s : Scalar) : Nat := s.elementType.size

abbrev Value (s : Scalar) : Type := BitVec (8 * s.size)

/-- The pattern of positive infinity; every larger magnitude is a NaN. -/
def infinity : (s : Scalar) → Nat
  | f32 => 0x7f800000
  | f64 => 0x7ff0000000000000
  | _ => 0

def IsPositive (s : Scalar) (v : s.Value) : Prop :=
  match s.reading with
  | .float => 0 < v.toNat ∧ v.toNat ≤ s.infinity
  | .signed => 0 < v.toInt
  | .unsigned => 0 < v.toNat

instance (s : Scalar) (v : s.Value) : Decidable (s.IsPositive v) := by
  unfold IsPositive
  split <;> infer_instance

theorem elementType_injective {s t : Scalar} (h : s.elementType = t.elementType) : s = t := by
  revert h
  cases s <;> cases t <;> decide

theorem elementType_isStatic (s : Scalar) : s.elementType.IsStatic := by cases s <;> decide

theorem size_pos (s : Scalar) : 0 < s.size := ElementType.size_pos s.elementType_isStatic

end Scalar

def littleEndian : Nat → Nat → List UInt8
  | 0, _ => []
  | count + 1, n => UInt8.ofNat n :: littleEndian count (n / 256)

def ofLittleEndian : List UInt8 → Nat
  | [] => 0
  | b :: bytes => b.toNat + 256 * ofLittleEndian bytes

/-- Consecutive groups of `width` bytes; the last one may be shorter. -/
def groups (width : Nat) (bytes : List UInt8) : List (List UInt8) :=
  if width = 0 ∨ bytes = [] then []
  else bytes.take width :: groups width (bytes.drop width)
termination_by bytes.length
decreasing_by
  rename_i h
  have positive : 0 < bytes.length := List.length_pos_iff.2 fun e => h (.inr e)
  rw [List.length_drop]
  omega

namespace Scalar

def encode (s : Scalar) (values : List s.Value) : List UInt8 :=
  values.flatMap fun v => littleEndian s.size v.toNat

/-- A last group that is too short is read as if zeros followed. -/
def decode (s : Scalar) (bytes : List UInt8) : List s.Value :=
  (groups s.size bytes).map fun g => BitVec.ofNat (8 * s.size) (ofLittleEndian g)

end Scalar

end TensorCall
