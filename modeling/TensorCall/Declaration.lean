import TensorCall.Text

namespace TensorCall

/-- Inputs are checked against parameters, outputs against results. -/
inductive Port where
  | input
  | output
deriving DecidableEq

namespace Port

def text : Port → String
  | .input => "input"
  | .output => "output"

def slotText : Port → String
  | .input => "parameter"
  | .output => "result"

end Port

inductive DeclarationError where
  /-- A slot name that an earlier slot of the same side of the function has. -/
  | repeatedName (function : String) (port : Port) (name : String)
  | invalidFunction (reason : String)
  /-- The text without the blanks around it. -/
  | unknownElementType (text : String)
  /-- The text as it was given. -/
  | malformedShape (text : String)
deriving DecidableEq

namespace DeclarationError

def message : DeclarationError → String
  | .repeatedName function port name =>
    "Invalid function: function '" ++ function ++ "' declares " ++ port.slotText ++ " '" ++ name ++
      "' more than once"
  | .invalidFunction reason => "Invalid function: " ++ reason
  | .unknownElementType text => "Cannot parse element type '" ++ text ++ "'"
  | .malformedShape text => "Cannot parse shape '" ++ text ++ "'"

end DeclarationError

/-- `dynamic` leaves the type open; it is never the type of stored data. -/
inductive ElementType where
  | dynamic
  | bool
  | f16
  | f32
  | f64
  | i8
  | i32
  | i64
  | u8
  | u32
deriving DecidableEq

namespace ElementType

def all : List ElementType := [dynamic, bool, f16, f32, f64, i8, i32, i64, u8, u32]

def IsStatic (e : ElementType) : Prop := e ≠ dynamic

instance (e : ElementType) : Decidable e.IsStatic := inferInstanceAs (Decidable (e ≠ dynamic))

def size : ElementType → Nat
  | dynamic => 0
  | bool | i8 | u8 => 1
  | f16 => 2
  | f32 | i32 | u32 => 4
  | f64 | i64 => 8

def text : ElementType → String
  | dynamic => "dynamic"
  | bool => "bool"
  | f16 => "f16"
  | f32 => "f32"
  | f64 => "f64"
  | i8 => "i8"
  | i32 => "i32"
  | i64 => "i64"
  | u8 => "u8"
  | u32 => "u32"

/-- A lone question mark is a second spelling of the open type. -/
def named? (name : String) : Option ElementType :=
  if name = "?" then some dynamic else all.find? (·.text = name)

def parse (s : String) : Except DeclarationError ElementType :=
  let name := String.ofList (Text.trim s.toList)
  match named? name with
  | some e => .ok e
  | none => .error (.unknownElementType name)

theorem text_injective {a b : ElementType} (h : a.text = b.text) : a = b := by
  revert h
  cases a <;> cases b <;> decide

theorem size_pos {e : ElementType} (h : e.IsStatic) : 0 < e.size := by
  cases e <;> first | exact absurd rfl h | decide

end ElementType

end TensorCall
