import TensorCall.Allocation
import TensorCall.Executable
import TensorCall.Kernel

namespace TensorCall

namespace Manifest

/-- An empty name is saved as an underscore. -/
def shownName (name : String) : String := if name = "" then "_" else name

def functionPieces (name : String) : List String := ["function ", shownName name, "\n"]

def slotPieces (port : Port) (index : Nat) (slot : Slot) : List String :=
  [port.slotText, " ", Text.decimal index, " ", shownName slot.name, " ", slot.elementType.text, " ",
    slot.shape.text, "\n"]

def slotsPieces (port : Port) : Nat → List Slot → List String
  | _, [] => []
  | index, slot :: slots => slotPieces port index slot ++ slotsPieces port (index + 1) slots

def pieces (name : String) (s : Signature) : List String :=
  functionPieces name ++ slotsPieces .input 0 s.parameters ++ slotsPieces .output 0 s.results

def text (name : String) (s : Signature) : String := String.join (pieces name s)

end Manifest

structure Host (σ : Type) where
  name : String
  signature : Signature
  depth : Nat
  kernel : Kernel σ
  state : σ

structure HostConfig (σ : Type) where
  function : CompiledFunction
  depth : Nat
  kernel : Option (Kernel σ × σ)

def HostConfig.ofFunction {σ : Type} (f : CompiledFunction) : HostConfig σ :=
  ⟨f, defaultDepth, none⟩

/-- A missing kernel is reported before a depth of zero. -/
def HostConfig.build {σ : Type} (c : HostConfig σ) : Except Error (Host σ) :=
  match c.kernel with
  | none => .error (.config (.noKernel c.function.name))
  | some (kernel, state) =>
    if c.depth = 0 then .error (.config .zeroDepth)
    else .ok ⟨c.function.name, c.function.signature, c.depth, kernel, state⟩

theorem HostConfig.build_eq_ok {σ : Type} {c : HostConfig σ} {h : Host σ}
    (built : c.build = .ok h) : c.depth ≠ 0 ∧ ∃ kernel state,
      h = ⟨c.function.name, c.function.signature, c.depth, kernel, state⟩ := by
  unfold build at built
  split at built
  · cases built
  · next kernel state _ =>
    split at built
    · cases built
    · next positive =>
      cases built
      exact ⟨positive, kernel, state, rfl⟩

namespace Host

variable {σ : Type}

/-- Replaces the signature; the executable keeps its own name. -/
def bind (h : Host σ) (f : CompiledFunction) : Host σ := { h with signature := f.signature }

/-- Every output is to be written during this call: the flags are cleared first, and an
output left unwritten makes the verdict false. -/
def call (h : Host σ) (b : Binding) : Outcome (Host σ) :=
  let ran := (h.kernel h.state b.inputs).exec (b.outputs.map Tensor.beginCall)
  let verdict :=
    match ran.verdict with
    | .error e => .error (.kernelFailed h.name e)
    | .ok _ => .ok (ran.outputs.all Tensor.written)
  ⟨verdict, ran.outputs, { h with state := ran.state }⟩

def save {ω : Type} (h : Host σ) (w : Writer ω) (state : ω) : Except Error Unit × ω :=
  let (result, state) := w.writePieces state (Manifest.pieces h.name h.signature)
  (result.mapError .io, state)

def create (h : Host σ) (port : Port) (index : Nat) : Except Error Tensor := do
  let slot ← h.signature.slotAt port index
  match port with
  | .input => slot.createInput index
  | .output => slot.createOutput index

def createOver (h : Host σ) (port : Port) (index : Nat) (memory : List UInt8) :
    Except Error Tensor := do
  let slot ← h.signature.slotAt port index
  slot.createOver port index memory

def createEach (h : Host σ) (port : Port) (index depth : Nat) : Except Error (List Tensor) :=
  if depth = 0 then .error (.allocation .zeroDepth)
  else collect (h.create port index) depth

def createEachOver (h : Host σ) (port : Port) (index depth : Nat) (memory : List (List UInt8)) :
    Except Error (List Tensor) :=
  if depth = 0 then .error (.allocation .zeroDepth)
  else if memory.length ≠ depth then .error (.allocation (.bufferCount memory.length depth))
  else memory.mapM (h.createOver port index)

instance : Executable (Host σ) where
  signature := Host.signature
  bind := bind
  call := call
  capabilities _ := Capability.all
  preferredDepth := Host.depth
  save := save
  create := create
  createOver := createOver
  createEach := createEach
  createEachOver := createEachOver

end Host

namespace Host

def describeElementType : ElementType → String
  | .dynamic => "Dynamic"
  | .bool => "Bool"
  | .f16 => "F16"
  | .f32 => "F32"
  | .f64 => "F64"
  | .i8 => "I8"
  | .i32 => "I32"
  | .i64 => "I64"
  | .u8 => "U8"
  | .u32 => "U32"

def describeDim : Dim → String
  | .fixed n => "Static(" ++ Text.decimal n.toNat ++ ")"
  | .unknown => "Dynamic"

def describeList {α : Type} (describe : α → String) (items : List α) : String :=
  "[" ++ String.intercalate ", " (items.map describe) ++ "]"

def describeShape : PartialShape → String
  | .ranked dims => "Ranked(" ++ describeList describeDim dims ++ ")"
  | .unranked => "Dynamic"

def describeSlot (kind : String) (slot : Slot) : String :=
  kind ++ " \x7b name: " ++ Text.quoted slot.name ++ ", element_type: " ++
    describeElementType slot.elementType ++ ", shape: " ++ describeShape slot.shape ++ " \x7d"

def describeSignature (s : Signature) : String :=
  "Signature \x7b parameters: " ++ describeList (describeSlot "Parameter") s.parameters ++
    ", results: " ++ describeList (describeSlot "FunctionResult") s.results ++ " \x7d"

/-- For reports. The two dots stand for the kernel and its memory. -/
def describe {σ : Type} (h : Host σ) : String :=
  "HostExecutable \x7b name: " ++ Text.quoted h.name ++ ", signature: " ++
    describeSignature h.signature ++ ", pipeline_depth: " ++ Text.decimal h.depth ++ ", .. \x7d"

end Host

end TensorCall
