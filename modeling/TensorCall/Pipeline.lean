import TensorCall.Executable

/-! Several tensor sets for one executable, so that one can be filled while another is used. A set
that is lost keeps its index out for good. -/
namespace TensorCall

/-- The free indices stand in ascending order. -/
structure IndexPool where
  depth : Nat
  free : List Nat
deriving DecidableEq

namespace IndexPool

def full (depth : Nat) : IndexPool := ⟨depth, List.range depth⟩

def available (p : IndexPool) : Nat := p.free.length

def take? (p : IndexPool) : Option (Nat × IndexPool) :=
  match p.free with
  | [] => none
  | i :: free => some (i, { p with free })

/-- Puts an index in its place among ascending ones, where it may stand already. -/
def insert (i : Nat) : List Nat → List Nat
  | [] => [i]
  | j :: free =>
    if i < j then i :: j :: free
    else if i = j then j :: free
    else j :: insert i free

/-- An index that was never handed out, or has come back already, is refused. -/
def giveBack (p : IndexPool) (i : Nat) : Except PipelineFault Unit × IndexPool :=
  if p.depth ≤ i then (.error (.indexBeyond i p.depth), p)
  else
    (if i ∈ p.free then .error (.indexFree i) else .ok (), { p with free := insert i p.free })

end IndexPool

/-- `pipeline` names the pipeline that the set belongs to. -/
structure TensorSet where
  pipeline : Nat
  index : Nat
  inputs : List Tensor
  outputs : List Tensor
deriving DecidableEq

namespace TensorSet

variable {ε : Type} [Executable ε]

def call (s : TensorSet) (x : ε) : Outcome ε × TensorSet :=
  let outcome := Executable.callChecked x ⟨s.inputs, s.outputs⟩
  (outcome, { s with outputs := outcome.outputs })

end TensorSet

/-- An entry is empty while its set is checked out. -/
structure Pipeline where
  id : Nat
  pool : IndexPool
  entries : List (Option TensorSet)
deriving DecidableEq

def rows {α : Type} (count : Nat) : List (List α) → List (List α)
  | [] => List.replicate count []
  | column :: columns => List.zipWith (· :: ·) column (rows count columns)

namespace Pipeline

variable {ε : Type} [Executable ε]

def checkCreated (depth : Nat) (tensors : List Tensor) : Except Error Unit :=
  if tensors.length = depth then .ok ()
  else .error (.pipeline (.tensorCount tensors.length depth))

def columns (x : ε) (port : Port) (depth : Nat) : List Nat → Except Error (List (List Tensor))
  | [] => .ok []
  | index :: indices => do
    let tensors ← Executable.createEach x port index depth
    checkCreated depth tensors
    let rest ← columns x port depth indices
    return tensors :: rest

/-- The set at place `k` gets the tensor at place `k` of every slot. `id` must be new, and memory
is taken as unlimited, also for the sets of a great depth. -/
def create (id : Nat) (x : ε) (depth : Nat) : Except Error Pipeline :=
  if depth = 0 then .error (.pipeline .zeroDepth)
  else do
    let signature := Executable.signature x
    let inputs ← columns x .input depth (List.range signature.parameters.length)
    let outputs ← columns x .output depth (List.range signature.results.length)
    let sets := List.zip (rows depth inputs) (rows depth outputs)
    return ⟨id, .full depth, sets.mapIdx fun index t => some ⟨id, index, t.1, t.2⟩⟩

def createPreferred (id : Nat) (x : ε) : Except Error Pipeline :=
  create id x (Executable.preferredDepth x)

def depth (p : Pipeline) : Nat := p.pool.depth

def available (p : Pipeline) : Nat := p.pool.available

def acquire (p : Pipeline) : Option TensorSet × Pipeline :=
  match p.pool.take? with
  | none => (none, p)
  | some (index, pool) =>
    ((p.entries[index]?).join, { p with pool, entries := p.entries.set index none })

/-- A set of another pipeline is refused before its index is looked at. -/
def release (p : Pipeline) (s : TensorSet) : Except PipelineFault Unit × Pipeline :=
  if s.pipeline ≠ p.id then (.error (.foreignSet s.index), p)
  else match p.entries[s.index]? with
    | none => (.error (.unknownEntry s.index), p)
    | some (some _) => (.error (.entryFilled s.index), p)
    | some none =>
      let (answer, pool) := p.pool.giveBack s.index
      (answer, { p with pool, entries := p.entries.set s.index (some s) })

end Pipeline

end TensorCall
