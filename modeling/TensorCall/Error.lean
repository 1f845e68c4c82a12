import TensorCall.Declaration
import TensorCall.Shape
import TensorCall.Text

/-! What can go wrong around a call: each cause with the values that explain it, and
the wording of each. A `reported` cause carries a text that was made elsewhere. -/
namespace TensorCall

inductive TensorFault where
  | openType
  | sizeOverflow (dims : List Length)
  | byteCount (supplied : Nat) (elementType : ElementType) (dims : List Length) (expected : Length)
  | noData (shape : PartialShape)
  | typeRequested (requested actual : ElementType)
  | notAdmitted (dims : List Length) (shape : PartialShape)
  | countOverflow (dims : List Length)
  | elementCount (supplied : Nat) (dims : List Length) (expected : Length)
  | reported (text : String)
deriving DecidableEq

inductive AllocationFault where
  | openType (port : Port) (index : Nat)
  | openShape (port : Port) (index : Nat) (shape : PartialShape)
  | unsized (port : Port) (index : Nat) (fault : TensorFault)
  | byteCount (port : Port) (index : Nat) (needed : Length) (supplied : Nat)
  | zeroDepth
  | bufferCount (supplied depth : Nat)
  | reported (text : String)
deriving DecidableEq

inductive ConfigFault where
  | noKernel (function : String)
  | zeroDepth
  | reported (text : String)
deriving DecidableEq

inductive PipelineFault where
  | zeroDepth
  | tensorCount (created depth : Nat)
  | foreignSet (index : Nat)
  | unknownEntry (index : Nat)
  | entryFilled (index : Nat)
  | indexBeyond (index depth : Nat)
  | indexFree (index : Nat)
  | reported (text : String)
deriving DecidableEq

inductive Error where
  | countMismatch (port : Port) (expected actual : Nat)
  | typeMismatch (port : Port) (index : Nat) (expected actual : ElementType)
  | shapeMismatch (port : Port) (index : Nat) (expected actual : PartialShape)
  | unimplemented (operation : String)
  | indexOutOfRange (port : Port) (index count : Nat)
  | config (fault : ConfigFault)
  | allocation (fault : AllocationFault)
  | pipeline (fault : PipelineFault)
  | tensor (fault : TensorFault)
  /-- Whatever a kernel reports is wrapped, so it is never taken for a rejected call. -/
  | kernelFailed (function : String) (cause : Error)
  | execution (text : String)
  | declaration (error : DeclarationError)
  | io (text : String)
deriving DecidableEq

namespace TensorFault

def dimsText (dims : List Length) : String := (PartialShape.static dims).text

def message : TensorFault → String
  | .openType => "cannot store data for a dynamic element type"
  | .sizeOverflow dims => "byte size of shape " ++ dimsText dims ++ " overflows"
  | .byteCount supplied elementType dims expected =>
    Text.decimal supplied ++ " bytes supplied for " ++ elementType.text ++ " tensor of shape " ++
      dimsText dims ++ " (expected " ++ Text.decimal expected.toNat ++ ")"
  | .noData shape => "tensor of shape " ++ shape.text ++ " has no data"
  | .typeRequested requested actual =>
    "requested " ++ requested.text ++ " from a " ++ actual.text ++ " tensor"
  | .notAdmitted dims shape =>
    "cannot write shape " ++ dimsText dims ++ " into tensor of shape " ++ shape.text
  | .countOverflow dims => "element count of shape " ++ dimsText dims ++ " overflows"
  | .elementCount supplied dims expected =>
    Text.decimal supplied ++ " elements supplied for shape " ++ dimsText dims ++ " (expected " ++
      Text.decimal expected.toNat ++ ")"
  | .reported text => text

def report (fault : TensorFault) : String := "Invalid tensor: " ++ fault.message

end TensorFault

def AllocationFault.message : AllocationFault → String
  | .openType port index =>
    port.text ++ " " ++ Text.decimal index ++ " has a dynamic element type"
  | .openShape port index shape =>
    port.text ++ " " ++ Text.decimal index ++ " has non-static shape " ++ shape.text
  | .unsized port index fault => port.text ++ " " ++ Text.decimal index ++ ": " ++ fault.report
  | .byteCount port index needed supplied =>
    port.text ++ " " ++ Text.decimal index ++ " needs " ++ Text.decimal needed.toNat ++ " bytes, " ++
      Text.decimal supplied ++ " supplied"
  | .zeroDepth => "pipeline depth must be at least 1"
  | .bufferCount supplied depth =>
    Text.decimal supplied ++ " buffers supplied for pipeline depth " ++ Text.decimal depth
  | .reported text => text

def ConfigFault.message : ConfigFault → String
  | .noKernel function => "no kernel given for '" ++ function ++ "'"
  | .zeroDepth => "pipeline depth must be at least 1"
  | .reported text => text

def PipelineFault.message : PipelineFault → String
  | .zeroDepth => "pipeline depth must be at least 1"
  | .tensorCount created depth =>
    "executable created " ++ Text.decimal created ++ " tensors for pipeline depth " ++
      Text.decimal depth
  | .foreignSet index => "slot " ++ Text.decimal index ++ " belongs to a different pipeline"
  | .unknownEntry index => "slot " ++ Text.decimal index ++ " does not belong to this pipeline"
  | .entryFilled index => "slot " ++ Text.decimal index ++ " released while not checked out"
  | .indexBeyond index depth =>
    "index " ++ Text.decimal index ++ " returned to a library of depth " ++ Text.decimal depth
  | .indexFree index => "index " ++ Text.decimal index ++ " returned twice"
  | .reported text => text

def Error.message : Error → String
  | .countMismatch port expected actual =>
    "call " ++ port.text ++ " count " ++ Text.decimal actual ++ " does not match function's " ++
      port.slotText ++ " count " ++ Text.decimal expected
  | .typeMismatch port index expected actual =>
    port.text ++ " " ++ Text.decimal index ++ " type '" ++ actual.text ++ "' does not match " ++
      port.slotText ++ " type '" ++ expected.text ++ "'"
  | .shapeMismatch port index expected actual =>
    port.text ++ " " ++ Text.decimal index ++ " shape " ++ actual.text ++ " does not match " ++
      port.slotText ++ " shape " ++ expected.text
  | .unimplemented operation => operation ++ " unimplemented"
  | .indexOutOfRange port index count =>
    port.text ++ " index " ++ Text.decimal index ++ " out of range for " ++ Text.decimal count ++
      " " ++ port.slotText ++ "s"
  | .config fault => "Invalid executable configuration: " ++ fault.message
  | .allocation fault => "Tensor allocation failed: " ++ fault.message
  | .pipeline fault => "Pipeline error: " ++ fault.message
  | .tensor fault => fault.report
  | .kernelFailed function cause =>
    "Execution failed: kernel '" ++ function ++ "' failed: " ++ cause.message
  | .execution text => "Execution failed: " ++ text
  | .declaration error => error.message
  | .io text => "I/O error: " ++ text

end TensorCall
