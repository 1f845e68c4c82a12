import TensorCall.Allocation
import TensorCall.Bare
import TensorCall.Declaration
import TensorCall.Error
import TensorCall.Executable
import TensorCall.Host
import TensorCall.Kernel
import TensorCall.Kernel.Script
import TensorCall.Length
import TensorCall.Pipeline
import TensorCall.Scalar
import TensorCall.Shape
import TensorCall.Signature
import TensorCall.Tensor
import TensorCall.Text
import TensorCall.Writer
import TensorCall.Proofs.Admission
import TensorCall.Proofs.ElementCount
import TensorCall.Proofs.Write
import TensorCall.Proofs.RunLog
import TensorCall.Proofs.HostCall
import TensorCall.Proofs.Lifetime
import TensorCall.Proofs.Outline
import TensorCall.Proofs.FreeIndices
import TensorCall.Proofs.TidyPipeline
import TensorCall.Proofs.Circulation
import TensorCall.Proofs.Ledger
import TensorCall.Proofs.Conservation
import TensorCall.Proofs.Fitting
import TensorCall.Proofs.Refusal
import TensorCall.Proofs.KernelStarts
import TensorCall.Proofs.Conformance
import TensorCall.Proofs.Acceptance
import TensorCall.Proofs.Trimming
import TensorCall.Proofs.ShapeGrammar
import TensorCall.Proofs.ShapeText
import TensorCall.Proofs.ManifestDecoding
import TensorCall.Proofs.SetInvariants
import TensorCall.Proofs.Provision
import TensorCall.Proofs.AcceptedThroughRuns
import TensorCall.Proofs.Variance
import TensorCall.Proofs.LimitedRoom
import TensorCall.Proofs.Entries
import TensorCall.Proofs.Returns
import TensorCall.Proofs.Sharing
import TensorCall.Proofs.ValueBytes
import TensorCall.Proofs.Stocking
import TensorCall.Proofs.ManifestLines
import TensorCall.Proofs.Creation
import TensorCall.Proofs.InStep
import TensorCall.Proofs.Outstanding
import TensorCall.Proofs.Batches
import TensorCall.Proofs.HostStocking
import TensorCall.Proofs.ShapeBounds
import TensorCall.Proofs.ReportedValues
import TensorCall.Proofs.Fulfilment
import TensorCall.Proofs.SlotNames
