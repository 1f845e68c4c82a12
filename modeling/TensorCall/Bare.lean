import TensorCall.Executable
import TensorCall.Kernel

/-! A bare executable runs its kernel and adds nothing: flags are not cleared, errors are not
wrapped, and the verdict of a run that ends well is fixed in advance. -/
namespace TensorCall

structure Offer where
  depth : Nat
  capabilities : List Capability
  /-- How many inputs and outputs it creates for a slot, whatever depth is asked. -/
  creates : Option (Nat × Nat)
deriving DecidableEq

structure Bare (σ : Type) where
  signature : Signature
  kernel : Kernel σ
  state : σ
  verdict : Bool
  offer : Option Offer

namespace Bare

variable {σ : Type}

def call (x : Bare σ) (b : Binding) : Outcome (Bare σ) :=
  let ran := (x.kernel x.state b.inputs).exec b.outputs
  ⟨ran.verdict.map fun _ => x.verdict, ran.outputs, { x with state := ran.state }⟩

def createEach (x : Bare σ) (port : Port) (index _depth : Nat) : Except Error (List Tensor) :=
  match x.offer.bind Offer.creates with
  | none => .error (Operation.createEach port).missing
  | some (inputs, outputs) => do
    let slot ← x.signature.slotAt port index
    let count := match port with
      | .input => inputs
      | .output => outputs
    return List.replicate count (.unallocated slot.elementType slot.shape)

instance : Executable (Bare σ) where
  signature := Bare.signature
  bind x f := { x with signature := f.signature }
  call := call
  capabilities x := x.offer.elim [] Offer.capabilities
  preferredDepth x := x.offer.elim defaultDepth Offer.depth
  createEach := createEach

end Bare

end TensorCall
