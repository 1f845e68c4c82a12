import Mathlib
import TensorCall.Host
import TensorCall.Kernel.Script
import TensorCall.Pipeline
import TensorCall.Proofs.Refusal

/-! When the kernel of a host executable starts. Nothing is assumed of kernels here: they may do to
the outputs what a `Run` cannot, such as replace them. -/
namespace TensorCall

namespace Error

def IsExecution : Error → Prop
  | .kernelFailed .. | .execution _ => True
  | _ => False

theorem not_isExecution_of_isMismatch {e : Error} (h : e.IsMismatch) : ¬ e.IsExecution := by
  cases e <;> first | exact h.elim | exact id

end Error

abbrev Routine (σ : Type) : Type := σ → List Tensor → List Tensor → Ran σ

def Kernel.routine {σ : Type} (k : Kernel σ) : Routine σ := fun state inputs outputs =>
  (k state inputs).exec outputs

structure OpenHost (σ : Type) where
  name : String
  signature : Signature
  routine : Routine σ
  state : σ

def Binding.begun (b : Binding) : Binding := ⟨b.inputs, b.outputs.map Tensor.beginCall⟩

def Outcome.map {ε ε' : Type} (f : ε → ε') (o : Outcome ε) : Outcome ε' :=
  ⟨o.verdict, o.outputs, f o.executable⟩

namespace OpenHost

variable {σ : Type}

def call (x : OpenHost σ) (b : Binding) : Outcome (OpenHost σ) :=
  let ran := x.routine x.state b.begun.inputs b.begun.outputs
  let verdict :=
    match ran.verdict with
    | .error e => .error (.kernelFailed x.name e)
    | .ok _ => .ok (ran.outputs.all Tensor.written)
  ⟨verdict, ran.outputs, { x with state := ran.state }⟩

instance : Executable (OpenHost σ) where
  signature := OpenHost.signature
  bind x f := { x with signature := f.signature }
  call := call

/-- The same executable, which also keeps the tensors that its kernel got at every start. -/
def recorded (x : OpenHost σ) (starts : List Binding) : OpenHost (σ × List Binding) where
  name := x.name
  signature := x.signature
  state := (x.state, starts)
  routine memory inputs outputs :=
    let ran := x.routine memory.1 inputs outputs
    ⟨(ran.state, memory.2 ++ [⟨inputs, outputs⟩]), ran.verdict, ran.outputs⟩

def starts (x : OpenHost (σ × List Binding)) : List Binding := x.state.2

end OpenHost

def Host.opened {σ : Type} (h : Host σ) : OpenHost σ :=
  ⟨h.name, h.signature, h.kernel.routine, h.state⟩

inductive Request where
  | bind (f : CompiledFunction)
  | validate (b : Binding)
  | call (b : Binding)
  | callSet (s : TensorSet)

inductive Answer where
  | bound
  | checked (verdict : Except Error Unit)
  | called (verdict : Except Error Bool) (outputs : List Tensor)

namespace Executable

variable {ε : Type} [Executable ε]

def serve (x : ε) : Request → Answer × ε
  | .bind f => (.bound, bind x f)
  | .validate b => (.checked (validate x b), x)
  | .call b =>
    let outcome := callChecked x b
    (.called outcome.verdict outcome.outputs, outcome.executable)
  | .callSet s =>
    let (outcome, s) := s.call x
    (.called outcome.verdict s.outputs, outcome.executable)

def serveAll (x : ε) (requests : List Request) : ε :=
  requests.foldl (fun x r => (serve x r).2) x

end Executable

namespace Request

def called? : Request → Option Binding
  | .bind _ | .validate _ => none
  | .call b => some b
  | .callSet s => some ⟨s.inputs, s.outputs⟩

def bound? : Request → Option Signature
  | .bind f => some f.signature
  | _ => none

def lastBound (s : Signature) (requests : List Request) : Signature :=
  (requests.filterMap bound?).getLastD s

/-- The starts of the kernel that the request is good for under a signature. -/
def starts (s : Signature) (r : Request) : List Binding :=
  match r.called? with
  | none => []
  | some b => if s.validate b = .ok () then [b.begun] else []

def allStarts (s : Signature) : List Request → List Binding
  | [] => []
  | r :: requests => r.starts s ++ allStarts (lastBound s [r]) requests

theorem lastBound_cons (s : Signature) (r : Request) (requests : List Request) :
    lastBound s (r :: requests) = lastBound (lastBound s [r]) requests := by
  cases r <;> simp only [lastBound, bound?, List.filterMap_cons, List.filterMap_nil,
    List.getLastD_cons, List.getLastD_nil]

end Request

namespace Executable

variable {ε : Type} [Executable ε]

theorem serve_of_called {x : ε} {r : Request} {b : Binding} (h : r.called? = some b) :
    serve x r = (.called (callChecked x b).verdict (callChecked x b).outputs,
      (callChecked x b).executable) := by
  cases r <;> cases h <;> rfl

end Executable

namespace OpenHost

open Executable Request

variable {σ : Type}

theorem callChecked_recorded (x : OpenHost σ) (starts : List Binding) (b : Binding) :
    callChecked (x.recorded starts) b = (callChecked x b).map fun y =>
      y.recorded (starts ++ if x.signature.validate b = .ok () then [b.begun] else []) := by
  cases fit : x.signature.validate b with
  | ok done =>
    rw [callChecked_of_ok (x := x) fit, callChecked_of_ok (x := x.recorded starts) fit]
    rfl
  | error e =>
    rw [callChecked_of_error (x := x) fit, callChecked_of_error (x := x.recorded starts) fit]
    simp [Outcome.map]

theorem serve_recorded (x : OpenHost σ) (starts : List Binding) (r : Request) :
    serve (x.recorded starts) r =
      ((serve x r).1, (serve x r).2.recorded (starts ++ r.starts x.signature)) := by
  cases called : r.called? with
  | none => cases r <;> cases called <;> simp [serve, Request.starts, Request.called?] <;> rfl
  | some b =>
    rw [serve_of_called called, serve_of_called called, callChecked_recorded]
    simp only [Request.starts, called]
    rfl

theorem signature_serve (x : OpenHost σ) (r : Request) :
    (serve x r).2.signature = lastBound x.signature [r] := by
  cases called : r.called? with
  | none => cases r <;> cases called <;> rfl
  | some b =>
    have kept : lastBound x.signature [r] = x.signature := by cases r <;> cases called <;> rfl
    rw [serve_of_called called, kept]
    cases fit : x.signature.validate b with
    | ok done => rw [callChecked_of_ok (x := x) fit]; rfl
    | error e => rw [callChecked_of_error (x := x) fit]

/- The record and the signature move together: what a request adds depends on the functions
bound before it, so the induction is over the requests for every executable and record. -/
theorem serveAll_recorded (x : OpenHost σ) (starts : List Binding) (requests : List Request) :
    serveAll (x.recorded starts) requests =
      (serveAll x requests).recorded (starts ++ allStarts x.signature requests) := by
  induction requests generalizing x starts with
  | nil => simp [serveAll, allStarts]
  | cons r requests ih =>
    have next : (serve (x.recorded starts) r).2 =
        (serve x r).2.recorded (starts ++ r.starts x.signature) := by rw [serve_recorded]
    have rest := ih (serve x r).2 (starts ++ r.starts x.signature)
    rw [signature_serve, List.append_assoc] at rest
    simp only [serveAll, List.foldl_cons, next, allStarts]
    exact rest

theorem signature_serveAll (x : OpenHost σ) (requests : List Request) :
    (serveAll x requests).signature = lastBound x.signature requests := by
  induction requests generalizing x with
  | nil => rfl
  | cons r requests ih =>
    rw [lastBound_cons, ← signature_serve]
    exact ih (serve x r).2

theorem verdict_call (x : OpenHost σ) (b : Binding) :
    (x.call b).verdict = match (x.routine x.state b.begun.inputs b.begun.outputs).verdict with
      | .error e => .error (.kernelFailed x.name e)
      | .ok _ => .ok ((x.call b).outputs.all Tensor.written) := rfl

theorem serve_recorded_of_fit (x : OpenHost σ) (starts : List Binding) {r : Request} {b : Binding}
    (called : r.called? = some b) (fit : x.signature.validate b = .ok ()) :
    ∃ verdict outputs z, serve (x.recorded starts) r = (.called verdict outputs, z) ∧
      z.starts = starts ++ [b.begun] ∧
      ((∃ written, verdict = .ok written) ∨ ∃ e, verdict = .error e ∧ e.IsExecution) := by
  refine ⟨_, _, _, serve_of_called called, ?_⟩
  rw [callChecked_of_ok (x := x.recorded starts) fit]
  refine ⟨rfl, ?_⟩
  have verdict := verdict_call (x.recorded starts) b
  cases ran : ((x.recorded starts).routine (x.recorded starts).state b.begun.inputs
      b.begun.outputs).verdict with
  | error cause =>
    rw [ran] at verdict
    exact .inr ⟨_, verdict, trivial⟩
  | ok done =>
    rw [ran] at verdict
    exact .inl ⟨_, verdict⟩

theorem serve_of_misfit {x : OpenHost σ} {r : Request} {b : Binding} {e : Error}
    (called : r.called? = some b) (misfit : x.signature.validate b = .error e) :
    serve x r = (.called (.error e) b.outputs, x) := by
  rw [serve_of_called called, callChecked_of_error (x := x) misfit]

theorem kind_of_serve (x : OpenHost σ) (starts : List Binding) {r : Request} {e : Error}
    {outputs : List Tensor} {z : OpenHost (σ × List Binding)}
    (served : serve (x.recorded starts) r = (.called (.error e) outputs, z)) :
    (e.IsMismatch ↔ z.starts = starts) ∧ (e.IsExecution ↔ z.starts ≠ starts) := by
  cases called : r.called? with
  | none => cases r <;> cases called <;> cases served -- only calls are answered by a verdict
  | some b =>
    cases fit : x.signature.validate b with
    | ok done =>
      obtain ⟨verdict, outputs', z', served', once, answer⟩ :=
        x.serve_recorded_of_fit starts called fit
      cases served'.symm.trans served
      obtain ⟨written, ok⟩ | ⟨e', error, execution⟩ := answer
      · cases ok
      · cases error
        have grown : z.starts ≠ starts := by simp [once]
        have matching : ¬ e.IsMismatch := fun m => Error.not_isExecution_of_isMismatch m execution
        exact ⟨iff_of_false matching grown, iff_of_true execution grown⟩
    | error e' =>
      have served' := serve_of_misfit (x := x.recorded starts) called fit
      cases served'.symm.trans served
      have mismatch := Signature.isMismatch_of_validate fit
      have idle : ¬ e.IsExecution := Error.not_isExecution_of_isMismatch mismatch
      exact ⟨iff_of_true mismatch rfl, iff_of_false idle (not_not.mpr rfl)⟩

end OpenHost

namespace Host

open Executable

variable {σ : Type}

theorem callChecked_opened (h : Host σ) (b : Binding) :
    callChecked h.opened b = (callChecked h b).map Host.opened := by
  cases fit : h.signature.validate b with
  | ok done =>
    rw [callChecked_of_ok (x := h) fit, callChecked_of_ok (x := h.opened) fit]
    rfl
  | error e =>
    rw [callChecked_of_error (x := h) fit, callChecked_of_error (x := h.opened) fit]
    rfl

theorem serve_opened (h : Host σ) (r : Request) :
    serve h.opened r = ((serve h r).1, (serve h r).2.opened) := by
  cases called : r.called? with
  | none => cases r <;> cases called <;> rfl
  | some b =>
    rw [serve_of_called called, serve_of_called called, callChecked_opened]
    rfl

theorem serveAll_opened (h : Host σ) (requests : List Request) :
    serveAll h.opened requests = (serveAll h requests).opened := by
  induction requests generalizing h with
  | nil => rfl
  | cons r requests ih =>
    have next : (serve h.opened r).2 = (serve h r).2.opened := by rw [serve_opened]
    simp only [serveAll, List.foldl_cons, next]
    exact ih (serve h r).2

end Host

namespace OpenHost

open Executable Request

variable {σ : Type}

/-- After any run, a call starts the kernel once if its tensors fit the signature bound last, and is
answered with a verdict or an execution error. Otherwise it is answered with the mismatch that
`validate` finds and changes nothing. No other request starts the kernel. -/
theorem run_starts (x : OpenHost σ) (requests : List Request) :
    let x' := serveAll x requests
    let y := serveAll (x.recorded []) requests
    let s := lastBound x.signature requests
    y = x'.recorded (allStarts x.signature requests) ∧
    (∀ r, (serve y r).1 = (serve x' r).1) ∧
    (∀ r b, r.called? = some b → s.validate b = .ok () →
      ∃ verdict outputs z, serve y r = (.called verdict outputs, z) ∧
        z.starts = y.starts ++ [b.begun] ∧
        ((∃ written, verdict = .ok written) ∨ ∃ e, verdict = .error e ∧ e.IsExecution)) ∧
    (∀ r b e, r.called? = some b → s.validate b = .error e →
      serve y r = (.called (.error e) b.outputs, y) ∧ e.IsMismatch) ∧
    (∀ r e outputs z, serve y r = (.called (.error e) outputs, z) →
      (e.IsMismatch ↔ z.starts = y.starts) ∧ (e.IsExecution ↔ z.starts ≠ y.starts)) ∧
    (∀ b, serve y (.validate b) = (.checked (s.validate b), y)) ∧
    (∀ f, (serve y (.bind f)).2.starts = y.starts) ∧
    ∀ h : Host σ, h.opened = x → ∀ r, serve x' r =
      ((serve (serveAll h requests) r).1, (serve (serveAll h requests) r).2.opened) := by
  intro x' y s
  have recorded : y = x'.recorded (allStarts x.signature requests) :=
    serveAll_recorded x [] requests
  have bound : y.signature = s := by
    rw [recorded]
    exact signature_serveAll x requests
  have starts : y.starts = allStarts x.signature requests := congrArg OpenHost.starts recorded
  refine ⟨recorded, ?_, ?_, ?_, ?_, ?_, fun f => rfl, ?_⟩
  · intro r
    rw [recorded, serve_recorded]
  · intro r b called fit
    rw [starts, recorded]
    exact serve_recorded_of_fit _ _ called (signature_serveAll x requests ▸ fit)
  · intro r b e called misfit
    exact ⟨serve_of_misfit called (bound ▸ misfit), Signature.isMismatch_of_validate misfit⟩
  · intro r e outputs z served
    rw [starts]
    rw [recorded] at served
    exact kind_of_serve _ _ served
  · intro b
    rw [← bound]
    rfl
  · rintro h rfl r
    rw [← Host.serve_opened, ← Host.serveAll_opened]

/- The kernel reports a count mismatch. After a function was bound, the call without outputs
is refused with an error of that kind and no start; the call that fits starts the kernel and
is answered with an execution error. -/
theorem run_starts_failing :
    let h : Host Nat := ⟨"f", .empty, 2, Script.kernel [[.fail (.countMismatch .output 1 0)]], 0⟩
    let g : CompiledFunction := ⟨"g", ⟨[], [⟨"y", .u8, .unranked⟩]⟩⟩
    let t : Tensor := .unallocated .u8 .unranked
    let y := serveAll (h.opened.recorded []) [.bind g, .call ⟨[], []⟩]
    y.starts = [] ∧
      (serve y (.call ⟨[], []⟩)).1 = .called (.error (.countMismatch .output 1 0)) [] ∧
      ∃ e z, serve y (.callSet ⟨0, 0, [], [t]⟩) = (.called (.error e) [t], z) ∧
        e.IsExecution ∧ z.starts = [⟨[], [t]⟩] := by
  intro h g t y
  obtain ⟨recorded, -, accepted, refused, -⟩ := run_starts h.opened [.bind g, .call ⟨[], []⟩]
  have none : y.starts = [] := congrArg OpenHost.starts recorded
  have misfit := (refused (.call ⟨[], []⟩) ⟨[], []⟩ (.countMismatch .output 1 0) rfl rfl).1
  obtain ⟨verdict, outputs, z, served, starts, answer⟩ :=
    accepted (.callSet ⟨0, 0, [], [t]⟩) ⟨[], [t]⟩ rfl rfl
  refine ⟨none, congrArg Prod.fst misfit, ?_⟩
  obtain ⟨written, ok⟩ | ⟨e, error, execution⟩ := answer
  · cases served; cases ok
  · cases served; cases error
    exact ⟨_, _, rfl, execution, starts⟩

end OpenHost

end TensorCall
