import Mathlib
import TensorCall.Proofs.Provision

namespace TensorCall

section
variable {σ : Type}

def Ran.result (ran : Ran σ) : Except Error Unit × List Tensor := (ran.verdict, ran.outputs)

/-- The kernel acts only on its arguments: what it remembers makes no difference. -/
def Kernel.Steady (k : Kernel σ) : Prop :=
  ∀ memory memory' inputs outputs,
    ((k memory inputs).exec outputs).result = ((k memory' inputs).exec outputs).result

namespace Action

theorem result_perform (inputs : List Tensor) (action : Action)
    {next next' : Except Error Unit → Run σ}
    (same : ∀ answer outputs,
      ((next answer).exec outputs).result = ((next' answer).exec outputs).result)
    (outputs : List Tensor) :
    ((action.perform inputs next).exec outputs).result =
      ((action.perform inputs next').exec outputs).result := by
  have written (output : Nat) (payload : Payload) :
      ((Run.write output payload next).exec outputs).result =
        ((Run.write output payload next').exec outputs).result := by
    rw [Run.exec, Run.exec]
    exact same _ _
  cases action with
  | write output payload => exact written output payload
  | transfer how input output scalar =>
    rw [perform, perform]
    split
    · exact written output _
    · exact same _ outputs
  | fail e => exact same _ outputs
  | readShape text => exact same _ outputs
  | readElementType text => exact same _ outputs

theorem result_performAll (inputs : List Tensor) (memory memory' : σ) (actions : List Action)
    (outputs : List Tensor) :
    ((performAll inputs memory actions).exec outputs).result =
      ((performAll inputs memory' actions).exec outputs).result := by
  induction actions generalizing outputs with
  | nil => rfl
  | cons action rest ih =>
    apply result_perform
    rintro (e | _) outputs
    · rfl
    · exact ih outputs

end Action

theorem Script.steady_kernel {script : Script}
    (same : ∀ call, script.actions call = script.actions 0) : script.kernel.Steady := by
  intro started started' inputs outputs
  rw [kernel, kernel, same started, same started']
  exact Action.result_performAll inputs _ _ _ outputs

end

namespace TensorSet

inductive Use where
  | write (port : Port) (place : Nat) (payload : Payload)
  | call

inductive Reply where
  | wrote (answer : Option (Except TensorFault Unit))
  | called (verdict : Except Error Bool)
deriving DecidableEq

structure Used (ε : Type) where
  reply : Reply
  set : TensorSet
  executable : ε

section
variable {ε : Type} [Executable ε]

def use (s : TensorSet) (x : ε) : Use → Used ε
  | .write port place p =>
    let answer := (s.binding.tensors port)[place]?.map fun t => (t.write p).1
    ⟨.wrote answer, s.attempt port place p, x⟩
  | .call =>
    let (outcome, s) := s.call x
    ⟨.called outcome.verdict, s, outcome.executable⟩

def runAlone (s : TensorSet) (x : ε) : List Use → List Reply × TensorSet
  | [] => ([], s)
  | u :: uses =>
    let used := s.use x u
    let (replies, final) := runAlone used.set used.executable uses
    (used.reply :: replies, final)

def runShared {ι : Type} [DecidableEq ι] (sets : ι → TensorSet) (x : ε) :
    List (ι × Use) → List (ι × Reply) × (ι → TensorSet)
  | [] => ([], sets)
  | (i, u) :: schedule =>
    let used := (sets i).use x u
    let (replies, final) := runShared (Function.update sets i used.set) used.executable schedule
    ((i, used.reply) :: replies, final)

end

end TensorSet

def ownPart {ι α : Type} [DecidableEq ι] (i : ι) (steps : List (ι × α)) : List α :=
  (steps.filter (·.1 = i)).map Prod.snd

section
variable {ι α : Type} [DecidableEq ι] {i j : ι}

theorem ownPart_cons_self (i : ι) (a : α) (steps : List (ι × α)) :
    ownPart i ((i, a) :: steps) = a :: ownPart i steps := by
  simp [ownPart]

theorem ownPart_cons_of_ne (other : j ≠ i) (a : α) (steps : List (ι × α)) :
    ownPart i ((j, a) :: steps) = ownPart i steps := by
  simp [ownPart, other]

end

namespace Host

open TensorSet

variable {σ : Type} {h : Host σ}

def remembering (h : Host σ) (memory : σ) : Host σ := { h with state := memory }

/- A call changes nothing of the executable but what it remembers, which shows in no answer. -/
theorem call_remembering (steady : h.kernel.Steady) (memory memory' : σ) (b : Binding) :
    ∃ verdict outputs next next',
      (h.remembering memory).call b = ⟨verdict, outputs, h.remembering next⟩ ∧
      (h.remembering memory').call b = ⟨verdict, outputs, h.remembering next'⟩ := by
  let ran (m : σ) : Ran σ := (h.kernel m b.inputs).exec (b.outputs.map Tensor.beginCall)
  obtain ⟨verdict, outputs⟩ : (ran memory).verdict = (ran memory').verdict ∧
      (ran memory).outputs = (ran memory').outputs := Prod.ext_iff.mp (steady memory memory' _ _)
  refine ⟨((h.remembering memory).call b).verdict, (ran memory).outputs, (ran memory).state,
    (ran memory').state, rfl, ?_⟩
  simp only [call, remembering, ran] at verdict outputs ⊢
  rw [verdict, outputs]

theorem callChecked_remembering (steady : h.kernel.Steady) (memory memory' : σ) (b : Binding) :
    ∃ verdict outputs next next',
      Executable.callChecked (h.remembering memory) b = ⟨verdict, outputs, h.remembering next⟩ ∧
      Executable.callChecked (h.remembering memory') b =
        ⟨verdict, outputs, h.remembering next'⟩ := by
  cases fit : h.signature.validate b with
  | error e =>
    have refused (m : σ) : Executable.callChecked (h.remembering m) b =
        ⟨.error e, b.outputs, h.remembering m⟩ := Executable.callChecked_of_error fit
    exact ⟨_, _, memory, memory', refused memory, refused memory'⟩
  | ok _ =>
    have called (m : σ) : Executable.callChecked (h.remembering m) b =
        (h.remembering m).call b := Executable.callChecked_of_ok fit
    rw [called, called]
    exact call_remembering steady memory memory' b

theorem use_remembering (steady : h.kernel.Steady) (memory memory' : σ) (s : TensorSet) (u : Use) :
    ∃ reply set next next',
      s.use (h.remembering memory) u = ⟨reply, set, h.remembering next⟩ ∧
      s.use (h.remembering memory') u = ⟨reply, set, h.remembering next'⟩ := by
  cases u with
  | write port place p => exact ⟨_, _, memory, memory', rfl, rfl⟩
  | call =>
    obtain ⟨verdict, outputs, next, next', first, second⟩ :=
      callChecked_remembering steady memory memory' s.binding
    rw [TensorSet.binding] at first second
    exact ⟨.called verdict, { s with outputs }, next, next', by rw [use, TensorSet.call, first],
      by rw [use, TensorSet.call, second]⟩

variable {ι : Type} [DecidableEq ι]

theorem runShared_remembering (steady : h.kernel.Steady) (schedule : List (ι × Use))
    (sets : ι → TensorSet) (memory memory' : σ) (i : ι) :
    let shared := runShared sets (h.remembering memory) schedule
    (ownPart i shared.1, shared.2 i) =
      runAlone (sets i) (h.remembering memory') (ownPart i schedule) := by
  induction schedule generalizing sets memory memory' with
  | nil => rfl
  | cons step schedule ih =>
    obtain ⟨j, u⟩ := step
    obtain ⟨reply, set, next, next', shared, alone⟩ :=
      use_remembering steady memory memory' (sets j) u
    have rest := ih (Function.update sets j set) next
    by_cases own : j = i
    · subst own
      specialize rest next'
      rw [Function.update_self] at rest
      simp only [runShared, shared, ownPart_cons_self, runAlone, alone, ← rest]
    · -- the step of another set only changes what the shared executable remembers
      specialize rest memory'
      rw [Function.update_of_ne (Ne.symm own)] at rest
      simp only [runShared, shared, ownPart_cons_of_ne own, ← rest]

/-- However the programs of the sets are interleaved on an executable whose kernel acts only on
its arguments, every set gets the answers and ends with the tensors that it would have alone. -/
theorem shared_eq_alone (h : Host σ) (steady : h.kernel.Steady) (sets : ι → TensorSet)
    (programs : ι → List Use) (schedule : List (ι × Use))
    (interleaves : ∀ i, ownPart i schedule = programs i) (i : ι) :
    let shared := runShared sets h schedule
    let alone := runAlone (sets i) h (programs i)
    ownPart i shared.1 = alone.1 ∧ shared.2 i = alone.2 := by
  have same := runShared_remembering steady schedule sets h.state h.state i
  rw [interleaves i] at same
  exact Prod.ext_iff.mp same

/- Between the write to the one set and its call, the other one is called with values of its own
and is refused a write. -/
theorem shared_eq_alone_turns :
    let h : Host Nat := ⟨"f", ⟨[⟨"x", .u8, .static [2]⟩], [⟨"y", .u8, .ranked [.unknown]⟩]⟩, 2,
      Script.kernel [[.transfer .copy 0 0 .u8]], 0⟩
    let sets (i : Bool) : TensorSet := ⟨0, i.toNat, [.holding .u8 ⟨[0, 0], [2]⟩],
      [.unallocated .u8 (.ranked [.unknown])]⟩
    let schedule : List (Bool × Use) := [(true, .write .input 0 ⟨.u8, [7, 8], [2]⟩),
      (false, .call), (false, .write .input 0 ⟨.u8, [9], [1]⟩), (true, .call)]
    h.kernel.Steady ∧
      ownPart true (runShared sets h schedule).1 = [.wrote (some (.ok ())), .called (.ok true)] ∧
      ((runShared sets h schedule).2 true).outputs =
        [⟨.u8, .ranked [.unknown], some ⟨[7, 8], [2]⟩, true⟩] := by
  intro h sets schedule
  have steady : h.kernel.Steady := Script.steady_kernel fun call => by simp [Script.actions]
  obtain ⟨replies, final⟩ :=
    shared_eq_alone h steady sets (ownPart · schedule) schedule (fun _ => rfl) true
  refine ⟨steady, replies.trans (by decide +kernel), ?_⟩
  rw [final]
  decide +kernel

end Host

end TensorCall
