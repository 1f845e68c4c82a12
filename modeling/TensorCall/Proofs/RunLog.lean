import Mathlib
import TensorCall.Kernel
import TensorCall.Proofs.Write

/-! A run of a kernel told by its log: the writes that succeeded, in order. The log decides
what every output is afterwards; requests that were refused or only looked leave no trace. -/
namespace TensorCall

structure LogEntry where
  output : Nat
  payload : Payload

def WrittenIn (log : List LogEntry) (output : Nat) : Prop := ∃ e ∈ log, e.output = output

def lastWrite? (log : List LogEntry) (output : Nat) : Option Payload :=
  ((log.filter (·.output = output)).getLast?).map LogEntry.payload

theorem lastWrite?_nil (output : Nat) : lastWrite? [] output = none := rfl

theorem lastWrite?_cons (e : LogEntry) (log : List LogEntry) (output : Nat) :
    lastWrite? (e :: log) output =
      (lastWrite? log output).or (if e.output = output then some e.payload else none) := by
  by_cases here : e.output = output
  · cases h : (log.filter (·.output = output)).getLast? <;>
      simp [lastWrite?, List.getLast?_cons, here, h]
  · simp [lastWrite?, here]

theorem mem_of_lastWrite? {log : List LogEntry} {output : Nat} {p : Payload}
    (h : lastWrite? log output = some p) : ⟨output, p⟩ ∈ log := by
  obtain ⟨e, last, rfl⟩ := Option.map_eq_some_iff.mp h
  obtain ⟨mem, here⟩ := List.mem_filter.mp (List.mem_of_getLast? last)
  rw [decide_eq_true_eq] at here
  exact here ▸ mem

theorem lastWrite?_eq_none_iff {log : List LogEntry} {output : Nat} :
    lastWrite? log output = none ↔ ¬ WrittenIn log output := by
  simp [lastWrite?, WrittenIn]

namespace Tensor

def after (t : Tensor) : Option Payload → Tensor
  | none => t
  | some p => t.stored p

@[simp] theorem after_elementType (t : Tensor) (p : Option Payload) :
    (t.after p).elementType = t.elementType := by
  cases p <;> rfl

@[simp] theorem after_shape (t : Tensor) (p : Option Payload) :
    (t.after p).shape = t.shape := by
  cases p <;> rfl

theorem after_contents (t : Tensor) (p : Option Payload) :
    (t.after p).contents = (p.map Payload.contents).or t.contents := by
  cases p <;> rfl

theorem after_written (t : Tensor) (p : Option Payload) :
    (t.after p).written = true ↔ p ≠ none ∨ t.written = true := by
  cases p <;> simp [after, stored]

theorem stored_after (t : Tensor) (p : Payload) (q : Option Payload) :
    (t.stored p).after q = t.after (q.or (some p)) := by
  cases q <;> rfl

end Tensor

theorem set_of_getElem? {α : Type} {as : List α} {i : Nat} {a : α} (found : as[i]? = some a) :
    as.set i a = as := by
  obtain ⟨below, rfl⟩ := List.getElem?_eq_some_iff.mp found
  exact List.set_getElem_self below

section
variable {outputs : List Tensor} {output : Nat} {p : Payload}

theorem writeAt_of_fits {t : Tensor} (found : outputs[output]? = some t)
    (fits : p.Fits t.elementType t.shape) :
    writeAt outputs output p = (.ok (), outputs.set output (t.stored p)) := by
  simp only [writeAt, found, Tensor.write_eq_ok_iff.mpr ⟨fits, rfl⟩, Except.mapError]

theorem writeAt_cases (outputs : List Tensor) (output : Nat) (p : Payload) :
    (∃ t, outputs[output]? = some t ∧ p.Fits t.elementType t.shape ∧
      writeAt outputs output p = (.ok (), outputs.set output (t.stored p))) ∨
    ∃ e, writeAt outputs output p = (.error e, outputs) := by
  cases found : outputs[output]? with
  | none => exact .inr ⟨.indexOutOfRange .output output outputs.length, by simp only [writeAt, found]⟩
  | some t =>
    rcases t.write_cases p with ⟨fits, -⟩ | ⟨fault, -, failed⟩
    · exact .inl ⟨t, rfl, fits, writeAt_of_fits found fits⟩
    · refine .inr ⟨.tensor fault, ?_⟩
      simp only [writeAt, found, failed, Except.mapError, set_of_getElem? found]

end

namespace Run

variable {σ : Type}

def log : Run σ → List Tensor → List LogEntry
  | .finish _ _, _ => []
  | .inspect output next, outputs => log (next outputs[output]?) outputs
  | .write output payload next, outputs =>
    match writeAt outputs output payload with
    | (.ok _, outputs) => ⟨output, payload⟩ :: log (next (.ok ())) outputs
    | (.error e, outputs) => log (next (.error e)) outputs

theorem getElem?_exec (r : Run σ) (outputs : List Tensor) (i : Nat) :
    (r.exec outputs).outputs[i]? =
      (outputs[i]?).map fun t => t.after (lastWrite? (r.log outputs) i) := by
  induction r generalizing outputs with
  | finish state verdict => simp [exec, log, lastWrite?_nil, Tensor.after]
  | inspect output next ih => exact ih _ outputs
  | write output payload next ih =>
    rcases writeAt_cases outputs output payload with ⟨t, found, -, taken⟩ | ⟨e, refused⟩
    -- a later write to the place forgets this one, and otherwise it is the last
    · simp only [exec, log, taken, ih, lastWrite?_cons]
      by_cases here : output = i
      · subst here
        simp [List.getElem?_set_self', found, Tensor.stored_after]
      · simp [List.getElem?_set_ne here, here]
    · simp only [exec, log, refused]
      exact ih _ outputs

/- Successful writes keep type and shape, so the outputs from before the run still tell what
each of them takes. -/
theorem fits_of_mem_log (r : Run σ) (outputs : List Tensor) {e : LogEntry}
    (mem : e ∈ r.log outputs) :
    ∃ t, outputs[e.output]? = some t ∧ e.payload.Fits t.elementType t.shape := by
  induction r generalizing outputs with
  | finish state verdict => cases mem
  | inspect output next ih => exact ih _ outputs mem
  | write output payload next ih =>
    rcases writeAt_cases outputs output payload with ⟨t, found, fits, taken⟩ | ⟨e, refused⟩
    · simp only [log, taken] at mem
      rcases List.mem_cons.mp mem with rfl | later
      · exact ⟨t, found, fits⟩
      · obtain ⟨t', found', fits'⟩ := ih _ _ later
        by_cases here : output = e.output
        · rw [here] at found
          simp only [here, List.getElem?_set_self', found] at found'
          obtain rfl := Option.some.inj found'
          exact ⟨t, found, fits'⟩
        · rw [List.getElem?_set_ne here] at found'
          exact ⟨t', found', fits'⟩
    · simp only [log, refused] at mem
      exact ih _ outputs mem

end Run

end TensorCall
