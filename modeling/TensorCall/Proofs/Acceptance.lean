import Mathlib
import TensorCall.Proofs.Conformance
import TensorCall.Proofs.Outline

namespace TensorCall

def Tensor.Lived (t : Tensor) : Prop := ∃ t₀, Made t₀ ∧ t₀.Becomes t

theorem Tensor.Lived.sound {t : Tensor} (h : t.Lived) : t.Sound := by
  obtain ⟨t₀, made, changes⟩ := h
  exact changes.sound made.sound

/-- A result as declared: lengths that the declared shape admits and that have a count, as many
values, and those of the type `e`. -/
structure Payload.Answers (p : Payload) (result : Slot) (e : ElementType) : Prop where
  typed : p.scalar.elementType = e
  admitted : result.shape.Admits p.dims
  counted : ∃ n, elementCount? p.dims = some n ∧ p.values.length = n.toNat

theorem Payload.Answers.fits {p : Payload} {result : Slot} {e : ElementType} {s : PartialShape}
    (h : p.Answers result e) (room : s.Relaxes result.shape) : p.Fits e s := by
  obtain ⟨n, count, length⟩ := h.counted
  obtain ⟨counted, total⟩ := elementCount?_eq_some_iff.mp count
  exact ⟨h.typed, PartialShape.admits_of_relaxes room h.admitted, counted, length.trans total⟩

theorem writeAt_of_outline {outputs : List Tensor} {output : Nat} {o : Outline} {p : Payload}
    (found : (outlines outputs)[output]? = some o) (fits : p.Fits o.1 o.2) :
    (writeAt outputs output p).1 = .ok () := by
  rw [outlines, List.getElem?_map, Option.map_eq_some_iff] at found
  obtain ⟨t, here, rfl⟩ := found
  rw [writeAt_of_fits here fits]

namespace Run

variable {σ : Type}

/-- The writes that a run on these outputs tries, in order, each with the answer it gets. -/
def tried : Run σ → List Tensor → List (LogEntry × Except Error Unit)
  | .finish _ _, _ => []
  | .inspect output next, outputs => tried (next outputs[output]?) outputs
  | .write output payload next, outputs =>
    let (answer, outputs) := writeAt outputs output payload
    (⟨output, payload⟩, answer) :: tried (next answer) outputs

/- The log of the run is the part of it that was answered well. -/
theorem log_eq_tried (r : Run σ) (outputs : List Tensor) :
    r.log outputs = ((r.tried outputs).filter (·.2.isOk)).map Prod.fst := by
  induction r generalizing outputs with
  | finish state verdict => rfl
  | inspect output next ih => exact ih _ outputs
  | write output payload next ih =>
    rcases writeAt_cases outputs output payload with ⟨t, -, -, taken⟩ | ⟨e, refused⟩
    · simp [log, tried, taken, ih, Except.isOk, Except.toBool]
    · simp [log, tried, refused, ih, Except.isOk, Except.toBool]

/- A write keeps all outlines, so the outlines from before the run decide every answer. -/
theorem answer_of_fits (r : Run σ) (outputs : List Tensor) {e : LogEntry}
    {answer : Except Error Unit} {o : Outline} (mem : (e, answer) ∈ r.tried outputs)
    (found : (outlines outputs)[e.output]? = some o) (fits : e.payload.Fits o.1 o.2) :
    answer = .ok () := by
  induction r generalizing outputs with
  | finish state verdict => cases mem
  | inspect output next ih => exact ih _ outputs mem found
  | write output payload next ih =>
    rw [tried] at mem
    rcases List.mem_cons.mp mem with this | later
    · cases this
      exact writeAt_of_outline found fits
    · rw [← outlines_writeAt outputs output payload] at found
      exact ih _ _ later found

end Run

def Host.tried {σ : Type} (h : Host σ) (b : Binding) : List (LogEntry × Except Error Unit) :=
  (h.kernel h.state b.inputs).tried (b.outputs.map Tensor.beginCall)

namespace Signature

theorem instance_of_checkInput {parameter : Slot} {i : Nat} {t : Tensor} {c : Contents}
    (fit : parameter.checkInput i t = .ok ()) (fits : c.Fits t.elementType t.shape) :
    c.Instance t.elementType parameter := by
  obtain ⟨typed, relaxes⟩ := Slot.checkInput_eq_ok_iff.mp fit
  exact ⟨fun static => (typed static).symm, PartialShape.admits_of_relaxes relaxes fits.admitted⟩

/-- What an input holds is an instance of its parameter. An output takes every result that is as
declared and of its own type: at any moment of its life, and from the kernel of any host
executable during a call. -/
theorem accepted_never_refused {s : Signature} {b : Binding} (accepted : s.validate b = .ok ())
    (lived : ∀ t ∈ b.inputs, t.Lived) :
    s.parameters.length = b.inputs.length ∧ s.results.length = b.outputs.length ∧
    (∀ (i : Nat) (parameter : Slot) (t : Tensor) (c : Contents), s.parameters[i]? = some parameter →
      b.inputs[i]? = some t → t.contents = some c →
      c.Instance t.elementType parameter ∧ c.Fits t.elementType t.shape) ∧
    (∀ (i : Nat) (result : Slot) (t : Tensor),
      s.results[i]? = some result → b.outputs[i]? = some t →
      (result.elementType.IsStatic → t.elementType.IsStatic →
        t.elementType = result.elementType) ∧
      ∀ p : Payload, p.Answers result t.elementType →
        (∀ t', t.Becomes t' → t'.write p = (.ok (), t'.stored p)) ∧
        ∀ {σ : Type} (h : Host σ) answer, (⟨i, p⟩, answer) ∈ h.tried b → answer = .ok ()) := by
  obtain ⟨inputs, outputs, input, output⟩ := validate_eq_ok_iff.mp accepted
  refine ⟨inputs, outputs, ?_, ?_⟩
  · intro i parameter t c declared given held
    have fits := (lived t (List.mem_of_getElem? given)).sound.fits c held
    exact ⟨instance_of_checkInput (input i parameter t declared given) fits, fits⟩
  · intro i result t declared given
    obtain ⟨typed, room⟩ := Slot.checkOutput_eq_ok_iff.mp (output i result t declared given)
    refine ⟨fun static own => (typed own static).symm, ?_⟩
    intro p answers
    have fits : p.Fits t.elementType t.shape := answers.fits room
    constructor
    · intro t' changes
      -- what the tensor holds by then makes no difference
      obtain ⟨type, shape⟩ := changes.keeps
      exact Tensor.write_eq_ok_iff.mpr ⟨type ▸ shape ▸ fits, rfl⟩
    · intro σ h answer mem
      have found : (outlines (b.outputs.map Tensor.beginCall))[i]? = some t.outline := by
        simp [outlines, given]
      exact Run.answer_of_fits _ _ mem found fits

/- The output is of unknown rank. The kernel writes a result of length one to it, and then one
of length two without any values, which alone is refused. -/
theorem accepted_never_refused_open :
    let s : Signature := ⟨[⟨"x", .dynamic, .ranked [.unknown]⟩], [⟨"y", .u8, .ranked [.unknown]⟩]⟩
    let c : Contents := ⟨[7, 8], [2]⟩
    let p : Payload := ⟨.u8, [9], [1]⟩
    let y : Tensor := .unallocated .u8 .unranked
    let b : Binding := ⟨[.holding .u8 c], [y]⟩
    let h : Host Nat := ⟨"f", s, 2, Script.kernel [[.write 0 p, .write 0 ⟨.u8, [], [2]⟩]], 0⟩
    s.validate b = .ok () ∧ c.Instance .u8 ⟨"x", .dynamic, .ranked [.unknown]⟩ ∧
      y.write p = (.ok (), y.stored p) ∧
      ∃ answer, (⟨0, p⟩, answer) ∈ h.tried b ∧ answer = .ok () := by
  intro s c p y b h
  have accepted : s.validate b = .ok () := rfl
  have lived : ∀ t ∈ b.inputs, t.Lived := by
    intro t mem
    obtain rfl := List.mem_singleton.mp mem
    exact ⟨_, .ofValues (p := ⟨.u8, [7, 8], [2]⟩) rfl, .refl⟩
  obtain ⟨-, -, held, taken⟩ := accepted_never_refused accepted lived
  have answers : p.Answers ⟨"y", .u8, .ranked [.unknown]⟩ .u8 :=
    ⟨rfl, by decide, 1, by decide, rfl⟩
  obtain ⟨written, called⟩ := (taken 0 _ y rfl rfl).2 p answers
  have mem : (⟨0, p⟩, .ok ()) ∈ h.tried b := List.mem_cons_self
  exact ⟨accepted, (held 0 _ _ c rfl rfl rfl).1, written y .refl, _, mem, called h _ mem⟩

end Signature

end TensorCall
