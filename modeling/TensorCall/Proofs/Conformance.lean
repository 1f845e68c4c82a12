import Mathlib
import TensorCall.Proofs.Fitting
import TensorCall.Proofs.HostCall

namespace TensorCall

structure Contents.Instance (c : Contents) (e : ElementType) (slot : Slot) : Prop where
  typed : slot.elementType.IsStatic → e = slot.elementType
  admitted : slot.shape.Admits c.dims

namespace Host

open Executable

variable {σ : Type}

theorem callChecked_eq_call {h : Host σ} {b : Binding} {written : Bool}
    (ok : (callChecked h b).verdict = .ok written) :
    h.signature.validate b = .ok () ∧ callChecked h b = h.call b := by
  cases fit : h.signature.validate b with
  | ok done => exact ⟨rfl, callChecked_of_ok (x := h) fit⟩
  | error e =>
    rw [callChecked_of_error (x := h) fit] at ok
    cases ok

theorem exists_lastWrite?_of_call {h : Host σ} {b : Binding} (ok : (h.call b).verdict = .ok true)
    {i : Nat} (lt : i < b.outputs.length) : ∃ p, lastWrite? (h.log b) i = some p := by
  have all : (h.call b).outputs.all Tensor.written = true := by
    rw [verdict_call] at ok
    split at ok
    · cases ok
    · exact Except.ok.inj ok
  have written := (h.all_written_call_iff b).mp all i lt
  cases last : lastWrite? (h.log b) i with
  | none => exact absurd written (lastWrite?_eq_none_iff.mp last)
  | some p => exact ⟨p, rfl⟩

/-- After a success every output holds what the kernel wrote to it last in this call. Its type
is the declared one wherever that is static, and its own shape admits the written lengths; the
declared shape admits them too if it is as general as the shape of the output. -/
theorem written_instance {h : Host σ} {b : Binding}
    (ok : (callChecked h b).verdict = .ok true) :
    h.signature.results.length = (callChecked h b).outputs.length ∧
    ∀ i t result, (callChecked h b).outputs[i]? = some t →
      h.signature.results[i]? = some result →
      ∃ p, lastWrite? (h.log b) i = some p ∧ t.contents = some p.contents ∧
        (∃ t₀, b.outputs[i]? = some t₀ ∧ t₀.elementType = t.elementType ∧ t₀.shape = t.shape) ∧
        (result.elementType.IsStatic → t.elementType = result.elementType) ∧
        t.shape.Relaxes result.shape ∧ t.shape.Admits p.dims ∧
        (result.shape.Relaxes t.shape → p.contents.Instance t.elementType result) := by
  obtain ⟨fit, called⟩ := callChecked_eq_call ok
  rw [called] at ok ⊢
  obtain ⟨-, count, -, outputs⟩ := Signature.validate_eq_ok_iff.mp fit
  refine ⟨count.trans (h.length_call b).symm, ?_⟩
  intro i t result atOutput atResult
  rw [getElem?_call, Option.map_eq_some_iff] at atOutput
  obtain ⟨t₀, found, rfl⟩ := atOutput
  obtain ⟨p, last⟩ := exists_lastWrite?_of_call ok (List.getElem?_eq_some_iff.mp found).1
  obtain ⟨old, here, fits⟩ := Run.fits_of_mem_log _ _ (mem_of_lastWrite? last)
  rw [List.getElem?_map, found] at here
  obtain rfl := Option.some.inj here
  obtain ⟨agree, relaxes⟩ := Slot.checkOutput_eq_ok_iff.mp (outputs i result t₀ atResult found)
  have static : t₀.elementType.IsStatic := fits.contents.typed
  have typed : result.elementType.IsStatic → t₀.elementType = result.elementType :=
    fun declared => (agree static declared).symm
  rw [last]
  refine ⟨p, rfl, rfl, ⟨t₀, found, rfl, rfl⟩, typed, relaxes, fits.admitted, ?_⟩
  intro general
  exact ⟨typed, PartialShape.admits_of_relaxes general fits.admitted⟩

/- Two values are written to an output of the declared shape `[?]`. -/
theorem written_instance_declared :
    let result : Slot := ⟨"y", .u8, .ranked [.unknown]⟩
    let h : Host Nat := ⟨"f", ⟨[], [result]⟩, 2, Script.kernel [[.write 0 ⟨.u8, [7, 8], [2]⟩]], 0⟩
    let b : Binding := ⟨[], [.unallocated .u8 (.ranked [.unknown])]⟩
    (callChecked h b).verdict = .ok true ∧
      ∃ t c, (callChecked h b).outputs[0]? = some t ∧ t.contents = some c ∧ c.dims = [2] ∧
        c.Instance t.elementType result := by
  intro result h b
  have ok : (callChecked h b).verdict = .ok true := rfl
  obtain ⟨p, last, contents, -, -, -, -, declared⟩ :=
    (written_instance ok).2 0 ⟨.u8, result.shape, some ⟨[7, 8], [2]⟩, true⟩ result rfl rfl
  cases last
  exact ⟨ok, _, _, rfl, contents, rfl, declared (PartialShape.relaxes_refl _)⟩

/-- An output of unknown rank fits a result of shape `[2]`, and a kernel that writes three
values to it succeeds: what the output holds then is no instance of the result. -/
theorem written_beyond_result :
    let result : Slot := ⟨"y", .u8, .static [2]⟩
    let h : Host Nat := ⟨"f", ⟨[], [result]⟩, 2, Script.kernel [[.write 0 ⟨.u8, [1, 2, 3], [3]⟩]], 0⟩
    let b : Binding := ⟨[], [.unallocated .u8 .unranked]⟩
    (callChecked h b).verdict = .ok true ∧
      ∃ t c, (callChecked h b).outputs[0]? = some t ∧ t.contents = some c ∧
        ¬ c.Instance t.elementType result := by
  intro result h b
  refine ⟨rfl, _, _, rfl, rfl, ?_⟩
  intro inst
  have refused : ¬ (PartialShape.static [2]).Admits [3] := by decide
  exact refused inst.admitted

end Host

end TensorCall
