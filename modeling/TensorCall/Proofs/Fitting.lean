import Mathlib
import TensorCall.Executable
import TensorCall.Proofs.Sequencing

namespace TensorCall

section
variable {check : Slot → Nat → Tensor → Except Error Unit}

theorem checkEach_eq_ok_iff {index : Nat} {slots : List Slot} {tensors : List Tensor} :
    checkEach check index slots tensors = .ok () ↔
      ∀ i slot t, slots[i]? = some slot → tensors[i]? = some t →
        check slot (index + i) t = .ok () := by
  induction slots generalizing index tensors with
  | nil => simp [checkEach]
  | cons slot slots ih =>
    cases tensors with
    | nil => simp [checkEach]
    | cons t tensors =>
      simp only [checkEach, check_bind_eq_ok_iff, ih]
      constructor
      · rintro ⟨first, rest⟩ i slot' t' atSlot atTensor
        cases i with
        | zero =>
          cases atSlot
          cases atTensor
          exact first
        | succ i =>
          have later := rest i slot' t' atSlot atTensor
          rwa [Nat.add_assoc, Nat.add_comm 1 i] at later
      · intro all
        refine ⟨all 0 slot t rfl rfl, ?_⟩
        intro i slot' t' atSlot atTensor
        have later := all (i + 1) slot' t' atSlot atTensor
        rwa [Nat.add_assoc, Nat.add_comm 1 i]

end

namespace Slot

theorem checkInput_eq_ok_iff {parameter : Slot} {index : Nat} {t : Tensor} :
    parameter.checkInput index t = .ok () ↔
      (parameter.elementType.IsStatic → parameter.elementType = t.elementType) ∧
        parameter.shape.Relaxes t.shape := by
  unfold checkInput
  split
  · next apart => simp [apart.1, apart.2]
  · next agree =>
    have typed : parameter.elementType.IsStatic → parameter.elementType = t.elementType := by
      intro static
      by_contra differ
      exact agree ⟨static, differ⟩
    split
    · next relaxes => exact iff_of_true rfl ⟨typed, relaxes⟩
    · next strict => exact iff_of_false nofun fun fits => strict fits.2

theorem checkOutput_eq_ok_iff {result : Slot} {index : Nat} {t : Tensor} :
    result.checkOutput index t = .ok () ↔
      (t.elementType.IsStatic → result.elementType.IsStatic →
        result.elementType = t.elementType) ∧ t.shape.Relaxes result.shape := by
  unfold checkOutput
  split
  · next apart => simp [apart.1, apart.2.1, apart.2.2]
  · next agree =>
    have typed : t.elementType.IsStatic → result.elementType.IsStatic →
        result.elementType = t.elementType := by
      intro static declared
      by_contra differ
      exact agree ⟨static, declared, differ⟩
    split
    · next relaxes => exact iff_of_true rfl ⟨typed, relaxes⟩
    · next strict => exact iff_of_false nofun fun fits => strict fits.2

end Slot

namespace Signature

theorem checkCount_eq_ok_iff {port : Port} {slots : List Slot} {tensors : List Tensor} :
    checkCount port slots tensors = .ok () ↔ slots.length = tensors.length := by
  unfold checkCount
  split <;> simp_all

theorem validate_eq_ok_iff {s : Signature} {b : Binding} :
    s.validate b = .ok () ↔
      s.parameters.length = b.inputs.length ∧ s.results.length = b.outputs.length ∧
      (∀ i (parameter : Slot) t, s.parameters[i]? = some parameter → b.inputs[i]? = some t →
        parameter.checkInput i t = .ok ()) ∧
      (∀ i (result : Slot) t, s.results[i]? = some result → b.outputs[i]? = some t →
        result.checkOutput i t = .ok ()) := by
  simp only [validate, check_bind_eq_ok_iff, checkCount_eq_ok_iff, checkEach_eq_ok_iff,
    Nat.zero_add]

end Signature

namespace Executable

variable {ε : Type} [Executable ε]

theorem callChecked_of_ok {x : ε} {b : Binding} (h : (signature x).validate b = .ok ()) :
    callChecked x b = call x b := by
  simp only [callChecked, validate, h]

theorem callChecked_of_error {x : ε} {b : Binding} {e : Error}
    (h : (signature x).validate b = .error e) : callChecked x b = ⟨.error e, b.outputs, x⟩ := by
  simp only [callChecked, validate, h]

end Executable

end TensorCall
