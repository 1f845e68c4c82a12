import Mathlib
import TensorCall.Proofs.Fitting

namespace TensorCall

def Error.IsMismatch : Error → Prop
  | .countMismatch .. | .typeMismatch .. | .shapeMismatch .. => True
  | _ => False

def Binding.tensors (b : Binding) : Port → List Tensor
  | .input => b.inputs
  | .output => b.outputs

def Error.place? : Error → Option (Port × Nat)
  | .typeMismatch port i _ _ | .shapeMismatch port i _ _ => some (port, i)
  | _ => none

namespace Slot

/-- An open type of an output is as good as any; an open type of an input is not. -/
def TypeFits (slot : Slot) (t : Tensor) : Port → Prop
  | .input => slot.elementType = .dynamic ∨ slot.elementType = t.elementType
  | .output => t.elementType = .dynamic ∨ slot.elementType = .dynamic ∨
      slot.elementType = t.elementType

def ShapeFits (slot : Slot) (t : Tensor) : Port → Prop
  | .input => slot.shape.Relaxes t.shape
  | .output => t.shape.Relaxes slot.shape

def expectedShape (slot : Slot) : Port → PartialShape
  | .input => slot.shape
  | .output => slot.shape.largest

def check : Port → Slot → Nat → Tensor → Except Error Unit
  | .input => checkInput
  | .output => checkOutput

variable {port : Port} {slot : Slot} {i : Nat} {t : Tensor} {e : Error}

theorem check_eq_ok_iff :
    check port slot i t = .ok () ↔ slot.TypeFits t port ∧ slot.ShapeFits t port := by
  cases port with
  | input => exact checkInput_eq_ok_iff.trans (and_congr_left fun _ => or_iff_not_imp_left.symm)
  | output =>
    refine checkOutput_eq_ok_iff.trans (and_congr_left fun _ => ?_)
    exact (or_iff_not_imp_left.trans (imp_congr_right fun _ => or_iff_not_imp_left)).symm

theorem of_check_eq_error (h : check port slot i t = .error e) :
    (¬ slot.TypeFits t port ∧ e = .typeMismatch port i slot.elementType t.elementType) ∨
      (slot.TypeFits t port ∧ e = .shapeMismatch port i (slot.expectedShape port) t.shape) := by
  cases port with
  | input =>
    simp only [check, checkInput] at h
    split at h
    · next apart =>
      cases h
      exact .inl ⟨not_or.mpr apart, rfl⟩
    · next agree =>
      split at h
      · cases h
      · cases h
        exact .inr ⟨not_not.mp fun apart => agree (not_or.mp apart), rfl⟩
  | output =>
    simp only [check, checkOutput] at h
    split at h
    · next apart =>
      cases h
      refine .inl ⟨?_, rfl⟩
      rintro (opened | declared | same)
      · exact apart.1 opened
      · exact apart.2.1 declared
      · exact apart.2.2 same
    · next agree =>
      split at h
      · cases h
      · cases h
        refine .inr ⟨not_not.mp fun apart => agree ?_, rfl⟩
        obtain ⟨static, rest⟩ := not_or.mp apart
        exact ⟨static, not_or.mp rest⟩

theorem check_eq_error_iff :
    check port slot i t = .error e ↔
      (¬ slot.TypeFits t port ∧ e = .typeMismatch port i slot.elementType t.elementType) ∨
      (slot.TypeFits t port ∧ ¬ slot.ShapeFits t port ∧
        e = .shapeMismatch port i (slot.expectedShape port) t.shape) := by
  have ok : check port slot i t = .ok () ↔ slot.TypeFits t port ∧ slot.ShapeFits t port :=
    check_eq_ok_iff
  cases checked : check port slot i t with
  | ok done =>
    obtain ⟨typed, shaped⟩ := ok.mp checked
    simp [typed, shaped]
  | error e' =>
    have refused : ¬ (slot.TypeFits t port ∧ slot.ShapeFits t port) := by
      rw [← ok, checked]
      nofun
    rcases of_check_eq_error checked with ⟨apart, rfl⟩ | ⟨typed, rfl⟩
    · simp [apart, eq_comm]
    · have shaped : ¬ slot.ShapeFits t port := fun shaped => refused ⟨typed, shaped⟩
      simp [typed, shaped, eq_comm]

end Slot

section
variable {check : Slot → Nat → Tensor → Except Error Unit}

/- The walk is over two lists at once from any index on, so the places before the failing
one are counted from where the walk began. -/
theorem checkEach_eq_error_iff {index : Nat} {slots : List Slot} {tensors : List Tensor}
    {e : Error} :
    checkEach check index slots tensors = .error e ↔
      ∃ i slot t, slots[i]? = some slot ∧ tensors[i]? = some t ∧
        check slot (index + i) t = .error e ∧
        ∀ j < i, ∀ slot t, slots[j]? = some slot → tensors[j]? = some t →
          check slot (index + j) t = .ok () := by
  induction slots generalizing index tensors with
  | nil => simp [checkEach]
  | cons slot slots ih =>
    cases tensors with
    | nil => simp [checkEach]
    | cons t tensors =>
      simp only [checkEach, check_bind_eq_error_iff, ih]
      constructor
      · rintro (first | ⟨first, i, slot', t', atSlot, atTensor, failed, earlier⟩)
        · exact ⟨0, slot, t, rfl, rfl, first, fun j lt => absurd lt (Nat.not_lt_zero j)⟩
        -- a place of the rest is one further in the whole
        · refine ⟨i + 1, slot', t', atSlot, atTensor, ?_, ?_⟩
          · rwa [Nat.add_assoc, Nat.add_comm 1 i] at failed
          · intro j lt slot'' t'' here there
            cases j with
            | zero =>
              cases here
              cases there
              exact first
            | succ j =>
              have before := earlier j (Nat.lt_of_succ_lt_succ lt) slot'' t'' here there
              rwa [Nat.add_assoc, Nat.add_comm 1 j] at before
      · rintro ⟨i, slot', t', atSlot, atTensor, failed, earlier⟩
        cases i with
        | zero =>
          cases atSlot
          cases atTensor
          exact .inl failed
        | succ i =>
          refine .inr ⟨earlier 0 (Nat.succ_pos i) slot t rfl rfl, ?_⟩
          refine ⟨i, slot', t', atSlot, atTensor, ?_, ?_⟩
          · rwa [Nat.add_assoc, Nat.add_comm 1 i]
          · intro j lt slot'' t'' here there
            have before := earlier (j + 1) (Nat.succ_lt_succ lt) slot'' t'' here there
            rwa [Nat.add_assoc, Nat.add_comm 1 j]

end

namespace Signature

section
variable (s : Signature) (b : Binding)

def CountFits (port : Port) : Prop := (s.slots port).length = (b.tensors port).length

def FitsAt (port : Port) (i : Nat) : Prop :=
  ∀ slot t, (s.slots port)[i]? = some slot → (b.tensors port)[i]? = some t →
    slot.TypeFits t port ∧ slot.ShapeFits t port

structure Accepts : Prop where
  counts : ∀ port, s.CountFits b port
  places : ∀ port i, s.FitsAt b port i

/-- Nothing is wrong before the place: not with a count, not with an input if the place is an
output, not with an earlier place of the port. -/
structure ClearUpTo (port : Port) (i : Nat) : Prop where
  counts : ∀ port, s.CountFits b port
  inputs : port = .output → ∀ j, s.FitsAt b .input j
  earlier : ∀ j < i, s.FitsAt b port j

inductive Refuses : Error → Prop where
  | inputCount : ¬ s.CountFits b .input →
      Refuses (.countMismatch .input s.parameters.length b.inputs.length)
  | outputCount : s.CountFits b .input → ¬ s.CountFits b .output →
      Refuses (.countMismatch .output s.results.length b.outputs.length)
  | type {port : Port} {i : Nat} {slot : Slot} {t : Tensor} : s.ClearUpTo b port i →
      (s.slots port)[i]? = some slot → (b.tensors port)[i]? = some t →
      ¬ slot.TypeFits t port → Refuses (.typeMismatch port i slot.elementType t.elementType)
  | shape {port : Port} {i : Nat} {slot : Slot} {t : Tensor} : s.ClearUpTo b port i →
      (s.slots port)[i]? = some slot → (b.tensors port)[i]? = some t →
      slot.TypeFits t port → ¬ slot.ShapeFits t port →
      Refuses (.shapeMismatch port i (slot.expectedShape port) t.shape)

def checkPort (port : Port) : Except Error Unit :=
  checkEach (Slot.check port) 0 (s.slots port) (b.tensors port)

end

variable {s : Signature} {b : Binding} {port : Port} {e : Error}

theorem checkPort_eq_ok_iff : s.checkPort b port = .ok () ↔ ∀ i, s.FitsAt b port i := by
  simp only [checkPort, checkEach_eq_ok_iff, Slot.check_eq_ok_iff, FitsAt]

theorem refuses_of_checkPort (port : Port) (counts : ∀ port, s.CountFits b port)
    (inputs : port = .output → ∀ j, s.FitsAt b .input j) (h : s.checkPort b port = .error e) :
    s.Refuses b e := by
  obtain ⟨i, slot, t, declared, given, failed, before⟩ := checkEach_eq_error_iff.mp h
  have clear : s.ClearUpTo b port i := by
    refine ⟨counts, inputs, ?_⟩
    intro j lt slot' t' declared' given'
    exact Slot.check_eq_ok_iff.mp (before j lt slot' t' declared' given')
  rw [Nat.zero_add] at failed
  rcases Slot.check_eq_error_iff.mp failed with ⟨apart, rfl⟩ | ⟨typed, shaped, rfl⟩
  · exact .type clear declared given apart
  · exact .shape clear declared given typed shaped

theorem checkPort_eq_error {i : Nat} {slot : Slot} {t : Tensor} (clear : s.ClearUpTo b port i)
    (declared : (s.slots port)[i]? = some slot) (given : (b.tensors port)[i]? = some t)
    (failed : Slot.check port slot i t = .error e) : s.checkPort b port = .error e := by
  apply checkEach_eq_error_iff.mpr
  refine ⟨i, slot, t, declared, given, ?_, ?_⟩
  · rwa [Nat.zero_add]
  · intro j lt slot' t' declared' given'
    exact Slot.check_eq_ok_iff.mpr (clear.earlier j lt slot' t' declared' given')

theorem checkCount_eq_error_iff {slots : List Slot} {tensors : List Tensor} :
    checkCount port slots tensors = .error e ↔
      slots.length ≠ tensors.length ∧ e = .countMismatch port slots.length tensors.length := by
  unfold checkCount
  split
  · next same => simp [same]
  · next differ => simp [differ, eq_comm]

theorem validate_eq_error {i : Nat} {slot : Slot} {t : Tensor} (clear : s.ClearUpTo b port i)
    (declared : (s.slots port)[i]? = some slot) (given : (b.tensors port)[i]? = some t)
    (refused : Slot.check port slot i t = .error e) : s.validate b = .error e := by
  have input : checkCount .input s.parameters b.inputs = .ok () :=
    checkCount_eq_ok_iff.mpr (clear.counts .input)
  have output : checkCount .output s.results b.outputs = .ok () :=
    checkCount_eq_ok_iff.mpr (clear.counts .output)
  have failed : s.checkPort b port = .error e := checkPort_eq_error clear declared given refused
  refine check_bind_eq_error_iff.mpr (.inr ⟨input, ?_⟩)
  refine check_bind_eq_error_iff.mpr (.inr ⟨output, ?_⟩)
  cases port with
  | input => exact check_bind_eq_error_iff.mpr (.inl failed)
  | output =>
    have passed := checkPort_eq_ok_iff.mpr (clear.inputs rfl)
    exact check_bind_eq_error_iff.mpr (.inr ⟨passed, failed⟩)

theorem validate_eq_error_iff : s.validate b = .error e ↔ s.Refuses b e := by
  constructor
  · intro refused
    rcases check_bind_eq_error_iff.mp refused with input | ⟨input, rest⟩
    · obtain ⟨differ, rfl⟩ := checkCount_eq_error_iff.mp input
      exact .inputCount differ
    rcases check_bind_eq_error_iff.mp rest with output | ⟨output, rest⟩
    · obtain ⟨differ, rfl⟩ := checkCount_eq_error_iff.mp output
      exact .outputCount (checkCount_eq_ok_iff.mp input) differ
    have counts : ∀ port, s.CountFits b port
      | .input => checkCount_eq_ok_iff.mp input
      | .output => checkCount_eq_ok_iff.mp output
    rcases check_bind_eq_error_iff.mp rest with failed | ⟨passed, failed⟩
    · exact refuses_of_checkPort .input counts nofun failed
    · exact refuses_of_checkPort .output counts (fun _ => checkPort_eq_ok_iff.mp passed) failed
  · intro refused
    cases refused with
    | inputCount differ =>
      exact check_bind_eq_error_iff.mpr (.inl (checkCount_eq_error_iff.mpr ⟨differ, rfl⟩))
    | outputCount same differ =>
      have passed : checkCount .input s.parameters b.inputs = .ok () :=
        checkCount_eq_ok_iff.mpr same
      refine check_bind_eq_error_iff.mpr (.inr ⟨passed, ?_⟩)
      exact check_bind_eq_error_iff.mpr (.inl (checkCount_eq_error_iff.mpr ⟨differ, rfl⟩))
    | type clear declared given apart =>
      exact validate_eq_error clear declared given
        (Slot.check_eq_error_iff.mpr (.inl ⟨apart, rfl⟩))
    | shape clear declared given typed apart =>
      exact validate_eq_error clear declared given
        (Slot.check_eq_error_iff.mpr (.inr ⟨typed, apart, rfl⟩))

theorem isMismatch_of_validate (h : s.validate b = .error e) : e.IsMismatch := by
  cases validate_eq_error_iff.mp h <;> trivial

theorem validate_eq_ok_iff_accepts : s.validate b = .ok () ↔ s.Accepts b := by
  have passes : s.validate b = .ok () ↔ s.CountFits b .input ∧ s.CountFits b .output ∧
      s.checkPort b .input = .ok () ∧ s.checkPort b .output = .ok () := by
    simp only [validate, check_bind_eq_ok_iff, checkCount_eq_ok_iff]
    rfl
  rw [passes, checkPort_eq_ok_iff, checkPort_eq_ok_iff]
  constructor
  · rintro ⟨input, output, inputs, outputs⟩
    constructor
    · rintro (_ | _)
      · exact input
      · exact output
    · rintro (_ | _)
      · exact inputs
      · exact outputs
  · rintro ⟨counts, places⟩
    exact ⟨counts .input, counts .output, places .input, places .output⟩

theorem Refuses.at_place {i : Nat} (h : s.Refuses b e) (place : e.place? = some (port, i)) :
    s.ClearUpTo b port i ∧ ¬ s.FitsAt b port i := by
  cases h with
  | inputCount => cases place
  | outputCount => cases place
  | type clear declared given apart =>
    cases place
    exact ⟨clear, fun fits => apart (fits _ _ declared given).1⟩
  | shape clear declared given _ apart =>
    cases place
    exact ⟨clear, fun fits => apart (fits _ _ declared given).2⟩

/-- A binding is accepted exactly if both counts and every place fit, and else refused with the
first thing that is wrong. So the place of a mismatch is the least one of its port that does not
fit, and if it is an output, every input fits. -/
theorem validate_refuses_first (s : Signature) (b : Binding) :
    (s.validate b = .ok () ↔ s.Accepts b) ∧
    (∀ e, s.validate b = .error e ↔ s.Refuses b e) ∧
    ∀ e port i, s.validate b = .error e → e.place? = some (port, i) →
      IsLeast {j | ¬ s.FitsAt b port j} i ∧ (port = .output → ∀ j, s.FitsAt b .input j) := by
  refine ⟨validate_eq_ok_iff_accepts, fun e => validate_eq_error_iff, ?_⟩
  intro e port i refused place
  obtain ⟨clear, apart⟩ := (validate_eq_error_iff.mp refused).at_place place
  refine ⟨⟨apart, ?_⟩, clear.inputs⟩
  intro j misfit
  by_contra before
  exact misfit (clear.earlier j (Nat.lt_of_not_le before))

/- The second input has no known rank and the output is too narrow for its result: the input is
reported. With an input of rank one instead the output is, against the largest lengths. -/
theorem validate_refuses_first_mixed :
    let s : Signature := ⟨[⟨"a", .u8, .static [2]⟩, ⟨"b", .dynamic, .ranked [.unknown]⟩],
      [⟨"y", .f32, .ranked [.unknown, .fixed 3]⟩]⟩
    let a : Tensor := .unallocated .u8 (.static [2])
    let y : Tensor := .unallocated .f32 (.static [2, 3])
    let b : Binding := ⟨[a, .unallocated .i32 .unranked], [y]⟩
    let c : Binding := ⟨[a, .unallocated .i32 (.static [7])], [y]⟩
    (s.Refuses b (.shapeMismatch .input 1 (.ranked [.unknown]) .unranked) ∧
      IsLeast {j | ¬ s.FitsAt b .input j} 1) ∧
    (s.Refuses c (.shapeMismatch .output 0 (.static [Length.greatest, 3]) (.static [2, 3])) ∧
      ∀ j, s.FitsAt c .input j) := by
  intro s a y b c
  obtain ⟨-, first, least⟩ := validate_refuses_first s b
  obtain ⟨-, second, inputs⟩ := validate_refuses_first s c
  refine ⟨⟨(first _).mp rfl, (least _ _ _ rfl rfl).1⟩, ⟨(second _).mp rfl, ?_⟩⟩
  exact (inputs _ _ _ rfl rfl).2 rfl

end Signature

end TensorCall
