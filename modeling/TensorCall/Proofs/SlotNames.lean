import Mathlib
import TensorCall.Signature
import TensorCall.Proofs.Sequencing

namespace TensorCall

/-- The name at place `i` is not empty, and it was seen or stands at an earlier place. -/
def Reoccurs (seen names : List String) (i : Nat) : Prop :=
  ∃ name, names[i]? = some name ∧ name ≠ "" ∧ (name ∈ seen ∨ name ∈ names.take i)

section
variable {seen names : List String} {name : String} {i : Nat}

theorem not_reoccurs_nil : ¬ Reoccurs seen [] i := by
  simp [Reoccurs]

theorem reoccurs_zero : Reoccurs seen (name :: names) 0 ↔ name ≠ "" ∧ name ∈ seen := by
  simp [Reoccurs]

theorem reoccurs_succ :
    Reoccurs seen (name :: names) (i + 1) ↔ Reoccurs (name :: seen) names i := by
  simp only [Reoccurs, List.getElem?_cons_succ, List.take_succ_cons, List.mem_cons, or_left_comm,
    or_assoc]

theorem forall_not_reoccurs_cons (fresh : ¬ Reoccurs seen (name :: names) 0) :
    (∀ i, ¬ Reoccurs seen (name :: names) i) ↔ ∀ i, ¬ Reoccurs (name :: seen) names i := by
  simp only [← reoccurs_succ]
  constructor
  · intro none i
    exact none (i + 1)
  · intro none i
    cases i with
    | zero => exact fresh
    | succ i => exact none i

theorem isLeast_reoccurs_zero (again : Reoccurs seen (name :: names) 0) :
    IsLeast {i | Reoccurs seen (name :: names) i} i ↔ i = 0 := by
  have least : IsLeast {i | Reoccurs seen (name :: names) i} 0 := ⟨again, fun j _ => Nat.zero_le j⟩
  constructor
  · intro h
    exact h.unique least
  · rintro rfl
    exact least

theorem isLeast_reoccurs_succ (fresh : ¬ Reoccurs seen (name :: names) 0) :
    IsLeast {i | Reoccurs seen (name :: names) i} (i + 1) ↔
      IsLeast {i | Reoccurs (name :: seen) names i} i := by
  refine and_congr reoccurs_succ ⟨fun below j again => ?_, fun below j again => ?_⟩
  · exact Nat.le_of_succ_le_succ (below (reoccurs_succ.mpr again))
  · cases j with
    | zero => exact absurd again fresh
    | succ j => exact Nat.succ_le_succ (below (reoccurs_succ.mp again))

/- The walk adds each name to those seen, so the induction is over any list of these. -/
theorem firstRepeated?_eq_none_iff :
    firstRepeated? seen names = none ↔ ∀ i, ¬ Reoccurs seen names i := by
  induction names generalizing seen with
  | nil => simp [firstRepeated?, not_reoccurs_nil]
  | cons name names ih =>
    by_cases again : Reoccurs seen (name :: names) 0
    · simp only [firstRepeated?, if_pos (reoccurs_zero.mp again), reduceCtorEq, false_iff]
      intro none
      exact none 0 again
    · rw [forall_not_reoccurs_cons again, ← ih]
      simp only [firstRepeated?, if_neg (mt reoccurs_zero.mpr again)]

theorem firstRepeated?_eq_some_iff :
    firstRepeated? seen names = some name ↔
      ∃ i, IsLeast {i | Reoccurs seen names i} i ∧ names[i]? = some name := by
  induction names generalizing seen with
  | nil => simp [firstRepeated?]
  | cons first names ih =>
    by_cases again : Reoccurs seen (first :: names) 0
    · simp [firstRepeated?, if_pos (reoccurs_zero.mp again), isLeast_reoccurs_zero again]
    · have later : firstRepeated? seen (first :: names) = firstRepeated? (first :: seen) names := by
        simp only [firstRepeated?, if_neg (mt reoccurs_zero.mpr again)]
      rw [later, ih]
      constructor
      · rintro ⟨i, least, here⟩
        exact ⟨i + 1, (isLeast_reoccurs_succ again).mpr least, here⟩
      · rintro ⟨i, least, here⟩
        cases i with
        | zero => exact absurd least.1 again
        | succ i => exact ⟨i, (isLeast_reoccurs_succ again).mp least, here⟩

end

namespace Slot

def NamesApart (slots : List Slot) : Prop :=
  slots.Pairwise fun a b => a.name = b.name → a.name = ""

def Repeats (slots : List Slot) (i : Nat) : Prop :=
  ∃ slot, slots[i]? = some slot ∧ slot.name ≠ "" ∧
    ∃ earlier ∈ slots.take i, earlier.name = slot.name

def FirstRepeats (slots : List Slot) (slot : Slot) : Prop :=
  ∃ i, IsLeast {i | Repeats slots i} i ∧ slots[i]? = some slot

variable {slots : List Slot} {i : Nat}

theorem reoccurs_names_iff : Reoccurs [] (slots.map Slot.name) i ↔ Repeats slots i := by
  simp only [Reoccurs, Repeats, List.getElem?_map, Option.map_eq_some_iff, ← List.map_take,
    List.mem_map, List.not_mem_nil, false_or]
  constructor
  · rintro ⟨_, ⟨slot, here, rfl⟩, named, earlier⟩
    exact ⟨slot, here, named, earlier⟩
  · rintro ⟨slot, here, named, earlier⟩
    exact ⟨_, ⟨slot, here, rfl⟩, named, earlier⟩

theorem firstRepeated?_names_eq_some_iff {name : String} :
    firstRepeated? [] (slots.map Slot.name) = some name ↔
      ∃ slot, FirstRepeats slots slot ∧ slot.name = name := by
  simp only [firstRepeated?_eq_some_iff, reoccurs_names_iff, List.getElem?_map,
    Option.map_eq_some_iff, FirstRepeats]
  constructor
  · rintro ⟨i, least, slot, here, named⟩
    exact ⟨slot, ⟨i, least, here⟩, named⟩
  · rintro ⟨slot, ⟨i, least, here⟩, named⟩
    exact ⟨i, least, slot, here, named⟩

theorem namesApart_iff : NamesApart slots ↔ ∀ i, ¬ Repeats slots i := by
  simp only [NamesApart, List.pairwise_iff_getElem]
  constructor
  · rintro apart i ⟨slot, here, named, earlier, before, same⟩
    obtain ⟨below, rfl⟩ := List.getElem?_eq_some_iff.mp here
    obtain ⟨j, lt, rfl⟩ := List.mem_take_iff_getElem.mp before
    have none := apart j i (by omega) below (by omega) same
    exact named (same ▸ none)
  · intro none j i before below lt same
    by_contra named
    refine none i ⟨slots[i], List.getElem?_eq_getElem below, same ▸ named, slots[j], ?_, same⟩
    exact List.mem_take_iff_getElem.mpr ⟨j, by omega, rfl⟩

end Slot

namespace CompiledFunction

open Slot

variable {function : String} {port : Port} {slots parameters results : List Slot}
  {e : DeclarationError}

theorem uniqueNames_eq_ok_iff : uniqueNames function port slots = .ok () ↔ NamesApart slots := by
  simp only [namesApart_iff, ← reoccurs_names_iff, ← firstRepeated?_eq_none_iff, uniqueNames]
  cases firstRepeated? [] (slots.map Slot.name) with
  | none => simp
  | some name => simp

theorem uniqueNames_eq_error_iff :
    uniqueNames function port slots = .error e ↔
      ∃ slot, FirstRepeats slots slot ∧ e = .repeatedName function port slot.name := by
  have refused : uniqueNames function port slots = .error e ↔
      ∃ name, firstRepeated? [] (slots.map Slot.name) = some name ∧
        e = .repeatedName function port name := by
    simp only [uniqueNames]
    cases firstRepeated? [] (slots.map Slot.name) with
    | none => simp
    | some name => simp [eq_comm]
  simp only [refused, firstRepeated?_names_eq_some_iff]
  constructor
  · rintro ⟨_, ⟨slot, first, rfl⟩, rfl⟩
    exact ⟨slot, first, rfl⟩
  · rintro ⟨slot, first, rfl⟩
    exact ⟨slot.name, ⟨slot, first, rfl⟩, rfl⟩

theorem declare_eq_ok_iff {f : CompiledFunction} :
    declare function parameters results = .ok f ↔
      NamesApart parameters ∧ NamesApart results ∧ f = ⟨function, ⟨parameters, results⟩⟩ := by
  simp only [declare, check_bind_eq_ok_iff, uniqueNames_eq_ok_iff]
  refine and_congr_right fun _ => and_congr_right fun _ => ?_
  exact ⟨fun done => (Except.ok.inj done).symm, fun same => same ▸ rfl⟩

theorem declare_eq_error_iff :
    declare function parameters results = .error e ↔
      (∃ slot, FirstRepeats parameters slot ∧ e = .repeatedName function .input slot.name) ∨
      NamesApart parameters ∧
        ∃ slot, FirstRepeats results slot ∧ e = .repeatedName function .output slot.name := by
  simp only [declare, check_bind_eq_error_iff, uniqueNames_eq_ok_iff, uniqueNames_eq_error_iff]
  simp [pure, Except.pure]

theorem message_repeatedName (repeated : String) :
    (DeclarationError.repeatedName function port repeated).message =
      (DeclarationError.invalidFunction ("function '" ++ function ++ "' declares " ++
        port.slotText ++ " '" ++ repeated ++ "' more than once")).message := by
  have opening : "Invalid function: function '" = "Invalid function: " ++ "function '" := by simp
  unfold DeclarationError.message
  simp only [opening, String.append_assoc]

/-- A function can be declared, with the slots as given, exactly if on neither side two slots share
a name other than the empty one. Otherwise the first name to repeat is reported: among the
parameters, or only if none of their names does, among the results. -/
theorem declared_unless_repeated (function : String) (parameters results : List Slot) :
    (∀ f, declare function parameters results = .ok f ↔
      NamesApart parameters ∧ NamesApart results ∧ f = ⟨function, ⟨parameters, results⟩⟩) ∧
    (∀ e, declare function parameters results = .error e ↔
      (∃ slot, FirstRepeats parameters slot ∧ e = .repeatedName function .input slot.name) ∨
      NamesApart parameters ∧
        ∃ slot, FirstRepeats results slot ∧ e = .repeatedName function .output slot.name) ∧
    ∀ port repeated, (DeclarationError.repeatedName function port repeated).message =
      (DeclarationError.invalidFunction ("function '" ++ function ++ "' declares " ++
        port.slotText ++ " '" ++ repeated ++ "' more than once")).message :=
  ⟨fun _ => declare_eq_ok_iff, fun _ => declare_eq_error_iff, fun _ => message_repeatedName⟩

/- The third name is the second empty one, and the fifth is the first to stand twice. -/
example :
    let slot (name : String) : Slot := ⟨name, .f32, .unranked⟩
    declare "f" [slot "x", slot "", slot "", slot "y", slot "y", slot "x"] [slot "z", slot "z"] =
      .error (.repeatedName "f" .input "y") := by
  decide

end CompiledFunction

end TensorCall
