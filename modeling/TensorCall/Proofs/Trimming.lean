import Mathlib
import TensorCall.Text

namespace TensorCall.Text

def Blank (s : List Char) : Prop := ∀ c ∈ s, isBlank c = true

structure Bare (t : List Char) : Prop where
  head : ∀ c ∈ t.head?, isBlank c = false
  last : ∀ c ∈ t.getLast?, isBlank c = false

/-- `t` is the text `s` without the blanks around it. -/
def Trims (s t : List Char) : Prop :=
  ∃ before after, s = before ++ t ++ after ∧ Blank before ∧ Blank after ∧ Bare t

theorem dropWhile_isBlank_of_head {t : List Char} (h : ∀ c ∈ t.head?, isBlank c = false) :
    t.dropWhile isBlank = t := by
  cases t with
  | nil => rfl
  | cons c t =>
    have stays : isBlank c = false := h c rfl
    simp [stays]

theorem head?_trimStart (s : List Char) : ∀ c ∈ (trimStart s).head?, isBlank c = false := by
  intro c mem
  have first := List.head?_dropWhile_not isBlank s
  rw [show (s.dropWhile isBlank).head? = some c from mem] at first
  exact first

theorem trimStart_append {before rest : List Char} (blank : Blank before)
    (head : ∀ c ∈ rest.head?, isBlank c = false) : trimStart (before ++ rest) = rest := by
  rw [trimStart, List.dropWhile_append_of_pos blank, dropWhile_isBlank_of_head head]

theorem exists_trimStart (s : List Char) : ∃ before, s = before ++ trimStart s ∧ Blank before := by
  refine ⟨s.takeWhile isBlank, List.takeWhile_append_dropWhile.symm, ?_⟩
  intro c mem
  exact List.mem_takeWhile_imp mem

theorem reverse_trimEnd (s : List Char) : (trimEnd s).reverse = trimStart s.reverse :=
  List.reverse_reverse _

theorem trimEnd_append {rest after : List Char} (blank : Blank after)
    (last : ∀ c ∈ rest.getLast?, isBlank c = false) : trimEnd (rest ++ after) = rest := by
  apply List.reverse_injective
  rw [reverse_trimEnd, List.reverse_append]
  apply trimStart_append
  · intro c mem
    exact blank c (List.mem_reverse.mp mem)
  · rwa [List.head?_reverse]

theorem exists_trimEnd (s : List Char) : ∃ after, s = trimEnd s ++ after ∧ Blank after := by
  obtain ⟨before, split, blank⟩ := exists_trimStart s.reverse
  refine ⟨before.reverse, ?_, fun c mem => blank c (List.mem_reverse.mp mem)⟩
  apply List.reverse_injective
  rw [List.reverse_append, List.reverse_reverse, reverse_trimEnd]
  exact split

/- The second pass takes nothing from the front: a text that has lost its last blanks is a
part of the one before from its first character on. -/
theorem bare_trim (s : List Char) : Bare (trim s) where
  head := by
    intro c mem
    obtain ⟨after, split, -⟩ := exists_trimEnd (trimStart s)
    apply head?_trimStart s c
    rw [split, List.head?_append, show (trimEnd (trimStart s)).head? = some c from mem]
    rfl
  last := by
    intro c mem
    rw [← List.head?_reverse, trim, reverse_trimEnd] at mem
    exact head?_trimStart _ c mem

theorem trims_trim (s : List Char) : Trims s (trim s) := by
  obtain ⟨before, front, blank⟩ := exists_trimStart s
  obtain ⟨after, back, blank'⟩ := exists_trimEnd (trimStart s)
  refine ⟨before, after, ?_, blank, blank', bare_trim s⟩
  rw [trim, List.append_assoc, ← back]
  exact front

theorem trim_eq_nil_of_blank {s : List Char} (h : Blank s) : trim s = [] := by
  have start : trimStart s = [] := List.dropWhile_eq_nil_iff.mpr h
  rw [trim, start]
  rfl

theorem trim_eq_iff {s t : List Char} : trim s = t ↔ Trims s t := by
  constructor
  · rintro rfl
    exact trims_trim s
  · rintro ⟨before, after, rfl, blank, blank', bare⟩
    cases t with
    | nil =>
      apply trim_eq_nil_of_blank
      intro c mem
      rw [List.append_nil] at mem
      exact (List.mem_append.mp mem).elim (blank c) (blank' c)
    | cons c t =>
      have front : trimStart (before ++ (c :: t ++ after)) = c :: t ++ after :=
        trimStart_append blank fun d mem => bare.head d mem
      rw [List.append_assoc, trim, front]
      exact trimEnd_append blank' bare.last

theorem trim_eq_nil_iff {s : List Char} : trim s = [] ↔ Blank s := by
  constructor
  · intro h
    obtain ⟨before, after, split, blank, blank', -⟩ := trim_eq_iff.mp h
    intro c mem
    rw [split, List.append_nil] at mem
    exact (List.mem_append.mp mem).elim (blank c) (blank' c)
  · exact trim_eq_nil_of_blank

theorem Bare.trims {t : List Char} (h : Bare t) : Trims t t :=
  ⟨[], [], by simp, by simp [Blank], by simp [Blank], h⟩

theorem Trims.cons {s t : List Char} {c : Char} (blank : isBlank c = true) (h : Trims s t) :
    Trims (c :: s) t := by
  obtain ⟨before, after, rfl, front, back, bare⟩ := h
  refine ⟨c :: before, after, rfl, ?_, back, bare⟩
  intro d mem
  rcases List.mem_cons.mp mem with rfl | later
  · exact blank
  · exact front d later

end TensorCall.Text
