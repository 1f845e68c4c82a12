import Mathlib
import TensorCall.Proofs.ShapeGrammar

namespace TensorCall

namespace Text

theorem numeral_numeral (n : Nat) : Numeral (numeral n) n :=
  readNumeral?_eq_some_iff.mp (readNumeral?_numeral n)

theorem isDigit_of_mem_numeral {n : Nat} {c : Char} (h : c ∈ numeral n) : c.isDigit = true :=
  Nat.isDigit_of_mem_toDigits (by decide) (by decide) h

theorem bare_of_forall {t : List Char} (h : ∀ c ∈ t, isBlank c = false) : Bare t where
  head c mem := h c (List.mem_of_mem_head? mem)
  last c mem := h c (List.mem_of_getLast? mem)

end Text

namespace Dim

open Text

theorem spelled_chars (d : Dim) : d.Spelled d.chars := by
  cases d with
  | unknown =>
    have bare : Bare ['?'] := bare_of_forall fun c mem => List.mem_singleton.mp mem ▸ rfl
    exact bare.trims
  | fixed n =>
    have bare : Bare (numeral n.toNat) :=
      bare_of_forall fun c mem => isBlank_eq_false_of_isDigit (isDigit_of_mem_numeral mem)
    exact ⟨_, bare.trims, numeral_numeral n.toNat⟩

theorem Spelled.blank_cons {d : Dim} {token : List Char} {c : Char} (blank : isBlank c = true)
    (h : d.Spelled token) : d.Spelled (c :: token) := by
  cases d with
  | unknown => exact Trims.cons blank h
  | fixed n =>
    obtain ⟨digits, trims, value⟩ := h
    exact ⟨digits, trims.cons blank, value⟩

theorem AllSpelled.blank_cons {ds : List Dim} {body : List Char} {c : Char}
    (blank : isBlank c = true) (h : AllSpelled ds body) : AllSpelled ds (c :: body) := by
  cases h with
  | one spelled => exact .one (spelled.blank_cons blank)
  | cons spelled rest => exact .cons (spelled.blank_cons blank) rest

theorem allSpelled_chars (d : Dim) (ds : List Dim) :
    AllSpelled (d :: ds) (List.intercalate [',', ' '] ((d :: ds).map chars)) := by
  induction ds generalizing d with
  | nil => simpa using AllSpelled.one d.spelled_chars
  | cons next ds ih =>
    have rest := (ih next).blank_cons (show isBlank ' ' = true by decide)
    simpa [List.intercalate_cons_cons] using AllSpelled.cons d.spelled_chars rest

theorem eq_mark_or_isDigit_of_mem_chars {d : Dim} {c : Char} (h : c ∈ d.chars) :
    c = '?' ∨ c.isDigit = true := by
  cases d with
  | unknown => exact .inl (List.mem_singleton.mp h)
  | fixed n => exact .inr (isDigit_of_mem_numeral h)

end Dim

namespace PartialShape

open Text

theorem bare_bracketed (body : List Char) : Bare ('[' :: body ++ [']']) where
  head c mem := by
    obtain rfl := Option.some.inj mem
    decide
  last c mem := by
    rw [List.getLast?_concat] at mem
    obtain rfl := Option.some.inj mem
    decide

theorem spelled_chars (s : PartialShape) : s.Spelled s.chars := by
  cases s with
  | unranked => exact .inr (bare_bracketed ['.', '.', '.']).trims
  | ranked dims =>
    refine ⟨_, (bare_bracketed _).trims, ?_⟩
    cases dims with
    | nil => exact .inl ⟨nofun, rfl⟩
    | cons d ds => exact .inr (Dim.allSpelled_chars d ds)

theorem read?_chars (s : PartialShape) : read? s.chars = some s :=
  read?_eq_some_iff.mpr s.spelled_chars

/-- Reading the text of a shape gives the shape back. -/
theorem parse_text (s : PartialShape) : parse s.text = .ok s := by
  have chars : s.text.toList = s.chars := String.toList_ofList
  rw [parse, chars, read?_chars]

theorem chars_injective {s t : PartialShape} (h : s.chars = t.chars) : s = t := by
  have same := read?_chars s
  rw [h, read?_chars t] at same
  exact (Option.some.inj same).symm

theorem eq_of_mem_intercalate {dims : List Dim} {c : Char}
    (h : c ∈ List.intercalate [',', ' '] (dims.map Dim.chars)) :
    c = ',' ∨ c = ' ' ∨ c = '?' ∨ c.isDigit = true := by
  induction dims with
  | nil => cases h
  | cons d ds ih =>
    cases ds with
    | nil =>
      have own : c ∈ d.chars := by simpa using h
      exact .inr (.inr (Dim.eq_mark_or_isDigit_of_mem_chars own))
    | cons next ds =>
      rw [List.map_cons, List.map_cons, List.intercalate_cons_cons, ← List.map_cons,
        List.append_assoc, List.mem_append] at h
      rcases h with own | later
      · exact .inr (.inr (Dim.eq_mark_or_isDigit_of_mem_chars own))
      · rcases List.mem_cons.mp later with comma | later
        · exact .inl comma
        · rcases List.mem_cons.mp later with space | rest
          · exact .inr (.inl space)
          · exact ih rest

theorem not_mem_body (dims : List Dim) {c : Char} (close : c ≠ ']')
    (other : ¬ (c = ',' ∨ c = ' ' ∨ c = '?' ∨ c.isDigit = true)) :
    c ∉ List.intercalate [',', ' '] (dims.map Dim.chars) ++ [']'] := by
  intro mem
  rcases List.mem_append.mp mem with body | last
  · exact other (eq_of_mem_intercalate body)
  · exact close (List.mem_singleton.mp last)

theorem exists_chars_eq (s : PartialShape) :
    ∃ rest, s.chars = '[' :: rest ∧ '[' ∉ rest ∧ '\n' ∉ rest := by
  cases s with
  | unranked => exact ⟨['.', '.', '.', ']'], rfl, by decide, by decide⟩
  | ranked dims =>
    have bracket := not_mem_body dims (show '[' ≠ ']' by decide) (by decide)
    have newline := not_mem_body dims (show '\n' ≠ ']' by decide) (by decide)
    exact ⟨_, rfl, bracket, newline⟩

end PartialShape

end TensorCall
