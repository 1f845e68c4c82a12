import Mathlib
import TensorCall.Proofs.Trimming
import TensorCall.Shape

/-! The texts of a shape as a grammar, and the reader against it. Fields are not cut out of
the body here: a body is one token, or a token, a comma and a body. A token cannot hold a
comma, so the reader's cuts are the only ones. -/
namespace TensorCall

namespace Text

inductive Digits : List Char → Nat → Prop where
  | one {c : Char} : c.isDigit = true → Digits [c] (c.toNat - '0'.toNat)
  | more {s : List Char} {n : Nat} {c : Char} :
      Digits s n → c.isDigit = true → Digits (s ++ [c]) (10 * n + (c.toNat - '0'.toNat))

/-- Digits, with at most one plus sign in front. -/
inductive Numeral : List Char → Nat → Prop where
  | plain {s : List Char} {n : Nat} : Digits s n → Numeral s n
  | signed {s : List Char} {n : Nat} : Digits s n → Numeral ('+' :: s) n

theorem Digits.isDigit {s : List Char} {n : Nat} (h : Digits s n) :
    ∀ c ∈ s, c.isDigit = true := by
  induction h with
  | one digit => simpa using digit
  | more _ digit ih =>
    intro c mem
    rcases List.mem_append.mp mem with early | last
    · exact ih c early
    · exact List.mem_singleton.mp last ▸ digit

theorem Digits.ne_nil {s : List Char} {n : Nat} (h : Digits s n) : s ≠ [] := by
  cases h <;> simp

theorem Digits.value {s : List Char} {n : Nat} (h : Digits s n) :
    Nat.ofDigitChars 10 s 0 = n := by
  induction h with
  | one _ => simp [Nat.ofDigitChars]
  | more _ _ ih =>
    rw [Nat.ofDigitChars] at ih ⊢
    rw [List.foldl_append, ih]
    rfl

theorem digits_ofDigitChars {s : List Char} (nonempty : s ≠ [])
    (digits : ∀ c ∈ s, c.isDigit = true) : Digits s (Nat.ofDigitChars 10 s 0) := by
  induction s using List.reverseRecOn with
  | nil => exact absurd rfl nonempty
  | append_singleton s c ih =>
    have last : c.isDigit = true := digits c (by simp)
    have value : Nat.ofDigitChars 10 (s ++ [c]) 0 =
        10 * Nat.ofDigitChars 10 s 0 + (c.toNat - '0'.toNat) := by
      simp [Nat.ofDigitChars]
    rw [value]
    cases s with
    | nil => simpa [Nat.ofDigitChars] using Digits.one last
    | cons d s =>
      have early := ih (by simp) fun e mem => digits e (List.mem_append_left [c] mem)
      exact .more early last

theorem readDigits?_eq_some_iff {s : List Char} {n : Nat} :
    readDigits? s = some n ↔ Digits s n := by
  unfold readDigits?
  constructor
  · intro h
    split at h
    · next digits =>
      cases h
      exact digits_ofDigitChars digits.1 (List.all_eq_true.mp digits.2)
    · cases h
  · intro h
    rw [if_pos ⟨h.ne_nil, List.all_eq_true.mpr h.isDigit⟩, h.value]

theorem readNumeral?_eq_some_iff {s : List Char} {n : Nat} :
    readNumeral? s = some n ↔ Numeral s n := by
  by_cases plus : s.head? = some '+'
  · obtain ⟨rest, rfl⟩ := List.head?_eq_some_iff.mp plus
    rw [readNumeral?, readDigits?_eq_some_iff]
    constructor
    · exact .signed
    · intro h
      cases h with
      | plain digits => exact absurd (digits.isDigit '+' List.mem_cons_self) (by decide)
      | signed digits => exact digits
  · rw [readNumeral?_of_not_plus plus, readDigits?_eq_some_iff]
    constructor
    · exact .plain
    · intro h
      cases h with
      | plain digits => exact digits
      | signed digits => exact absurd rfl plus

theorem Numeral.ne_nil {s : List Char} {n : Nat} (h : Numeral s n) : s ≠ [] := by
  cases h with
  | plain digits => exact digits.ne_nil
  | signed digits => simp

theorem Numeral.eq_plus_or_isDigit {s : List Char} {n : Nat} (h : Numeral s n) :
    ∀ c ∈ s, c = '+' ∨ c.isDigit = true := by
  intro c mem
  cases h with
  | plain digits => exact .inr (digits.isDigit c mem)
  | signed digits =>
    rcases List.mem_cons.mp mem with plus | rest
    · exact .inl plus
    · exact .inr (digits.isDigit c rest)

end Text

namespace Dim

open Text

def Spelled : Dim → List Char → Prop
  | .unknown, token => Trims token ['?']
  | .fixed n, token => ∃ numeral, Trims token numeral ∧ Numeral numeral n.toNat

inductive AllSpelled : List Dim → List Char → Prop where
  | one {d : Dim} {token : List Char} : d.Spelled token → AllSpelled [d] token
  | cons {d : Dim} {ds : List Dim} {token rest : List Char} :
      d.Spelled token → AllSpelled ds rest → AllSpelled (d :: ds) (token ++ ',' :: rest)

theorem read?_eq_some_iff {token : List Char} {d : Dim} :
    read? token = some d ↔ d.Spelled token := by
  unfold read?
  split
  · next mark =>
    cases d with
    | unknown => simp [Spelled, trim_eq_iff.mp mark]
    | fixed n =>
      refine iff_of_false nofun ?_
      rintro ⟨numeral, trims, value⟩
      obtain rfl := mark.symm.trans (trim_eq_iff.mpr trims)
      rcases value.eq_plus_or_isDigit '?' List.mem_cons_self with plus | digit
      · exact absurd plus (by decide)
      · exact absurd digit (by decide)
  · next other =>
    simp only [Option.bind_eq_some_iff, Option.map_eq_some_iff, readNumeral?_eq_some_iff]
    cases d with
    | unknown =>
      refine iff_of_false (by simp) ?_
      intro mark
      exact other (trim_eq_iff.mpr mark)
    | fixed n =>
      simp only [fixed.injEq, exists_eq_right, Length.ofNat?_eq_some_iff, Spelled, ← trim_eq_iff]
      simp

/- Both kinds of tokens: blanks around something that has neither blanks nor commas. -/
theorem Spelled.exists_trims {d : Dim} {token : List Char} (h : d.Spelled token) :
    ∃ inner, Trims token inner ∧ inner ≠ [] ∧
      ∀ c ∈ inner, c = '?' ∨ c = '+' ∨ c.isDigit = true := by
  cases d with
  | unknown => exact ⟨['?'], h, by simp, by simp⟩
  | fixed n =>
    obtain ⟨numeral, trims, value⟩ := h
    exact ⟨numeral, trims, value.ne_nil, fun c mem => .inr (value.eq_plus_or_isDigit c mem)⟩

theorem Spelled.not_blank {d : Dim} {token : List Char} (h : d.Spelled token) : ¬ Blank token := by
  obtain ⟨inner, trims, nonempty, -⟩ := h.exists_trims
  intro blank
  exact nonempty ((trim_eq_iff.mpr trims).symm.trans (trim_eq_nil_iff.mpr blank))

theorem Spelled.comma_not_mem {d : Dim} {token : List Char} (h : d.Spelled token) :
    ',' ∉ token := by
  obtain ⟨inner, ⟨before, after, rfl, front, back, -⟩, -, chars⟩ := h.exists_trims
  have comma : ¬ isBlank ',' = true := by decide
  intro mem
  rcases List.mem_append.mp mem with early | last
  · rcases List.mem_append.mp early with first | middle
    · exact comma (front ',' first)
    · rcases chars ',' middle with mark | plus | digit
      · exact absurd mark (by decide)
      · exact absurd plus (by decide)
      · exact absurd digit (by decide)
  · exact comma (back ',' last)

theorem AllSpelled.not_blank {ds : List Dim} {body : List Char} (h : AllSpelled ds body) :
    ¬ Blank body := by
  intro blank
  cases h with
  | one spelled => exact spelled.not_blank blank
  | cons spelled _ => exact spelled.not_blank fun c mem => blank c (List.mem_append_left _ mem)

theorem allSpelled_intercalate {fields : List (List Char)} {ds : List Dim} (nonempty : fields ≠ [])
    (read : fields.mapM read? = some ds) : AllSpelled ds (List.intercalate [','] fields) := by
  induction fields generalizing ds with
  | nil => exact absurd rfl nonempty
  | cons field fields ih =>
    simp only [List.mapM_cons, Option.bind_eq_bind, Option.bind_eq_some_iff] at read
    obtain ⟨d, first, ds', rest, whole⟩ := read
    obtain rfl := Option.some.inj whole
    cases fields with
    | nil =>
      obtain rfl := Option.some.inj rest
      rw [List.intercalate_singleton]
      exact .one (read?_eq_some_iff.mp first)
    | cons next fields =>
      rw [List.intercalate_cons_cons, List.append_assoc]
      exact .cons (read?_eq_some_iff.mp first) (ih (by simp) rest)

theorem mapM_fields_eq_some_iff {ds : List Dim} {body : List Char} :
    (fields ',' body).mapM read? = some ds ↔ AllSpelled ds body := by
  constructor
  · intro read
    have spelled := allSpelled_intercalate (fields_ne_nil ',' body) read
    rwa [intercalate_fields] at spelled
  · intro h
    induction h with
    | one spelled =>
      rw [fields_of_not_mem spelled.comma_not_mem]
      simp [read?_eq_some_iff.mpr spelled]
    | cons spelled _ ih =>
      rw [fields_append_cons spelled.comma_not_mem]
      simp [read?_eq_some_iff.mpr spelled, ih]

end Dim

namespace PartialShape

open Text

def Spelled : PartialShape → List Char → Prop
  | .unranked, s => Trims s ['?'] ∨ Trims s ['[', '.', '.', '.', ']']
  | .ranked dims, s => ∃ body, Trims s ('[' :: body ++ [']']) ∧
      (Blank body ∧ dims = [] ∨ Dim.AllSpelled dims body)

theorem body?_eq_some_iff {s body : List Char} :
    body? s = some body ↔ s = '[' :: body ++ [']'] := by
  constructor
  · intro h
    unfold body? at h
    split at h
    · next rest =>
      split at h
      · next closed =>
        obtain ⟨inner, rfl⟩ := List.getLast?_eq_some_iff.mp closed
        rw [List.dropLast_concat] at h
        obtain rfl := Option.some.inj h
        rfl
      · cases h
    · cases h
  · rintro rfl
    simp [body?]

theorem readBody?_eq_some_iff {body : List Char} {dims : List Dim} :
    readBody? body = some dims ↔ Blank body ∧ dims = [] ∨ Dim.AllSpelled dims body := by
  unfold readBody?
  split
  · next empty =>
    have blank := trim_eq_nil_iff.mp empty
    have none : ¬ Dim.AllSpelled dims body := fun spelled => spelled.not_blank blank
    simp [blank, none, eq_comm]
  · next filled =>
    have some : ¬ Blank body := fun blank => filled (trim_eq_nil_iff.mpr blank)
    simp [some, Dim.mapM_fields_eq_some_iff]

theorem not_ranked_of_mark {s body : List Char} {dims : List Dim}
    (mark : trim s = ['?'] ∨ trim s = ['[', '.', '.', '.', ']'])
    (bracketed : trim s = '[' :: body ++ [']']) : readBody? body ≠ some dims := by
  rcases mark with question | dots
  · rw [question] at bracketed
    cases bracketed
  · rw [dots] at bracketed
    have same : body ++ [']'] = ['.', '.', '.'] ++ [']'] := (List.cons.inj bracketed).2.symm
    obtain rfl := List.append_cancel_right same
    exact nofun

theorem read?_eq_some_iff {s : List Char} {shape : PartialShape} :
    read? s = some shape ↔ shape.Spelled s := by
  unfold read?
  cases shape with
  | unranked =>
    simp only [Spelled, ← trim_eq_iff]
    split
    · next mark => exact iff_of_true rfl mark
    · next other =>
      refine iff_of_false ?_ other
      intro read
      obtain ⟨dims, -, known⟩ := Option.map_eq_some_iff.mp read
      cases known
  | ranked dims =>
    simp only [Spelled, ← trim_eq_iff, ← readBody?_eq_some_iff]
    split
    · next mark =>
      refine iff_of_false nofun ?_
      rintro ⟨body, bracketed, read⟩
      exact not_ranked_of_mark mark bracketed read
    · next other =>
      simp only [Option.map_eq_some_iff, Option.bind_eq_some_iff, body?_eq_some_iff, ranked.injEq,
        exists_eq_right]

/-- The reader accepts the texts of the grammar, each for the shape that it stands for, and
gives every other text back as it came. -/
theorem parse_spelled (s : String) :
    (∀ shape, parse s = .ok shape ↔ shape.Spelled s.toList) ∧
    ((∀ shape : PartialShape, ¬ shape.Spelled s.toList) → parse s = .error (.malformedShape s)) ∧
    ∀ e, parse s = .error e → e = .malformedShape s ∧
      ∀ shape : PartialShape, ¬ shape.Spelled s.toList := by
  unfold parse
  cases read : read? s.toList with
  | none =>
    have none : ∀ shape : PartialShape, ¬ shape.Spelled s.toList := by
      intro shape spelled
      rw [read?_eq_some_iff.mpr spelled] at read
      cases read
    refine ⟨fun shape => iff_of_false nofun (none shape), fun _ => rfl, ?_⟩
    intro e error
    exact ⟨(Except.error.inj error).symm, none⟩
  | some found =>
    have spelled := read?_eq_some_iff.mp read
    refine ⟨?_, fun none => absurd spelled (none found), nofun⟩
    intro shape
    rw [← read?_eq_some_iff, read]
    simp

example : parse " [ +2, ? ,03]" = .ok (.ranked [.fixed 2, .unknown, .fixed 3]) := by cbv

example : parse "[1,]" = .error (.malformedShape "[1,]") := by cbv

end PartialShape

end TensorCall
