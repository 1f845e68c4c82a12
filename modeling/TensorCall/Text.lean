namespace TensorCall.Text

/-- The code points with the property White_Space, as closed ranges. -/
def blankRanges : List (Nat × Nat) :=
  [(0x9, 0xD), (0x20, 0x20), (0x85, 0x85), (0xA0, 0xA0), (0x1680, 0x1680),
    (0x2000, 0x200A), (0x2028, 0x2029), (0x202F, 0x202F), (0x205F, 0x205F), (0x3000, 0x3000)]

def isBlank (c : Char) : Bool :=
  blankRanges.any fun r => r.1 ≤ c.toNat && c.toNat ≤ r.2

def trimStart (s : List Char) : List Char := s.dropWhile isBlank

def trimEnd (s : List Char) : List Char := (s.reverse.dropWhile isBlank).reverse

def trim (s : List Char) : List Char := trimEnd (trimStart s)

theorem isBlank_eq_false_of_isDigit {c : Char} (h : c.isDigit = true) : isBlank c = false := by
  simp only [Char.isDigit, Bool.and_eq_true, decide_eq_true_eq, ge_iff_le, UInt32.le_iff_toNat_le] at h
  have lo : 48 ≤ c.toNat := h.1
  have hi : c.toNat ≤ 57 := h.2
  simp [isBlank, blankRanges]
  omega

def numeral (n : Nat) : List Char := Nat.toDigits 10 n

def decimal (n : Nat) : String := String.ofList (numeral n)

def readDigits? (s : List Char) : Option Nat :=
  if s ≠ [] ∧ s.all Char.isDigit = true then some (Nat.ofDigitChars 10 s 0) else none

/-- A minus sign, a second plus sign or a blank makes it no numeral. -/
def readNumeral? : List Char → Option Nat
  | '+' :: s => readDigits? s
  | s => readDigits? s

theorem readDigits?_numeral (n : Nat) : readDigits? (numeral n) = some n := by
  have digits : (numeral n).all Char.isDigit = true := by
    rw [List.all_eq_true]
    exact fun c hc => Nat.isDigit_of_mem_toDigits (by decide) (by decide) hc
  rw [readDigits?, if_pos ⟨Nat.toDigits_ne_nil, digits⟩, numeral, Nat.ofDigitChars_ten_toDigits]

theorem readNumeral?_of_not_plus {s : List Char} (h : s.head? ≠ some '+') :
    readNumeral? s = readDigits? s := by
  unfold readNumeral?
  split
  · exact absurd rfl h
  · rfl

theorem readNumeral?_numeral (n : Nat) : readNumeral? (numeral n) = some n := by
  rw [readNumeral?_of_not_plus, readDigits?_numeral]
  intro h
  have mem : '+' ∈ numeral n := List.mem_of_mem_head? h
  exact absurd (Nat.isDigit_of_mem_toDigits (by decide) (by decide) mem) (by decide)

/-- A separator at either end leaves an empty field there, and an empty text is an empty field. -/
def fields (separator : Char) : List Char → List (List Char)
  | [] => [[]]
  | c :: s =>
    if c = separator then [] :: fields separator s
    else match fields separator s with
      | [] => [[c]]
      | f :: rest => (c :: f) :: rest

theorem fields_ne_nil (separator : Char) (s : List Char) : fields separator s ≠ [] := by
  cases s with
  | nil => simp [fields]
  | cons c s =>
    rw [fields]
    split
    · simp
    · split <;> simp

theorem fields_of_not_mem {separator : Char} {s : List Char} (h : separator ∉ s) :
    fields separator s = [s] := by
  induction s with
  | nil => rfl
  | cons c s ih =>
    have apart : c ≠ separator := fun e => h (e ▸ List.mem_cons_self)
    have rest : separator ∉ s := fun m => h (List.mem_cons_of_mem c m)
    rw [fields, if_neg apart, ih rest]

theorem fields_append_cons {separator : Char} {f : List Char} (h : separator ∉ f)
    (s : List Char) : fields separator (f ++ separator :: s) = f :: fields separator s := by
  induction f with
  | nil => rw [List.nil_append, fields, if_pos rfl]
  | cons c f ih =>
    have apart : c ≠ separator := fun e => h (e ▸ List.mem_cons_self)
    have rest : separator ∉ f := fun m => h (List.mem_cons_of_mem c m)
    rw [List.cons_append, fields, if_neg apart, ih rest]

theorem intercalate_fields (separator : Char) (s : List Char) :
    List.intercalate [separator] (fields separator s) = s := by
  induction s with
  | nil => rfl
  | cons c s ih =>
    obtain ⟨f, rest, h⟩ := List.exists_cons_of_ne_nil (fields_ne_nil separator s)
    rw [h] at ih
    rw [fields]
    split
    · next hc => subst hc; rw [h, List.intercalate_cons_cons, ih]; rfl
    · rw [h]
      cases rest with
      | nil => rw [List.intercalate_singleton] at ih ⊢; rw [ih]
      | cons g rest =>
        rw [List.intercalate_cons_cons] at ih ⊢
        rw [← ih]; rfl

/-- A control character without a short escape is written by its code in hexadecimal. -/
def escaped (c : Char) : List Char :=
  if c = '"' then ['\\', '"']
  else if c = '\\' then ['\\', '\\']
  else if c = '\n' then ['\\', 'n']
  else if c = '\t' then ['\\', 't']
  else if c = '\r' then ['\\', 'r']
  else if c = '\x00' then ['\\', '0']
  else if c.toNat < 0x20 ∨ c.toNat = 0x7F then
    ['\\', 'u', '\x7b'] ++ Nat.toDigits 16 c.toNat ++ ['\x7d']
  else [c]

def quoted (s : String) : String :=
  String.ofList ('"' :: s.toList.flatMap escaped ++ ['"'])

def utf8 (s : String) : List UInt8 := s.toList.flatMap String.utf8EncodeChar

end TensorCall.Text
