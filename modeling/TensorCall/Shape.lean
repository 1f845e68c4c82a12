import TensorCall.Declaration
import TensorCall.Length

namespace TensorCall

inductive Dim where
  | fixed (length : Length)
  | unknown
deriving DecidableEq

namespace Dim

def length? : Dim → Option Length
  | .fixed n => some n
  | .unknown => none

def IsStatic (d : Dim) : Prop := d.length?.isSome = true

instance (d : Dim) : Decidable d.IsStatic := inferInstanceAs (Decidable (_ = true))

def bound (d : Dim) : Length := d.length?.getD Length.greatest

/-- A fixed length relaxes only itself, never the unknown one. -/
def Relaxes : Dim → Dim → Prop
  | .unknown, _ => True
  | .fixed a, .fixed b => a = b
  | .fixed _, .unknown => False

instance : (a b : Dim) → Decidable (a.Relaxes b)
  | .unknown, _ => isTrue trivial
  | .fixed a, .fixed b => inferInstanceAs (Decidable (a = b))
  | .fixed _, .unknown => isFalse id

def AllRelax : List Dim → List Dim → Prop
  | [], [] => True
  | a :: as, b :: bs => a.Relaxes b ∧ AllRelax as bs
  | _, _ => False

instance decidableAllRelax : (as bs : List Dim) → Decidable (AllRelax as bs)
  | [], [] => isTrue trivial
  | a :: as, b :: bs =>
    have := decidableAllRelax as bs
    inferInstanceAs (Decidable (a.Relaxes b ∧ AllRelax as bs))
  | [], _ :: _ => isFalse id
  | _ :: _, [] => isFalse id

theorem relaxes_refl (a : Dim) : a.Relaxes a := by
  cases a with
  | fixed n => exact (rfl : n = n)
  | unknown => trivial

theorem relaxes_trans {a b c : Dim} (hab : a.Relaxes b) (hbc : b.Relaxes c) : a.Relaxes c := by
  cases a with
  | unknown => trivial
  | fixed m =>
    cases b with
    | unknown => exact hab.elim
    | fixed n => cases (hab : m = n); exact hbc

theorem relaxes_antisymm {a b : Dim} (hab : a.Relaxes b) (hba : b.Relaxes a) : a = b := by
  cases a with
  | unknown =>
    cases b with
    | unknown => rfl
    | fixed n => exact hba.elim
  | fixed m =>
    cases b with
    | unknown => exact hab.elim
    | fixed n => cases (hab : m = n); rfl

theorem allRelax_refl (as : List Dim) : AllRelax as as := by
  induction as with
  | nil => trivial
  | cons a as ih => exact ⟨relaxes_refl a, ih⟩

theorem length_eq_of_allRelax {as bs : List Dim} (h : AllRelax as bs) : as.length = bs.length := by
  induction as generalizing bs with
  | nil =>
    cases bs with
    | nil => rfl
    | cons b bs => exact h.elim
  | cons a as ih =>
    cases bs with
    | nil => exact h.elim
    | cons b bs => simp [ih h.2]

theorem allRelax_trans {as bs cs : List Dim} (hab : AllRelax as bs) (hbc : AllRelax bs cs) :
    AllRelax as cs := by
  induction as generalizing bs cs with
  | nil =>
    cases bs with
    | nil => exact hbc
    | cons b bs => exact hab.elim
  | cons a as ih =>
    cases bs with
    | nil => exact hab.elim
    | cons b bs =>
      cases cs with
      | nil => exact hbc.elim
      | cons c cs => exact ⟨relaxes_trans hab.1 hbc.1, ih hab.2 hbc.2⟩

theorem allRelax_antisymm {as bs : List Dim} (hab : AllRelax as bs) (hba : AllRelax bs as) :
    as = bs := by
  induction as generalizing bs with
  | nil =>
    cases bs with
    | nil => rfl
    | cons b bs => exact hab.elim
  | cons a as ih =>
    cases bs with
    | nil => exact hab.elim
    | cons b bs => rw [relaxes_antisymm hab.1 hba.1, ih hab.2 hba.2]

end Dim

inductive PartialShape where
  | ranked (dims : List Dim)
  | unranked
deriving DecidableEq

namespace PartialShape

def static (dims : List Length) : PartialShape := .ranked (dims.map .fixed)

def dims? : PartialShape → Option (List Dim)
  | .ranked dims => some dims
  | .unranked => none

def rank? (s : PartialShape) : Option Nat := s.dims?.map List.length

def IsStatic (s : PartialShape) : Prop := ∃ dims ∈ s.dims?, ∀ d ∈ dims, d.IsStatic

instance : (s : PartialShape) → Decidable s.IsStatic
  | .ranked dims =>
    decidable_of_iff (∀ d ∈ dims, d.IsStatic) (by simp [IsStatic, dims?])
  | .unranked => isFalse (by simp [IsStatic, dims?])

def lengths? (s : PartialShape) : Option (List Length) := s.dims?.bind (·.mapM Dim.length?)

def bounds? (s : PartialShape) : Option (List Length) := s.dims?.map (·.map Dim.bound)

def largest (s : PartialShape) : PartialShape := s.bounds?.elim .unranked .static

def elementCount? (s : PartialShape) : Option Length := s.lengths?.bind TensorCall.elementCount?

/-- An unknown rank relaxes everything, and nothing else relaxes it. -/
def Relaxes : PartialShape → PartialShape → Prop
  | .unranked, _ => True
  | .ranked _, .unranked => False
  | .ranked as, .ranked bs => Dim.AllRelax as bs

instance : (a b : PartialShape) → Decidable (a.Relaxes b)
  | .unranked, _ => isTrue trivial
  | .ranked _, .unranked => isFalse id
  | .ranked as, .ranked bs => inferInstanceAs (Decidable (Dim.AllRelax as bs))

/-- Concrete lengths that the shape leaves room for. -/
def Admits (s : PartialShape) (dims : List Length) : Prop := s.Relaxes (static dims)

instance (s : PartialShape) (dims : List Length) : Decidable (s.Admits dims) :=
  inferInstanceAs (Decidable (s.Relaxes (static dims)))

theorem relaxes_refl (a : PartialShape) : a.Relaxes a := by
  cases a with
  | unranked => trivial
  | ranked as => exact Dim.allRelax_refl as

theorem relaxes_trans {a b c : PartialShape} (hab : a.Relaxes b) (hbc : b.Relaxes c) :
    a.Relaxes c := by
  cases a with
  | unranked => trivial
  | ranked as =>
    cases b with
    | unranked => exact hab.elim
    | ranked bs =>
      cases c with
      | unranked => exact hbc.elim
      | ranked cs => exact Dim.allRelax_trans hab hbc

theorem relaxes_antisymm {a b : PartialShape} (hab : a.Relaxes b) (hba : b.Relaxes a) : a = b := by
  cases a with
  | unranked =>
    cases b with
    | unranked => rfl
    | ranked bs => exact hba.elim
  | ranked as =>
    cases b with
    | unranked => exact hab.elim
    | ranked bs => rw [Dim.allRelax_antisymm hab hba]

theorem admits_of_relaxes {a b : PartialShape} (h : a.Relaxes b) {dims : List Length}
    (hb : b.Admits dims) : a.Admits dims :=
  relaxes_trans h hb

theorem static_admits (dims : List Length) : (static dims).Admits dims := relaxes_refl _

end PartialShape

namespace Dim

def chars : Dim → List Char
  | .fixed n => Text.numeral n.toNat
  | .unknown => ['?']

def text (d : Dim) : String := String.ofList d.chars

def read? (token : List Char) : Option Dim :=
  match Text.trim token with
  | ['?'] => some .unknown
  | numeral => (Text.readNumeral? numeral).bind fun n => (Length.ofNat? n).map .fixed

end Dim

namespace PartialShape

def chars : PartialShape → List Char
  | .ranked dims => '[' :: List.intercalate [',', ' '] (dims.map Dim.chars) ++ [']']
  | .unranked => ['[', '.', '.', '.', ']']

def text (s : PartialShape) : String := String.ofList s.chars

/-- What stands between the brackets. One bracket cannot be both of them. -/
def body? : List Char → Option (List Char)
  | '[' :: rest => if rest.getLast? = some ']' then some rest.dropLast else none
  | _ => none

/-- The body may be blank as a whole; otherwise no field of it may be. -/
def readBody? (body : List Char) : Option (List Dim) :=
  if Text.trim body = [] then some [] else (Text.fields ',' body).mapM Dim.read?

def read? (s : List Char) : Option PartialShape :=
  let t := Text.trim s
  if t = ['?'] ∨ t = ['[', '.', '.', '.', ']'] then some .unranked
  else ((body? t).bind readBody?).map .ranked

def parse (s : String) : Except DeclarationError PartialShape :=
  match read? s.toList with
  | some shape => .ok shape
  | none => .error (.malformedShape s)

end PartialShape

end TensorCall
