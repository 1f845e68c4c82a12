import Mathlib
import TensorCall.Tensor

namespace TensorCall

def product (dims : List Length) : Nat := (dims.map UInt64.toNat).prod

@[simp] theorem product_nil : product [] = 1 := rfl

@[simp] theorem product_cons (d : Length) (dims : List Length) :
    product (d :: dims) = d.toNat * product dims := by
  simp [product]

theorem product_eq_zero {dims : List Length} (mem : 0 ∈ dims) : product dims = 0 :=
  List.prod_eq_zero (List.mem_map.mpr ⟨0, mem, rfl⟩)

theorem product_append (dims rest : List Length) :
    product (dims ++ rest) = product dims * product rest := by
  simp [product]

theorem product_pos {dims : List Length} (nonzero : 0 ∉ dims) : 0 < product dims := by
  apply List.prod_pos
  intro m mem
  obtain ⟨d, here, rfl⟩ := List.mem_map.mp mem
  have other : d ≠ 0 := fun zero => nonzero (zero ▸ here)
  exact Nat.pos_of_ne_zero fun zero => other (UInt64.toNat_inj.mp zero)

theorem product_take_le {dims : List Length} (nonzero : 0 ∉ dims) (k : Nat) :
    product (dims.take k) ≤ product dims := by
  have rest : 0 < product (dims.drop k) := product_pos fun mem => nonzero (List.mem_of_mem_drop mem)
  calc product (dims.take k)
      ≤ product (dims.take k) * product (dims.drop k) := Nat.le_mul_of_pos_right _ rest
    _ = product dims := by rw [← product_append, List.take_append_drop]

/-- Every product of lengths taken from the left fits a word. -/
def Counted (dims : List Length) : Prop := ∀ k, product (dims.take k) < UInt64.size

theorem mul?_eq_none_iff {a b : Length} :
    Length.mul? a b = none ↔ UInt64.size ≤ a.toNat * b.toNat := by
  unfold Length.mul? Length.ofNat?
  split <;> simp <;> omega

theorem foldlM_mul?_eq_some_iff {a n : Length} {dims : List Length} :
    dims.foldlM Length.mul? a = some n ↔
      (∀ k, a.toNat * product (dims.take k) < UInt64.size) ∧
        n.toNat = a.toNat * product dims := by
  induction dims generalizing a with
  | nil =>
    have fits : a.toNat < UInt64.size := UInt64.toNat_lt a
    simp [fits, UInt64.toNat_inj, eq_comm]
  | cons d dims ih =>
    -- the step fails exactly if the product of the first two leaves the words
    cases h : Length.mul? a d with
    | none =>
      have beyond := mul?_eq_none_iff.mp h
      constructor
      · intro some
        simp [h] at some
      · intro within
        have first := within.1 1
        simp at first
        omega
    | some c =>
      have value : c.toNat = a.toNat * d.toNat := Length.mul?_eq_some_iff.mp h
      have next : (d :: dims).foldlM Length.mul? a = dims.foldlM Length.mul? c := by
        simp [h]
      rw [next, ih, value, product_cons, Nat.mul_assoc]
      refine and_congr_left fun _ => ⟨fun within k => ?_, fun within k => ?_⟩
      · cases k with
        | zero => simpa using UInt64.toNat_lt a
        | succ k => simpa [Nat.mul_assoc] using within k
      · simpa [Nat.mul_assoc] using within (k + 1)

theorem elementCount?_eq_some_iff {dims : List Length} {n : Length} :
    elementCount? dims = some n ↔ Counted dims ∧ n.toNat = product dims := by
  have one : (UInt64.ofNat 1).toNat = 1 := rfl
  simp only [elementCount?, foldlM_mul?_eq_some_iff, one, Nat.one_mul, Counted]

theorem foldl_mul_eq_of_foldlM {a n : Length} {dims : List Length}
    (h : dims.foldlM Length.mul? a = some n) : dims.foldl (· * ·) a = n := by
  induction dims generalizing a with
  | nil => exact Option.some.inj h
  | cons d dims ih =>
    simp only [List.foldlM_cons, Option.bind_eq_bind, Option.bind_eq_some_iff] at h
    obtain ⟨c, hc, rest⟩ := h
    have value : c.toNat = a.toNat * d.toNat := Length.mul?_eq_some_iff.mp hc
    have fits : a.toNat * d.toNat < 2 ^ 64 := value ▸ UInt64.toNat_lt c
    have word : a * d = c := by
      apply UInt64.toNat_inj.mp
      rw [UInt64.toNat_mul, Nat.mod_eq_of_lt fits, value]
    rw [List.foldl_cons, word]
    exact ih rest

theorem exists_toNat_iff {m : Nat} : (∃ n : Length, n.toNat = m) ↔ m < UInt64.size := by
  constructor
  · rintro ⟨n, rfl⟩
    exact UInt64.toNat_lt n
  · intro fits
    exact ⟨UInt64.ofNat m, by rw [UInt64.toNat_ofNat', Nat.mod_eq_of_lt fits]⟩

theorem Counted.product_lt {dims : List Length} (h : Counted dims) : product dims < UInt64.size := by
  simpa using h dims.length

theorem exists_elementCount? {dims : List Length} (h : Counted dims) :
    ∃ n, elementCount? dims = some n := by
  obtain ⟨n, total⟩ := exists_toNat_iff.mpr h.product_lt
  exact ⟨n, elementCount?_eq_some_iff.mpr ⟨h, total⟩⟩

theorem exists_elementCount?_iff {dims : List Length} :
    (∃ n, elementCount? dims = some n) ↔ Counted dims := by
  constructor
  · rintro ⟨n, count⟩
    exact (elementCount?_eq_some_iff.mp count).1
  · exact exists_elementCount?

theorem byteSize_eq_ok_iff {e : ElementType} {dims : List Length} {n : Length} :
    byteSize e dims = .ok n ↔
      e.IsStatic ∧ Counted dims ∧ n.toNat = product dims * e.size := by
  have size : (UInt64.ofNat e.size).toNat = e.size := by cases e <;> rfl
  have checked : (elementCount? dims).bind (·.mul? (UInt64.ofNat e.size)) = some n ↔
      Counted dims ∧ n.toNat = product dims * e.size := by
    simp only [Option.bind_eq_some_iff, elementCount?_eq_some_iff, Length.mul?_eq_some_iff, size]
    constructor
    · rintro ⟨count, ⟨counted, total⟩, bytes⟩
      exact ⟨counted, total ▸ bytes⟩
    · rintro ⟨counted, bytes⟩
      obtain ⟨count, h⟩ := exists_elementCount? counted
      have total := (elementCount?_eq_some_iff.mp h).2
      exact ⟨count, ⟨counted, total⟩, total.symm ▸ bytes⟩
  by_cases static : e.IsStatic
  · rw [← checked, byteSize, if_pos static]
    cases (elementCount? dims).bind (·.mul? (UInt64.ofNat e.size)) with
    | none => simp
    | some m => simp [static]
  · simp [byteSize, static]

theorem exists_byteSize_iff {e : ElementType} {dims : List Length} :
    (∃ n, byteSize e dims = .ok n) ↔
      e.IsStatic ∧ Counted dims ∧ product dims * e.size < UInt64.size := by
  simp only [byteSize_eq_ok_iff, exists_and_left, exists_toNat_iff]

theorem byteSize_fault {e : ElementType} (static : e.IsStatic) {dims : List Length}
    {fault : TensorFault} (h : byteSize e dims = .error fault) : fault = .sizeOverflow dims := by
  simp only [byteSize, if_pos static] at h
  split at h
  · cases h
  · exact (Except.error.inj h).symm

theorem counted_nil : Counted [] := fun k => by
  rw [List.take_nil]
  decide

theorem Counted.of_append {dims rest : List Length} (h : Counted (dims ++ rest)) :
    Counted dims := by
  intro k
  have within := h (min k dims.length)
  rwa [List.take_append_of_le_length (Nat.min_le_right k _), ← List.take_eq_take_min] at within

theorem Counted.append_zero {dims : List Length} (h : Counted dims) (rest : List Length) :
    Counted (dims ++ 0 :: rest) := by
  intro k
  by_cases inside : k ≤ dims.length
  · rw [List.take_append_of_le_length inside]
    exact h k
  · have beyond : 0 ∈ (dims ++ 0 :: rest).take k := by
      rw [List.mem_take_iff_getElem]
      exact ⟨dims.length, by simp; omega, by simp⟩
    rw [product_eq_zero beyond]
    decide

theorem counted_iff_of_nonzero {dims : List Length} (nonzero : 0 ∉ dims) :
    Counted dims ↔ product dims < UInt64.size := by
  constructor
  · exact Counted.product_lt
  · intro fits k
    exact Nat.lt_of_le_of_lt (product_take_le nonzero k) fits

/-- The lengths before the first zero, or all of them if there is none. -/
def beforeZero (dims : List Length) : List Length := dims.takeWhile (· ≠ 0)

theorem zero_not_mem_beforeZero (dims : List Length) : 0 ∉ beforeZero dims := by
  intro mem
  simpa using List.mem_takeWhile_imp mem

theorem beforeZero_cases (dims : List Length) :
    beforeZero dims = dims ∨ ∃ rest, dims = beforeZero dims ++ 0 :: rest := by
  induction dims with
  | nil => exact .inl rfl
  | cons d dims ih =>
    by_cases zero : d = 0
    · exact .inr ⟨dims, by simp [beforeZero, zero]⟩
    · have first : beforeZero (d :: dims) = d :: beforeZero dims := by simp [beforeZero, zero]
      rw [first]
      rcases ih with all | ⟨rest, split⟩
      · exact .inl (by rw [all])
      · exact .inr ⟨rest, by rw [List.cons_append, ← split]⟩

theorem counted_beforeZero_iff {dims : List Length} : Counted (beforeZero dims) ↔ Counted dims := by
  rcases beforeZero_cases dims with all | ⟨rest, split⟩
  · rw [all]
  · constructor
    · intro counted
      rw [split]
      exact counted.append_zero rest
    · intro counted
      rw [split] at counted
      exact counted.of_append

theorem counted_iff {dims : List Length} :
    Counted dims ↔ product (beforeZero dims) < UInt64.size := by
  rw [← counted_beforeZero_iff, counted_iff_of_nonzero (zero_not_mem_beforeZero dims)]

theorem elementCount?_of_perm {dims dims' : List Length} (nonzero : 0 ∉ dims)
    (perm : dims'.Perm dims) : elementCount? dims' = elementCount? dims := by
  have nonzero' : 0 ∉ dims' := fun mem => nonzero (perm.mem_iff.mp mem)
  have same : product dims' = product dims := (perm.map UInt64.toNat).prod_eq
  apply Option.ext
  intro n
  simp only [elementCount?_eq_some_iff, counted_iff_of_nonzero nonzero,
    counted_iff_of_nonzero nonzero', same]

theorem le_greatest_iff {m : Nat} : m ≤ Length.greatest.toNat ↔ m < UInt64.size := by
  have top : Length.greatest.toNat = UInt64.size - 1 := by decide
  have some : 0 < UInt64.size := by decide
  omega

/-- Lengths have a count exactly if the product of those before the first zero fits a word. It is
the product of all of them, in any order where none is zero. They have a size in bytes exactly
if they have a count, the type is static and the product with its size fits a word, too. -/
theorem counted_before_zero (dims : List Length) :
    ((∃ n, elementCount? dims = some n) ↔
      product (beforeZero dims) ≤ Length.greatest.toNat) ∧
    (∀ n, elementCount? dims = some n → n.toNat = product dims) ∧
    (0 ∉ dims → ∀ dims', dims'.Perm dims → elementCount? dims' = elementCount? dims) ∧
    ∀ e, ((∃ n, byteSize e dims = .ok n) ↔
        e.IsStatic ∧ product (beforeZero dims) ≤ Length.greatest.toNat ∧
          product dims * e.size ≤ Length.greatest.toNat) ∧
      ∀ n, byteSize e dims = .ok n → n.toNat = product dims * e.size := by
  simp only [le_greatest_iff, ← counted_iff]
  refine ⟨exists_elementCount?_iff, ?_, ?_, fun e => ⟨exists_byteSize_iff, ?_⟩⟩
  · intro n count
    exact (elementCount?_eq_some_iff.mp count).2
  · intro nonzero dims' perm
    exact elementCount?_of_perm nonzero perm
  · intro n size
    exact (byteSize_eq_ok_iff.mp size).2.2

/- A zero before lengths of `2 ^ 63` and 2 shields them, and one behind them does not. There is a
count of `3 * 2 ^ 62` in any order, but no size of four times as many bytes. -/
theorem counted_before_zero_shielded :
    let early : List Length := [0, 0x8000000000000000, 2]
    let full : List Length := [0x100000000, 0x40000000, 3]
    (∃ n, byteSize .f32 early = .ok n ∧ n.toNat = 0) ∧
    (¬ ∃ n, elementCount? early.reverse = some n) ∧
    (∃ n, elementCount? full = some n ∧ n.toNat = 3 * 2 ^ 62) ∧
    elementCount? full.reverse = elementCount? full ∧ ¬ ∃ n, byteSize .f32 full = .ok n := by
  intro early full
  obtain ⟨-, -, -, sized⟩ := counted_before_zero early
  obtain ⟨late, -⟩ := counted_before_zero early.reverse
  obtain ⟨counted, total, order, bytes⟩ := counted_before_zero full
  obtain ⟨n, size⟩ := (sized .f32).1.mpr (by decide)
  obtain ⟨m, count⟩ := counted.mpr (by decide)
  have triple : product full = 3 * 2 ^ 62 := by decide
  refine ⟨⟨n, size, (sized .f32).2 n size⟩, ?_, ⟨m, count, (total m count).trans triple⟩, ?_, ?_⟩
  · exact fun some => absurd (late.mp some) (by decide)
  · exact order (by decide) _ (List.reverse_perm full)
  · exact fun some => absurd ((bytes .f32).1.mp some) (by decide)

end TensorCall
