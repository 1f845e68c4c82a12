/-! Lengths of dimensions, element counts and byte sizes: 64-bit words. The arithmetic
that decides anything is checked; a product that does not fit is `none`, never wrapped. -/
namespace TensorCall

abbrev Length := UInt64

namespace Length

def greatest : Length := UInt64.ofNat (UInt64.size - 1)

def ofNat? (n : Nat) : Option Length :=
  if n < UInt64.size then some (UInt64.ofNat n) else none

def mul? (a b : Length) : Option Length := ofNat? (a.toNat * b.toNat)

theorem ofNat?_eq_some_iff {n : Nat} {a : Length} : ofNat? n = some a ↔ a.toNat = n := by
  unfold ofNat?
  constructor
  · intro h
    split at h
    · next hn =>
      obtain rfl := Option.some.inj h
      rw [UInt64.toNat_ofNat', Nat.mod_eq_of_lt hn]
    · cases h
  · rintro rfl
    rw [if_pos (UInt64.toNat_lt a), UInt64.ofNat_toNat]

theorem mul?_eq_some_iff {a b c : Length} : mul? a b = some c ↔ c.toNat = a.toNat * b.toNat :=
  ofNat?_eq_some_iff

theorem le_greatest (a : Length) : a ≤ greatest := by
  rw [UInt64.le_iff_toNat_le]
  have bound : a.toNat < UInt64.size := UInt64.toNat_lt a
  have top : greatest.toNat = UInt64.size - 1 := by decide
  omega

end Length

/-- The product of the lengths, taken from the left and checked at every step: a zero
after an overflow does not mend it, a zero before one does. -/
def elementCount? (dims : List Length) : Option Length :=
  dims.foldlM Length.mul? (UInt64.ofNat 1)

end TensorCall
