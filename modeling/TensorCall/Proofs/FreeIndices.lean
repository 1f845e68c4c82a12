import Mathlib
import TensorCall.Pipeline

namespace TensorCall.IndexPool

structure Ordered (p : IndexPool) : Prop where
  ascending : p.free.Pairwise (· < ·)
  below : ∀ i ∈ p.free, i < p.depth

theorem ordered_full (depth : Nat) : (full depth).Ordered where
  ascending := List.pairwise_lt_range
  below _ mem := List.mem_range.mp mem

theorem mem_free_full {depth i : Nat} : i ∈ (full depth).free ↔ i < depth := List.mem_range

theorem mem_insert {i j : Nat} {free : List Nat} : j ∈ insert i free ↔ j = i ∨ j ∈ free := by
  induction free with
  | nil => simp [insert]
  | cons k free ih =>
    rw [insert]
    split
    · simp
    · split
      · next same =>
        subst same
        simp
      · simp only [List.mem_cons, ih, or_left_comm]

theorem pairwise_insert {i : Nat} {free : List Nat} (ascending : free.Pairwise (· < ·)) :
    (insert i free).Pairwise (· < ·) := by
  induction free with
  | nil => simp [insert]
  | cons k free ih =>
    obtain ⟨below, rest⟩ := List.pairwise_cons.mp ascending
    rw [insert]
    split
    · next lt =>
      refine List.pairwise_cons.mpr ⟨fun j mem => ?_, ascending⟩
      rcases List.mem_cons.mp mem with rfl | mem
      · exact lt
      · exact Nat.lt_trans lt (below j mem)
    · split
      · exact ascending
      · refine List.pairwise_cons.mpr ⟨fun j mem => ?_, ih rest⟩
        rcases mem_insert.mp mem with rfl | mem
        · omega
        · exact below j mem

theorem insert_of_mem {i : Nat} {free : List Nat} (ascending : free.Pairwise (· < ·))
    (mem : i ∈ free) : insert i free = free := by
  induction free with
  | nil => cases mem
  | cons k free ih =>
    obtain ⟨below, rest⟩ := List.pairwise_cons.mp ascending
    rcases List.mem_cons.mp mem with rfl | later
    · rw [insert, if_neg (Nat.lt_irrefl i), if_pos rfl]
    · have above := below i later
      rw [insert, if_neg (Nat.not_lt_of_gt above), if_neg (Nat.ne_of_gt above), ih rest later]

theorem take?_of_cons {p : IndexPool} {i : Nat} {free : List Nat} (h : p.free = i :: free) :
    p.take? = some (i, { p with free }) := by
  rw [take?, h]

theorem take?_of_nil {p : IndexPool} (h : p.free = []) : p.take? = none := by
  rw [take?, h]

namespace Ordered

variable {p : IndexPool} {i : Nat} {free : List Nat}

theorem nodup (h : p.Ordered) : p.free.Nodup := h.ascending.imp Nat.ne_of_lt

theorem take (h : p.Ordered) (cons : p.free = i :: free) : ({ p with free } : IndexPool).Ordered where
  ascending := (List.pairwise_cons.mp (cons ▸ h.ascending)).2
  below j mem := h.below j (cons ▸ List.mem_cons_of_mem i mem)

theorem mem_tail_iff (h : p.Ordered) (cons : p.free = i :: free) {j : Nat} :
    j ∈ free ↔ j ∈ p.free ∧ j ≠ i := by
  have apart : i ∉ free := (List.nodup_cons.mp (cons ▸ h.nodup)).1
  rw [cons, List.mem_cons]
  constructor
  · intro mem
    exact ⟨.inr mem, fun same => apart (same ▸ mem)⟩
  · rintro ⟨same | mem, other⟩
    · exact absurd same other
    · exact mem

theorem isLeast_head (h : p.Ordered) (cons : p.free = i :: free) : IsLeast {j | j ∈ p.free} i := by
  refine ⟨cons ▸ List.mem_cons_self, ?_⟩
  intro j mem
  rcases List.mem_cons.mp (cons ▸ (mem : j ∈ p.free)) with rfl | later
  · exact Nat.le_refl j
  · exact Nat.le_of_lt ((List.pairwise_cons.mp (cons ▸ h.ascending)).1 j later)

theorem giveBack (h : p.Ordered) (below : i < p.depth) (out : i ∉ p.free) :
    p.giveBack i = (.ok (), { p with free := insert i p.free }) ∧
      ({ p with free := insert i p.free } : IndexPool).Ordered := by
  refine ⟨?_, pairwise_insert h.ascending, ?_⟩
  · rw [IndexPool.giveBack, if_neg (Nat.not_le_of_lt below), if_neg out]
  · intro j mem
    rcases mem_insert.mp mem with rfl | old
    · exact below
    · exact h.below j old

/- An index that is in its place already is put there again, which changes nothing. -/
theorem giveBack_of_mem (h : p.Ordered) (mem : i ∈ p.free) :
    p.giveBack i = (.error (.indexFree i), p) := by
  have below := h.below i mem
  rw [IndexPool.giveBack, if_neg (Nat.not_le_of_lt below), if_pos mem,
    insert_of_mem h.ascending mem]

theorem giveBack_cases (h : p.Ordered) (i : Nat) :
    (p.depth ≤ i ∧ p.giveBack i = (.error (.indexBeyond i p.depth), p)) ∨
    (i ∈ p.free ∧ p.giveBack i = (.error (.indexFree i), p)) ∨
    ((i < p.depth ∧ i ∉ p.free) ∧
      p.giveBack i = (.ok (), { p with free := insert i p.free })) := by
  rcases Nat.lt_or_ge i p.depth with below | beyond
  · by_cases mem : i ∈ p.free
    · exact .inr (.inl ⟨mem, h.giveBack_of_mem mem⟩)
    · exact .inr (.inr ⟨⟨below, mem⟩, (h.giveBack below mem).1⟩)
  · exact .inl ⟨beyond, if_pos beyond⟩

theorem giveBack_error (h : p.Ordered) {fault : PipelineFault} {p' : IndexPool}
    (refused : p.giveBack i = (.error fault, p')) : p' = p := by
  rcases h.giveBack_cases i with ⟨-, same⟩ | ⟨-, same⟩ | ⟨-, done⟩
  · exact congrArg Prod.snd (refused.symm.trans same)
  · exact congrArg Prod.snd (refused.symm.trans same)
  · rw [done] at refused
    cases refused

theorem available_add_length (h : p.Ordered) {out : List Nat} (once : out.Nodup)
    (outside : ∀ i, i ∈ out ↔ i < p.depth ∧ i ∉ p.free) :
    p.available + out.length = p.depth := by
  have apart : p.free.Disjoint out := fun i free taken => ((outside i).mp taken).2 free
  have all : (p.free ++ out).Perm (List.range p.depth) := by
    apply (List.perm_ext_iff_of_nodup (h.nodup.append once apart) List.nodup_range).mpr
    intro i
    rw [List.mem_append, outside, List.mem_range]
    constructor
    · rintro (free | ⟨below, -⟩)
      · exact h.below i free
      · exact below
    · intro below
      by_cases free : i ∈ p.free
      · exact .inl free
      · exact .inr ⟨below, free⟩
  have length := all.length_eq
  rwa [List.length_append, List.length_range] at length

end Ordered

end TensorCall.IndexPool
