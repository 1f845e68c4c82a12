import Mathlib
import TensorCall.Proofs.Circulation

namespace TensorCall

/-- Ids below `next` are drawn; `out` has the tags of the sets that are out. -/
structure Balanced (next : Nat) (ps : List Pipeline) (out : List (Nat × Nat)) : Prop where
  distinct : (ps.map Pipeline.id).Nodup
  drawn : ∀ p ∈ ps, p.id < next
  tidy : ∀ p ∈ ps, p.Tidy
  once : out.Nodup
  home : ∀ tag ∈ out, ∃ p ∈ ps, p.id = tag.1
  outside : ∀ p ∈ ps, ∀ i, (p.id, i) ∈ out ↔ i < p.depth ∧ i ∉ p.pool.free

theorem mem_set_iff {ps : List Pipeline} {k : Nat} {p p' : Pipeline}
    (distinct : (ps.map Pipeline.id).Nodup) (found : ps[k]? = some p) (q : Pipeline) :
    q ∈ ps.set k p' ↔ q = p' ∨ (q ∈ ps ∧ q.id ≠ p.id) := by
  have below : k < ps.length := (List.getElem?_eq_some_iff.mp found).1
  constructor
  · intro mem
    obtain ⟨j, there⟩ := List.mem_iff_getElem?.mp mem
    by_cases same : k = j
    · subst same
      rw [List.getElem?_set_self below] at there
      exact .inl (Option.some.inj there).symm
    · rw [List.getElem?_set_ne same] at there
      refine .inr ⟨List.mem_of_getElem? there, fun ids => same ?_⟩
      have both : (ps.map Pipeline.id)[k]? = (ps.map Pipeline.id)[j]? := by
        simp [found, there, ids]
      exact (List.getElem?_inj (by simpa using below) distinct).mp both
  · rintro (rfl | ⟨mem, other⟩)
    · exact List.mem_set below _
    · obtain ⟨j, there⟩ := List.mem_iff_getElem?.mp mem
      have apart : k ≠ j := by
        rintro rfl
        rw [found] at there
        exact other (Option.some.inj there ▸ rfl)
      apply List.mem_of_getElem? (i := j)
      rw [List.getElem?_set_ne apart, there]

namespace Balanced

variable {next : Nat} {ps : List Pipeline} {out out' : List (Nat × Nat)} {p p' : Pipeline}

theorem perm (b : Balanced next ps out) (h : out.Perm out') : Balanced next ps out' where
  distinct := b.distinct
  drawn := b.drawn
  tidy := b.tidy
  once := h.nodup_iff.mp b.once
  home tag mem := b.home tag (h.mem_iff.mpr mem)
  outside p mem i := h.mem_iff.symm.trans (b.outside p mem i)

theorem mono (b : Balanced next ps out) {later : Nat} (le : next ≤ later) :
    Balanced later ps out where
  distinct := b.distinct
  drawn p mem := Nat.lt_of_lt_of_le (b.drawn p mem) le
  tidy := b.tidy
  once := b.once
  home := b.home
  outside := b.outside

theorem grow (b : Balanced next ps out) (new : p.id = next) (tidy : p.Tidy)
    (free : ∀ i, i ∈ p.pool.free ↔ i < p.depth) : Balanced (next + 1) (ps ++ [p]) out where
  distinct := by
    rw [List.map_append, List.nodup_append]
    refine ⟨b.distinct, by simp, ?_⟩
    intro id old id' single same
    obtain ⟨q, mem, rfl⟩ := List.mem_map.mp old
    have drawn := b.drawn q mem
    simp at single
    omega
  drawn q mem := by
    rcases List.mem_append.mp mem with old | single
    · exact Nat.lt_succ_of_lt (b.drawn q old)
    · rw [List.mem_singleton.mp single, new]
      exact Nat.lt_succ_self next
  tidy q mem := by
    rcases List.mem_append.mp mem with old | single
    · exact b.tidy q old
    · exact List.mem_singleton.mp single ▸ tidy
  once := b.once
  home tag mem := by
    obtain ⟨q, old, id⟩ := b.home tag mem
    exact ⟨q, List.mem_append_left _ old, id⟩
  outside q mem i := by
    rcases List.mem_append.mp mem with old | single
    · exact b.outside q old i
    · obtain rfl := List.mem_singleton.mp single
      -- no tag is of the new pipeline, whose id was not drawn before
      constructor
      · intro mem
        obtain ⟨q', old, id⟩ := b.home _ mem
        have drawn := b.drawn q' old
        simp only at id
        omega
      · rintro ⟨below, taken⟩
        exact absurd ((free i).mpr below) taken

/- One pipeline changes, and with it only the tags of its own sets. -/
theorem replace (b : Balanced next ps out) {k : Nat} (found : ps[k]? = some p)
    (id : p'.id = p.id) (tidy : p'.Tidy) (once : out'.Nodup)
    (others : ∀ q i, q ≠ p.id → ((q, i) ∈ out' ↔ (q, i) ∈ out))
    (own : ∀ i, (p.id, i) ∈ out' ↔ i < p'.depth ∧ i ∉ p'.pool.free) :
    Balanced next (ps.set k p') out' where
  distinct := by
    rw [map_set_eq found id]
    exact b.distinct
  drawn q mem := by
    rcases (mem_set_iff b.distinct found q).mp mem with rfl | ⟨old, -⟩
    · rw [id]
      exact b.drawn p (List.mem_of_getElem? found)
    · exact b.drawn q old
  tidy q mem := by
    rcases (mem_set_iff b.distinct found q).mp mem with rfl | ⟨old, -⟩
    · exact tidy
    · exact b.tidy q old
  once := once
  home := by
    rintro ⟨q, i⟩ mem
    by_cases same : q = p.id
    · exact ⟨p', (mem_set_iff b.distinct found p').mpr (.inl rfl), id.trans same.symm⟩
    · obtain ⟨old, there, rfl⟩ := b.home _ ((others q i same).mp mem)
      exact ⟨old, (mem_set_iff b.distinct found old).mpr (.inr ⟨there, same⟩), rfl⟩
  outside q mem i := by
    rcases (mem_set_iff b.distinct found q).mp mem with rfl | ⟨old, other⟩
    · rw [id]
      exact own i
    · rw [others _ i other]
      exact b.outside q old i

theorem take (b : Balanced next ps out) {k i : Nat} {free : List Nat} (found : ps[k]? = some p)
    (split : p.pool.free = i :: free) :
    Balanced next (ps.set k (p.taken i free)) ((p.id, i) :: out) := by
  have mem := List.mem_of_getElem? found
  have tidy := b.tidy p mem
  have new : (p.id, i) ∉ out := fun taken =>
    ((b.outside p mem i).mp taken).2 (split ▸ List.mem_cons_self)
  refine b.replace found rfl (tidy.taken split) (List.nodup_cons.mpr ⟨new, b.once⟩) ?_ ?_
  · intro q j other
    simp [other]
  · intro j
    have below := tidy.pool.below i (split ▸ List.mem_cons_self)
    have free := tidy.pool.mem_tail_iff split (j := j)
    have outside := b.outside p mem j
    simp only [List.mem_cons, Prod.mk.injEq, true_and, outside, Pipeline.taken, free]
    constructor
    · rintro (rfl | ⟨lt, taken⟩)
      · exact ⟨below, fun kept => kept.2 rfl⟩
      · exact ⟨lt, fun kept => taken kept.1⟩
    · rintro ⟨lt, kept⟩
      by_cases same : j = i
      · exact .inl same
      · exact .inr ⟨lt, fun free => kept ⟨free, same⟩⟩

theorem put {s : TensorSet} (b : Balanced next ps (s.tag :: out)) {k : Nat}
    (found : ps[k]? = some p) (home : s.pipeline = p.id) :
    Balanced next (ps.set k (p.refilled s)) out ∧ p.release s = (.ok (), p.refilled s) := by
  have mem := List.mem_of_getElem? found
  have tidy := b.tidy p mem
  have tag : s.tag = (p.id, s.index) := by rw [TensorSet.tag, home]
  obtain ⟨below, taken⟩ := (b.outside p mem s.index).mp (tag ▸ List.mem_cons_self)
  obtain ⟨new, once⟩ := List.nodup_cons.mp b.once
  refine ⟨?_, tidy.release_home home below taken⟩
  refine b.replace found rfl (tidy.refilled home below taken) once ?_ ?_
  · intro q i other
    simp [tag, other]
  · intro i
    have outside := b.outside p mem i
    rw [tag] at new outside
    simp only [List.mem_cons, Prod.mk.injEq, true_and] at outside
    have filled : i ∈ (p.refilled s).pool.free ↔ i = s.index ∨ i ∈ p.pool.free :=
      IndexPool.mem_insert
    constructor
    · intro still
      have was := outside.mp (.inr still)
      refine ⟨was.1, fun free => ?_⟩
      rcases filled.mp free with rfl | old
      · exact new still
      · exact was.2 old
    · rintro ⟨lt, kept⟩
      rw [filled, not_or] at kept
      exact (outside.mpr ⟨lt, kept.2⟩).resolve_left kept.1

theorem available_add (b : Balanced next ps out) (mem : p ∈ ps) :
    p.available + out.countP (·.1 = p.id) = p.depth := by
  have only : ∀ tag ∈ out.filter (·.1 = p.id), tag = (p.id, tag.2) := by
    intro tag mem
    have id := of_decide_eq_true (List.mem_filter.mp mem).2
    exact Prod.ext id rfl
  have once : ((out.filter (·.1 = p.id)).map Prod.snd).Nodup := by
    refine (b.once.filter _).map_on fun tag mem tag' mem' same => ?_
    rw [only tag mem, only tag' mem', same]
  have outside : ∀ i, i ∈ (out.filter (·.1 = p.id)).map Prod.snd ↔
      i < p.depth ∧ i ∉ p.pool.free := by
    intro i
    rw [← b.outside p mem i, List.mem_map]
    constructor
    · rintro ⟨tag, mem, rfl⟩
      exact only tag mem ▸ (List.mem_filter.mp mem).1
    · intro taken
      exact ⟨(p.id, i), List.mem_filter.mpr ⟨taken, decide_eq_true rfl⟩, rfl⟩
  have sum := (b.tidy p mem).pool.available_add_length once outside
  rw [List.length_map, ← List.countP_eq_length_filter] at sum
  exact sum

theorem mem_free_iff (b : Balanced next ps out) (mem : p ∈ ps) {i : Nat} :
    i ∈ p.pool.free ↔ i < p.depth ∧ (p.id, i) ∉ out := by
  rw [b.outside p mem i]
  constructor
  · intro free
    exact ⟨(b.tidy p mem).pool.below i free, fun taken => taken.2 free⟩
  · rintro ⟨below, inside⟩
    by_contra taken
    exact inside ⟨below, taken⟩

theorem acquire_eq_none_iff (b : Balanced next ps out) (mem : p ∈ ps) :
    p.acquire.1 = none ↔ ∀ i < p.depth, (p.id, i) ∈ out := by
  have empty : p.pool.free = [] ↔ ∀ i < p.depth, (p.id, i) ∈ out := by
    rw [List.eq_nil_iff_forall_not_mem]
    simp only [b.mem_free_iff mem, not_and, not_not]
  rw [← empty]
  rcases (b.tidy p mem).acquire_cases with ⟨free, same⟩ | ⟨i, rest, s, free, -, taken⟩
  · rw [free, same]
    simp
  · rw [free, taken]
    simp

theorem isLeast_acquire (b : Balanced next ps out) (mem : p ∈ ps) {s : TensorSet}
    (acquired : p.acquire.1 = some s) :
    s.pipeline = p.id ∧ IsLeast {i | i < p.depth ∧ (p.id, i) ∉ out} s.index := by
  have tidy := b.tidy p mem
  rcases tidy.acquire_cases with ⟨-, same⟩ | ⟨i, rest, s', free, entry, taken⟩
  · rw [same] at acquired
    cases acquired
  · rw [taken] at acquired
    cases acquired
    obtain ⟨home, index⟩ := tidy.labelled i s entry
    have least := tidy.pool.isLeast_head free
    simp only [b.mem_free_iff mem] at least
    exact ⟨home, index ▸ least⟩

end Balanced

end TensorCall
