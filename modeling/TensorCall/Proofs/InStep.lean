import Mathlib
import TensorCall.Proofs.Conservation
import TensorCall.Proofs.Returns

namespace TensorCall

namespace Pipeline

/-- The states that a pipeline comes to, with the sets of it that are held. Sets of other
pipelines come from outside. Whoever holds a set may change its tensors in any way. -/
inductive Reached : Pipeline → List TensorSet → Prop where
  | create {ε : Type} [Executable ε] {x : ε} {id depth : Nat} {p : Pipeline} :
      create id x depth = .ok p → Reached p []
  | acquire {p : Pipeline} {held : List TensorSet} : Reached p held →
      Reached p.acquire.2 (held ++ p.acquire.1.toList)
  | release {p : Pipeline} {before after : List TensorSet} {s : TensorSet} :
      Reached p (before ++ s :: after) → Reached (p.release s).2 (before ++ after)
  | releaseForeign {p : Pipeline} {held : List TensorSet} {s : TensorSet} : Reached p held →
      s.pipeline ≠ p.id → Reached (p.release s).2 held
  | drop {p : Pipeline} {before after : List TensorSet} {s : TensorSet} :
      Reached p (before ++ s :: after) → Reached p (before ++ after)
  | change {p : Pipeline} {before after : List TensorSet} {s s' : TensorSet} :
      Reached p (before ++ s :: after) → s'.tag = s.tag → Reached p (before ++ s' :: after)

variable {p : Pipeline} {held : List TensorSet}

theorem Reached.balanced (h : p.Reached held) :
    ∃ lost, Balanced (p.id + 1) [p] (held.map TensorSet.tag ++ lost) := by
  induction h with
  | @create _ _ x id depth p made =>
    have tidy := tidy_create made
    obtain ⟨-, sets, -, rfl⟩ := create_eq_ok made
    have none : Balanced id [] [] := Circulation.consistent_start.mono (Nat.zero_le id)
    exact ⟨[], none.grow rfl tidy fun _ => IndexPool.mem_free_full⟩
  | @acquire p held _ ih =>
    obtain ⟨lost, b⟩ := ih
    have tidy := b.tidy p (List.mem_singleton_self p)
    rcases tidy.acquire_cases with ⟨-, same⟩ | ⟨i, free, s, split, entry, taken⟩
    · rw [same, Option.toList_none, List.append_nil]
      exact ⟨lost, b⟩
    · obtain ⟨home, index⟩ := tidy.labelled i s entry
      have tag : s.tag = (p.id, i) := Prod.ext home index
      have b := tag ▸ b.take (k := 0) rfl split
      rw [taken]
      refine ⟨lost, b.perm ?_⟩
      rw [Option.toList_some, List.map_append, List.append_assoc]
      exact List.perm_middle.symm
  | @release p before after s _ ih =>
    obtain ⟨lost, b⟩ := ih
    rw [List.map_append, List.map_cons, List.append_assoc, List.cons_append] at b
    -- a ledger has its tags in any order, so the released one may come first
    have b := b.perm List.perm_middle
    obtain ⟨q, mem, home⟩ := b.home s.tag List.mem_cons_self
    obtain rfl := List.mem_singleton.mp mem
    obtain ⟨balanced, released⟩ := b.put (k := 0) rfl home.symm
    rw [released]
    refine ⟨lost, ?_⟩
    rwa [List.map_append, List.append_assoc]
  | releaseForeign _ foreign ih => rwa [release_foreign foreign]
  | @drop p before after s _ ih =>
    obtain ⟨lost, b⟩ := ih
    -- a dropped set is out for good
    refine ⟨s.tag :: lost, b.perm ?_⟩
    rw [List.map_append, List.map_append, List.map_cons, List.append_assoc, List.append_assoc]
    exact List.Perm.append_left _ List.perm_middle.symm
  | change _ same ih =>
    rw [List.map_append, List.map_cons] at ih ⊢
    rwa [same]

theorem Reached.tidy (h : p.Reached held) : p.Tidy := by
  obtain ⟨lost, b⟩ := h.balanced
  exact b.tidy p (List.mem_singleton_self p)

theorem Reached.acquire_of_take? (h : p.Reached held) {i : Nat} {pool : IndexPool}
    (taken : p.pool.take? = some (i, pool)) : i < p.entries.length ∧
      ∃ s, p.entries[i]? = some (some s) ∧
        p.acquire = (some s, { p with pool, entries := p.entries.set i none }) := by
  rcases h.tidy.acquire_cases with ⟨empty, -⟩ | ⟨j, free, s, split, entry, acquired⟩
  · rw [IndexPool.take?_of_nil empty] at taken
    cases taken
  · rw [IndexPool.take?_of_cons split] at taken
    cases taken
    exact ⟨(List.getElem?_eq_some_iff.mp entry).1, s, entry, acquired⟩

theorem Reached.release_held (h : p.Reached held) {s : TensorSet} (mem : s ∈ held) :
    ∃ pool, p.pool.giveBack s.index = (.ok (), pool) ∧
      p.release s = (.ok (), { p with pool, entries := p.entries.set s.index (some s) }) := by
  obtain ⟨lost, b⟩ := h.balanced
  have out := List.mem_append_left lost (List.mem_map_of_mem (f := TensorSet.tag) mem)
  obtain ⟨q, own, home⟩ := b.home s.tag out
  obtain rfl := List.mem_singleton.mp own
  have tag : s.tag = (q.id, s.index) := Prod.ext home.symm rfl
  obtain ⟨below, taken⟩ := (b.outside q own s.index).mp (tag ▸ out)
  exact ⟨_, (h.tidy.pool.giveBack below taken).1, h.tidy.release_home home.symm below taken⟩

end Pipeline

namespace Circulation

open Pipeline

variable {w : Circulation} {q : Pipeline}

def heldBy (id : Nat) (held : List TensorSet) : List TensorSet := held.filter (·.pipeline = id)

theorem eq_take_append_cons_drop {α : Type} {as : List α} {j : Nat} {a : α}
    (found : as[j]? = some a) : as = as.take j ++ a :: as.drop (j + 1) := by
  obtain ⟨below, rfl⟩ := List.getElem?_eq_some_iff.mp found
  rw [← List.drop_eq_getElem_cons below, List.take_append_drop]

theorem heldBy_append (id : Nat) (held held' : List TensorSet) :
    heldBy id (held ++ held') = heldBy id held ++ heldBy id held' :=
  List.filter_append ..

theorem heldBy_cons_self {id : Nat} {s : TensorSet} (own : s.pipeline = id)
    (held : List TensorSet) : heldBy id (s :: held) = s :: heldBy id held :=
  List.filter_cons_of_pos (decide_eq_true own)

theorem heldBy_cons_of_ne {id : Nat} {s : TensorSet} (other : s.pipeline ≠ id)
    (held : List TensorSet) : heldBy id (s :: held) = heldBy id held :=
  List.filter_cons_of_neg (by simpa using other)

theorem reached_eraseIdx {held : List TensorSet} (h : q.Reached (heldBy q.id held)) {j : Nat}
    {s : TensorSet} (found : held[j]? = some s) : q.Reached (heldBy q.id (held.eraseIdx j)) := by
  rw [eq_take_append_cons_drop found, heldBy_append] at h
  rw [List.eraseIdx_eq_take_drop_succ, heldBy_append]
  by_cases own : s.pipeline = q.id
  · rw [heldBy_cons_self own] at h
    exact h.drop
  · rwa [heldBy_cons_of_ne own] at h

theorem reached_modify {held : List TensorSet} (h : q.Reached (heldBy q.id held)) (j : Nat)
    {f : TensorSet → TensorSet} (same : ∀ s, (f s).tag = s.tag) :
    q.Reached (heldBy q.id (held.modify j f)) := by
  cases found : held[j]? with
  | none => rwa [List.modify_eq_self (List.getElem?_eq_none_iff.mp found)]
  | some s =>
    rw [eq_take_append_cons_drop found, heldBy_append] at h
    rw [modify_eq_take_append_drop, found, Option.map_some, Option.toList_some,
      List.append_assoc, List.singleton_append, heldBy_append]
    have home : (f s).pipeline = s.pipeline := congrArg Prod.fst (same s)
    by_cases own : s.pipeline = q.id
    · rw [heldBy_cons_self own] at h
      rw [heldBy_cons_self (home.trans own)]
      exact h.change (same s)
    · rw [heldBy_cons_of_ne own] at h
      rwa [heldBy_cons_of_ne (home ▸ own)]

def AllReached (w : Circulation) : Prop := ∀ q ∈ w.pipelines, q.Reached (heldBy q.id w.held)

namespace AllReached

theorem create {ε : Type} [Executable ε] (a : AllReached w) (c : w.Consistent) (x : ε)
    (depth : Nat) : AllReached (w.step (.create x depth)) := by
  simp only [step]
  split
  · next p made =>
    intro q mem
    rcases List.mem_append.mp mem with old | new
    · exact a q old
    · obtain rfl := List.mem_singleton.mp new
      have id : q.id = w.nextId.toNat := by
        obtain ⟨-, sets, -, rfl⟩ := create_eq_ok made
        rfl
      have none : heldBy q.id w.held = [] := by
        rw [heldBy, List.filter_eq_nil_iff]
        intro s held own
        obtain ⟨p, there, home⟩ := c.home s.tag
          (List.mem_append_left _ (List.mem_map_of_mem held))
        have drawn : p.id < w.nextId.toNat := c.drawn p there
        have same : p.id = q.id := home.trans (of_decide_eq_true own)
        omega
      rw [none]
      exact .create made
  · exact a

theorem acquire (a : AllReached w) (c : w.Consistent) (k : Nat) :
    AllReached (w.step (.acquire k)) := by
  simp only [step]
  split
  · exact a
  · next p found =>
    have mem := List.mem_of_getElem? found
    have reached := (a p mem).acquire
    rcases (c.tidy p mem).acquire_cases with ⟨-, same⟩ | ⟨i, free, s, -, entry, taken⟩
    · rw [same, set_of_getElem? found, Option.toList_none, List.append_nil]
      exact a
    · have home := ((c.tidy p mem).labelled i s entry).1
      rw [taken] at reached ⊢
      intro q there
      rw [Option.toList_some, heldBy_append]
      rcases (mem_set_iff c.distinct found q).mp there with rfl | ⟨old, other⟩
      · have own : s.pipeline = (p.taken i free).id := home
        rw [heldBy_cons_self own]
        exact reached
      · have none : heldBy q.id [] = [] := rfl
        rw [heldBy_cons_of_ne (home ▸ other.symm), none, List.append_nil]
        exact a q old

theorem release (a : AllReached w) (c : w.Consistent) (j k : Nat) :
    AllReached (w.step (.release j k)) := by
  simp only [step]
  split
  · next s p held found =>
    have mem := List.mem_of_getElem? found
    have id : (p.release s).2.id = p.id := by
      rcases (c.tidy p mem).release_cases s with ⟨fault, refused⟩ | ⟨-, released, -⟩
      · rw [refused]
      · rw [released]
        rfl
    intro q there
    rcases (mem_set_iff c.distinct found q).mp there with rfl | ⟨old, -⟩
    · have reached := a p mem
      rw [eq_take_append_cons_drop held, heldBy_append] at reached
      rw [id, List.eraseIdx_eq_take_drop_succ, heldBy_append]
      by_cases own : s.pipeline = p.id
      · rw [heldBy_cons_self own] at reached
        exact reached.release
      · rw [heldBy_cons_of_ne own] at reached
        exact reached.releaseForeign own
    · exact reached_eraseIdx (a q old) held
  · exact a

theorem step (a : AllReached w) (c : w.Consistent) (e : Event) : AllReached (w.step e) := by
  cases e with
  | create x depth => exact a.create c x depth
  | acquire k => exact a.acquire c k
  | release j k => exact a.release c j k
  | drop j =>
    simp only [Circulation.step]
    split
    · exact a
    · next s held => exact fun q there => reached_eraseIdx (a q there) held
  | write j port place payload =>
    exact fun q there => reached_modify (a q there) j fun s => s.tag_attempt port place payload
  | call j x => exact fun q there => reached_modify (a q there) j fun s => s.tag_call x

end AllReached

theorem allReached_run (events : List Event) (few : events.countP Event.drawsId < UInt64.size) :
    AllReached (run events) := by
  induction events using List.reverseRecOn with
  | nil => nofun
  | append_singleton events e ih =>
    rw [List.countP_append] at few
    have few := Nat.lt_of_le_of_lt (Nat.le_add_right _ _) few
    rw [run_append_singleton]
    exact (ih few).step (consistent_run events few) e

/-- An index is free exactly if its entry is filled, with the set of that index, which an
acquisition hands out; only a foreign set is refused by a release. This goes for the pipelines of
a run, too, where `few` counts every creation of positive depth, also those that fail. -/
theorem reached_in_step :
    (∀ (p : Pipeline) (held : List TensorSet), p.Reached held →
      p.entries.length = p.depth ∧
      (∀ i, i ∈ p.pool.free ↔ ∃ s, p.entries[i]? = some (some s)) ∧
      (∀ (i : Nat) (s : TensorSet), p.entries[i]? = some (some s) →
        s.index = i ∧ s.pipeline = p.id) ∧
      (p.pool.take? = none → p.acquire = (none, p)) ∧
      (∀ i pool, p.pool.take? = some (i, pool) → i < p.entries.length ∧
        ∃ s, p.entries[i]? = some (some s) ∧
          p.acquire = (some s, { p with pool, entries := p.entries.set i none })) ∧
      ∀ s : TensorSet, s ∈ held ∨ s.pipeline ≠ p.id →
        ((∃ fault, (p.release s).1 = .error fault) ↔ s.pipeline ≠ p.id) ∧
        (∀ fault, (p.release s).1 = .error fault →
          fault = .foreignSet s.index ∧ (p.release s).2 = p) ∧
        (s.pipeline = p.id → ∃ pool, p.pool.giveBack s.index = (.ok (), pool) ∧
          p.release s = (.ok (), { p with pool, entries := p.entries.set s.index (some s) }))) ∧
    ∀ events : List Event, events.countP Event.drawsId < UInt64.size →
      ((run events).pipelines.map Pipeline.id).Nodup ∧
      ∀ p ∈ (run events).pipelines, p.Reached (heldBy p.id (run events).held) := by
  refine ⟨?_, fun events few => ⟨(consistent_run events few).distinct, allReached_run events few⟩⟩
  intro p held reached
  have tidy := reached.tidy
  refine ⟨tidy.size, tidy.filled, fun i s entry => (tidy.labelled i s entry).symm, ?_, ?_, ?_⟩
  · intro none
    rw [acquire, none]
  · exact fun i pool taken => reached.acquire_of_take? taken
  · intro s known
    by_cases own : s.pipeline = p.id
    · obtain ⟨pool, back, released⟩ :=
        reached.release_held (known.resolve_right (not_not.mpr own))
      have done : ∀ fault, (p.release s).1 ≠ .error fault := by simp [released]
      refine ⟨⟨?_, fun other => absurd own other⟩, ?_, fun _ => ⟨pool, back, released⟩⟩
      · rintro ⟨fault, refused⟩
        exact absurd refused (done fault)
      · exact fun fault refused => absurd refused (done fault)
    · rw [release_foreign own]
      refine ⟨⟨fun _ => own, fun _ => ⟨_, rfl⟩⟩, ?_, fun home => absurd home own⟩
      intro fault refused
      cases refused
      exact ⟨rfl, rfl⟩

/- The set of index 0 is out of both pipelines. Its entry takes back the one that belongs there
and refuses the other one, although it is empty and the index is the same. -/
theorem reached_in_step_foreign :
    let h : Host Nat := ⟨"f", .empty, 2, Script.kernel [[]], 0⟩
    let events : List Event := [.create h 2, .create h 1, .acquire 0, .acquire 1]
    let s : TensorSet := ⟨0, 0, [], []⟩
    let foreign : TensorSet := ⟨1, 0, [], []⟩
    let p : Pipeline := ⟨0, ⟨2, [1]⟩, [none, some ⟨0, 1, [], []⟩]⟩
    (run events).held = [s, foreign] ∧ p ∈ (run events).pipelines ∧ p.Reached [s] ∧
      p.entries.length = 2 ∧ (∃ pool, p.pool.giveBack 0 = (.ok (), pool) ∧
        p.release s = (.ok (), { p with pool, entries := p.entries.set 0 (some s) })) ∧
      ∃ fault, (p.release foreign).1 = .error fault ∧ (p.release foreign).2 = p := by
  intro h events s foreign p
  obtain ⟨inStep, among⟩ := reached_in_step
  have there : p ∈ (run events).pipelines := List.mem_of_getElem? (i := 0) rfl
  have reached : p.Reached [s] := (among events (by decide)).2 p there
  obtain ⟨size, -, -, -, -, released⟩ := inStep p [s] reached
  obtain ⟨-, -, back⟩ := released s (.inl List.mem_cons_self)
  obtain ⟨fails, refused, -⟩ := released foreign (.inr (by decide))
  obtain ⟨fault, failed⟩ := fails.mpr (by decide)
  exact ⟨rfl, there, reached, size, back rfl, fault, failed, (refused fault failed).2⟩

end Circulation

end TensorCall
