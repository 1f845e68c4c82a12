import Mathlib
import TensorCall.Proofs.Entries

/-! What an acquisition hands out. The entries of pipelines are filled by creations and by
successful releases and by nothing else, so the set at an index is the one that was returned
to it last, or the one that it was created with. -/
namespace TensorCall

namespace Circulation

def notedFrom {β : Type} (note : Circulation → Event → Option β) (w : Circulation) :
    List Event → List β
  | [] => []
  | e :: events => (note w e).toList ++ notedFrom note (w.step e) events

def noted {β : Type} (note : Circulation → Event → Option β) (events : List Event) : List β :=
  notedFrom note start events

theorem notedFrom_append_singleton {β : Type} (note : Circulation → Event → Option β)
    (w : Circulation) (events : List Event) (e : Event) :
    notedFrom note w (events ++ [e]) =
      notedFrom note w events ++ (note (events.foldl step w) e).toList := by
  induction events generalizing w with
  | nil => simp [notedFrom]
  | cons e' events ih => simp [notedFrom, ih]

theorem noted_append_singleton {β : Type} (note : Circulation → Event → Option β)
    (events : List Event) (e : Event) :
    noted note (events ++ [e]) = noted note events ++ (note (run events) e).toList :=
  notedFrom_append_singleton note start events e

def made? (w : Circulation) : Event → Option Pipeline
  | @Event.create _ _ x depth => (Pipeline.create w.nextId.toNat x depth).toOption
  | _ => none

def returned? (w : Circulation) : Event → Option (Nat × TensorSet)
  | .release j k =>
    match w.held[j]?, w.pipelines[k]? with
    | some s, some p => (p.release s).1.toOption.map fun _ => (k, s)
    | _, _ => none
  | _ => none

theorem returned?_eq_some {w : Circulation} {e : Event} {k : Nat} {s : TensorSet}
    (h : w.returned? e = some (k, s)) : ∃ j p, e = .release j k ∧ w.held[j]? = some s ∧
      w.pipelines[k]? = some p ∧ (p.release s).1 = .ok () := by
  cases e with
  | release j l =>
    simp only [returned?] at h
    split at h
    · next s' p held found =>
      cases answer : (p.release s').1 with
      | ok done =>
        rw [answer] at h
        cases h
        exact ⟨j, p, rfl, held, found, answer⟩
      | error fault =>
        rw [answer] at h
        cases h
    · cases h
  | _ => cases h

def made (events : List Event) : List Pipeline := noted made? events

def returns (events : List Event) : List (Nat × TensorSet) := noted returned? events

theorem made_append_singleton (events : List Event) (e : Event) :
    made (events ++ [e]) = made events ++ ((run events).made? e).toList :=
  noted_append_singleton made? events e

theorem returns_append_singleton (events : List Event) (e : Event) :
    returns (events ++ [e]) = returns events ++ ((run events).returned? e).toList :=
  noted_append_singleton returned? events e

def lastReturn? (log : List (Nat × TensorSet)) (k i : Nat) : Option TensorSet :=
  (log.reverse.find? fun r => r.1 = k ∧ r.2.index = i).map Prod.snd

theorem lastReturn?_append_self (log : List (Nat × TensorSet)) (k : Nat) (s : TensorSet) :
    lastReturn? (log ++ [(k, s)]) k s.index = some s := by
  simp [lastReturn?]

theorem lastReturn?_append_of_ne {k l i : Nat} {s : TensorSet} (log : List (Nat × TensorSet))
    (other : ¬ (l = k ∧ s.index = i)) :
    lastReturn? (log ++ [(l, s)]) k i = lastReturn? log k i := by
  simp [lastReturn?, other]

theorem lastReturn?_eq_none {log : List (Nat × TensorSet)} {k : Nat}
    (never : ∀ r ∈ log, r.1 ≠ k) (i : Nat) : lastReturn? log k i = none := by
  rw [lastReturn?, Option.map_eq_none_iff, List.find?_eq_none]
  intro r mem
  have other := never r (List.mem_reverse.mp mem)
  simp [other]

/-- The set that was returned last, or else the one from the creation. -/
def supplied? (made : List Pipeline) (log : List (Nat × TensorSet)) (k i : Nat) :
    Option TensorSet :=
  (lastReturn? log k i).or (Pipeline.setAt? made k i)

/-- The entries of pipelines that were made so hold what was supplied. -/
structure Sourced (made ps : List Pipeline) (log : List (Nat × TensorSet)) : Prop where
  tidy : ∀ p ∈ ps, p.Tidy
  count : made.length = ps.length
  known : ∀ r ∈ log, r.1 < ps.length
  stored : ∀ k i s, Pipeline.setAt? ps k i = some s → supplied? made log k i = some s

namespace Sourced

variable {made ps : List Pipeline} {log : List (Nat × TensorSet)} {p : Pipeline} {k : Nat}

theorem grow (h : Sourced made ps log) (tidy : p.Tidy) : Sourced (made ++ [p]) (ps ++ [p]) log where
  tidy q mem := by
    rcases List.mem_append.mp mem with old | new
    · exact h.tidy q old
    · exact List.mem_singleton.mp new ▸ tidy
  count := by rw [List.length_append, List.length_append, h.count]
  known r mem := by
    rw [List.length_append]
    exact Nat.lt_add_right _ (h.known r mem)
  stored l i s stored := by
    by_cases old : l < ps.length
    · rw [Pipeline.setAt?_append_of_lt old] at stored
      rw [supplied?, Pipeline.setAt?_append_of_lt (h.count ▸ old)]
      exact h.stored l i s stored
    · -- nothing has been returned to a new pipeline
      have never : ∀ r ∈ log, r.1 ≠ l := fun r mem same => old (same ▸ h.known r mem)
      rw [supplied?, lastReturn?_eq_none never, Option.none_or]
      have beyond := Nat.le_of_not_lt old
      rw [Pipeline.setAt?, List.getElem?_append_right beyond] at stored
      rwa [Pipeline.setAt?, List.getElem?_append_right (h.count ▸ beyond), h.count]

theorem replace (h : Sourced made ps log) {p' : Pipeline} {log' : List (Nat × TensorSet)}
    (tidy : p'.Tidy) (known : ∀ r ∈ log', r.1 < ps.length)
    (stored : ∀ l i s, Pipeline.setAt? (ps.set k p') l i = some s →
      supplied? made log' l i = some s) : Sourced made (ps.set k p') log' where
  tidy q mem := by
    rcases List.mem_or_eq_of_mem_set mem with old | rfl
    · exact h.tidy q old
    · exact tidy
  count := by rw [List.length_set, h.count]
  known := by rwa [List.length_set]
  stored := stored

theorem take (h : Sourced made ps log) (found : ps[k]? = some p) :
    Sourced made (ps.set k p.acquire.2) log := by
  have tidy := h.tidy p (List.mem_of_getElem? found)
  rcases tidy.acquire_cases with ⟨-, same⟩ | ⟨j, free, s, split, -, taken⟩
  · rwa [same, set_of_getElem? found]
  · rw [taken]
    refine h.replace (tidy.taken split) h.known ?_
    intro l i s stored
    exact h.stored l i s ((Pipeline.setAt?_taken_iff found).mp stored).2

theorem put (h : Sourced made ps log) (found : ps[k]? = some p) {s : TensorSet}
    (entry : p.entries[s.index]? = some none) (tidy : (p.refilled s).Tidy) :
    Sourced made (ps.set k (p.refilled s)) (log ++ [(k, s)]) := by
  refine h.replace tidy ?_ ?_
  · intro r mem
    rcases List.mem_append.mp mem with old | new
    · exact h.known r old
    · exact List.mem_singleton.mp new ▸ (List.getElem?_eq_some_iff.mp found).1
  · intro l i s' stored
    rcases (Pipeline.setAt?_refilled_iff found entry).mp stored with ⟨rfl, rfl, rfl⟩ | kept
    · rw [supplied?, lastReturn?_append_self, Option.some_or]
    · have other : ¬ (k = l ∧ s.index = i) := by
        rintro ⟨rfl, rfl⟩
        rw [Pipeline.setAt?_eq_some_iff found, entry] at kept
        cases kept
      rw [supplied?, lastReturn?_append_of_ne log other]
      exact h.stored l i s' kept

theorem step {w : Circulation} (h : Sourced made w.pipelines log) (e : Event) :
    Sourced (made ++ (w.made? e).toList) (w.step e).pipelines (log ++ (w.returned? e).toList) := by
  cases e with
  | create x depth =>
    simp only [Circulation.step, made?, returned?]
    cases created : Pipeline.create w.nextId.toNat x depth with
    | ok p => simpa [Except.toOption] using h.grow (Pipeline.tidy_create created)
    | error fault => simpa [Except.toOption] using h
  | acquire k =>
    simp only [Circulation.step, made?, returned?, Option.toList_none, List.append_nil]
    split
    · exact h
    · next p found => exact h.take found
  | release j k =>
    cases held : w.held[j]? with
    | none => simpa [Circulation.step, made?, returned?, held] using h
    | some s =>
      cases found : w.pipelines[k]? with
      | none => simpa [Circulation.step, made?, returned?, held, found] using h
      | some p =>
        simp only [Circulation.step, made?, returned?, held, found, Option.toList_none,
          List.append_nil]
        rcases (h.tidy p (List.mem_of_getElem? found)).release_cases s with
          ⟨fault, refused⟩ | ⟨entry, released, tidy⟩
        · simpa [refused, Except.toOption, set_of_getElem? found] using h
        · simpa [released, Except.toOption] using h.put found entry tidy
  | drop j =>
    simp only [Circulation.step, made?, returned?, Option.toList_none, List.append_nil]
    split
    · exact h
    · exact h
  | write j port place payload => simpa [Circulation.step, made?, returned?] using h
  | call j x => simpa [Circulation.step, made?, returned?] using h

end Sourced

theorem sourced_run (events : List Event) :
    Sourced (made events) (run events).pipelines (returns events) := by
  induction events using List.reverseRecOn with
  | nil => exact ⟨nofun, rfl, nofun, fun k i s stored => by cases stored⟩
  | append_singleton events e ih =>
    rw [made_append_singleton, returns_append_singleton, run_append_singleton]
    exact ih.step e

inductive Event.Makes (id : Nat) (p : Pipeline) : Event → Prop where
  | create {ε : Type} [Executable ε] (x : ε) (depth : Nat) : Pipeline.create id x depth = .ok p →
      p.Stocked x depth → Makes id p (.create x depth)

theorem makes_of_made? {w : Circulation} {e : Event} {p : Pipeline} (h : w.made? e = some p) :
    e.Makes w.nextId.toNat p := by
  cases e with
  | create x depth =>
    have created : Pipeline.create w.nextId.toNat x depth = .ok p := by
      cases answer : Pipeline.create w.nextId.toNat x depth with
      | ok p' => simpa [made?, answer, Except.toOption] using h
      | error fault => simp [made?, answer, Except.toOption] at h
    exact .create x depth created (Pipeline.stocked_create created)
  | _ => cases h

theorem makes_of_made {events : List Event} {k : Nat} {p : Pipeline}
    (h : (made events)[k]? = some p) : ∃ before e after, events = before ++ e :: after ∧
      (run before).pipelines.length = k ∧ e.Makes (run before).nextId.toNat p := by
  induction events using List.reverseRecOn with
  | nil => cases h
  | append_singleton events e ih =>
    rw [made_append_singleton] at h
    by_cases old : k < (made events).length
    · obtain ⟨before, e', after, rfl, rest⟩ := ih ((List.getElem?_append_left old).symm.trans h)
      exact ⟨before, e', after ++ [e], by simp, rest⟩
    · have beyond := Nat.le_of_not_lt old
      rw [List.getElem?_append_right beyond] at h
      cases created : (run events).made? e with
      | none => simp [created] at h
      | some q =>
        rw [created, Option.toList_some] at h
        obtain ⟨below, rfl⟩ := List.getElem?_eq_some_iff.mp h
        rw [List.length_singleton] at below
        have place : (run events).pipelines.length = k :=
          (sourced_run events).count.symm.trans (by omega)
        refine ⟨events, e, [], rfl, place, makes_of_made? ?_⟩
        rw [created, List.getElem_singleton]

theorem setAt?_of_returned {w : Circulation} (tidy : ∀ p ∈ w.pipelines, p.Tidy) {e : Event}
    {k : Nat} {s : TensorSet} (h : w.returned? e = some (k, s)) :
    Pipeline.setAt? (w.step e).pipelines k s.index = some s := by
  obtain ⟨j, p, rfl, held, found, answer⟩ := returned?_eq_some h
  simp only [step, held, found]
  rcases (tidy p (List.mem_of_getElem? found)).release_cases s with
    ⟨fault, refused⟩ | ⟨entry, released, -⟩
  · rw [refused] at answer
    cases answer
  · rw [released]
    exact (Pipeline.setAt?_refilled_iff found entry).mpr (.inl ⟨rfl, rfl, rfl⟩)

def Event.set? : Event → Option Nat
  | .release j _ => some j
  | .drop j => some j
  | .write j _ _ _ => some j
  | @Event.call j _ _ _ => some j
  | _ => none

/- Only an acquisition empties an entry, and it hands out what was there. -/
theorem setAt?_step {w : Circulation} (tidy : ∀ p ∈ w.pipelines, p.Tidy) {k i : Nat}
    {s : TensorSet} (stored : Pipeline.setAt? w.pipelines k i = some s) (e : Event) :
    Pipeline.setAt? (w.step e).pipelines k i = some s ∨
      e = .acquire k ∧ (w.step e).held = w.held ++ [s] := by
  cases e with
  | create x depth =>
    simp only [step]
    split
    · exact .inl ((Pipeline.setAt?_append_of_lt (Pipeline.lt_of_setAt? stored) _).trans stored)
    · exact .inl stored
  | acquire l =>
    cases found : w.pipelines[l]? with
    | none => exact .inl (by simpa only [step, found] using stored)
    | some p =>
      simp only [step, found]
      rcases (tidy p (List.mem_of_getElem? found)).acquire_cases with
        ⟨-, same⟩ | ⟨j, free, s', -, entry, taken⟩
      · rw [same, set_of_getElem? found]
        exact .inl stored
      · rw [taken]
        by_cases handed : l = k ∧ j = i
        · obtain ⟨rfl, rfl⟩ := handed
          rw [Pipeline.setAt?_eq_some_iff found, entry] at stored
          cases stored
          exact .inr ⟨rfl, rfl⟩
        · exact .inl ((Pipeline.setAt?_taken_iff found).mpr ⟨handed, stored⟩)
  | release j l =>
    simp only [step]
    split
    · next s' p held found =>
      rcases (tidy p (List.mem_of_getElem? found)).release_cases s' with
        ⟨fault, refused⟩ | ⟨entry, released, -⟩
      · rw [refused, set_of_getElem? found]
        exact .inl stored
      · rw [released]
        exact .inl ((Pipeline.setAt?_refilled_iff found entry).mpr (.inr stored))
    · exact .inl stored
  | drop j =>
    simp only [step]
    split <;> exact .inl stored
  | write j port place payload => exact .inl stored
  | call j x => exact .inl stored

theorem modify_eq_take_append_drop {α : Type} (f : α → α) (as : List α) (j : Nat) :
    as.modify j f = as.take j ++ (as[j]?.map f).toList ++ as.drop (j + 1) := by
  by_cases below : j < as.length
  · simp [List.modify_eq_take_cons_drop below, below]
  · have beyond := Nat.le_of_not_lt below
    simp [List.modify_eq_self beyond, List.getElem?_eq_none beyond, List.take_of_length_le beyond,
      List.drop_eq_nil_of_le (Nat.le_succ_of_le beyond)]

theorem held_step (w : Circulation) (e : Event) :
    match e.set? with
    | none => w.held <+: (w.step e).held
    | some j => ∃ own : Option TensorSet,
        (w.step e).held = w.held.take j ++ own.toList ++ w.held.drop (j + 1) := by
  -- whatever happens to the set at a place, the sets before and behind it stay
  have erased (j : Nat) : ∃ own : Option TensorSet,
      w.held.eraseIdx j = w.held.take j ++ own.toList ++ w.held.drop (j + 1) :=
    ⟨none, by rw [List.eraseIdx_eq_take_drop_succ, Option.toList_none, List.append_nil]⟩
  have modified (j : Nat) (f : TensorSet → TensorSet) : ∃ own : Option TensorSet,
      w.held.modify j f = w.held.take j ++ own.toList ++ w.held.drop (j + 1) :=
    ⟨_, modify_eq_take_append_drop f w.held j⟩
  have same (j : Nat) : ∃ own : Option TensorSet,
      w.held = w.held.take j ++ own.toList ++ w.held.drop (j + 1) := by
    have kept := modified j id
    rwa [List.modify_id] at kept
  cases e with
  | create x depth =>
    simp only [Event.set?, step]
    split <;> exact List.prefix_rfl
  | acquire k =>
    simp only [Event.set?, step]
    split
    · exact List.prefix_rfl
    · exact List.prefix_append _ _
  | release j k =>
    simp only [Event.set?, step]
    split
    · exact erased j
    · exact same j
  | drop j =>
    simp only [Event.set?, step]
    split
    · exact same j
    · exact erased j
  | write j port place payload => exact modified j _
  | call j x => exact modified j _

/-- An acquisition hands out the set of the lowest free index: the one that was successfully
returned last to this index, or, if none was, the one that the executable made for it. Stored and
held sets stay as they are until an event is about them. -/
theorem acquired_as_returned (events : List Event) :
    let w := run events
    (∀ k p, w.pipelines[k]? = some p → (p.pool.free = [] ∧ p.acquire.1 = none) ∨
      ∃ s, p.pool.free.head? = some s.index ∧ p.acquire.1 = some s ∧
        supplied? (made events) (returns events) k s.index = some s) ∧
    (∀ k p, (made events)[k]? = some p → ∃ before e after, events = before ++ e :: after ∧
      (run before).pipelines.length = k ∧ e.Makes (run before).nextId.toNat p) ∧
    (∀ e k s, w.returned? e = some (k, s) →
      Pipeline.setAt? (w.step e).pipelines k s.index = some s) ∧
    (∀ e k i s, Pipeline.setAt? w.pipelines k i = some s →
      Pipeline.setAt? (w.step e).pipelines k i = some s ∨
        e = .acquire k ∧ (w.step e).held = w.held ++ [s]) ∧
    (∀ e : Event, match e.set? with
      | none => w.held <+: (w.step e).held
      | some j => ∃ own : Option TensorSet,
          (w.step e).held = w.held.take j ++ own.toList ++ w.held.drop (j + 1)) := by
  intro w
  have sourced := sourced_run events
  refine ⟨?_, fun k p => makes_of_made, fun e k s => setAt?_of_returned sourced.tidy,
    fun e k i s stored => setAt?_step sourced.tidy stored e, held_step w⟩
  intro k p found
  have tidy := sourced.tidy p (List.mem_of_getElem? found)
  rcases tidy.acquire_cases with ⟨empty, same⟩ | ⟨i, free, s, split, entry, taken⟩
  · exact .inl ⟨empty, by rw [same]⟩
  · obtain ⟨-, rfl⟩ := tidy.labelled i s entry
    have stored := (Pipeline.setAt?_eq_some_iff found).mpr entry
    exact .inr ⟨s, by rw [split, List.head?_cons], by rw [taken], sourced.stored k _ s stored⟩

/- Both pipelines have a set of index 0 out. One comes back to its own pipeline with the values
written to it, the other one is refused there; so the written one is handed out again. -/
theorem acquired_as_returned_written :
    let h : Host Unit :=
      ⟨"f", ⟨[⟨"x", .u8, .static [2]⟩], []⟩, 2, fun _ _ => .finish () (.ok ()), ()⟩
    let events : List Event := [.create h 2, .create h 1, .acquire 0, .acquire 1,
      .write 0 .input 0 ⟨.u8, [1, 2], [2]⟩, .release 0 0, .release 0 0]
    ∃ p s, (run events).pipelines[0]? = some p ∧ p.acquire.1 = some s ∧
      s.inputs = [⟨.u8, .static [2], some ⟨[1, 2], [2]⟩, true⟩] ∧
      supplied? (made events) (returns events) 0 0 = some s := by
  intro h events
  let s : TensorSet := ⟨0, 0, [⟨.u8, .static [2], some ⟨[1, 2], [2]⟩, true⟩], []⟩
  let p : Pipeline := ⟨0, .full 2, [some s, some ⟨0, 1, [.holding .u8 ⟨[0, 0], [2]⟩], []⟩]⟩
  have found : (run events).pipelines[0]? = some p := by decide +kernel
  obtain ⟨handed, -⟩ := acquired_as_returned events
  rcases handed 0 p found with ⟨empty, -⟩ | ⟨t, -, acquired, supplied⟩
  · cases empty
  · cases acquired
    exact ⟨p, s, found, rfl, rfl, supplied⟩

end Circulation

end TensorCall
