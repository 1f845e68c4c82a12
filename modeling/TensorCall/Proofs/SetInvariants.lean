import Mathlib
import TensorCall.Proofs.Circulation

/-! Properties of the sets in circulation. What sets are made with, and what writes and calls
keep, is true after any run of every set that is held or lies in a pipeline: nothing else
that happens makes a set or changes one. -/
namespace TensorCall

namespace Pipeline

variable {p : Pipeline} {s s' : TensorSet}

theorem stored_of_acquire (h : p.acquire.1 = some s) : some s ∈ p.entries := by
  unfold acquire at h
  split at h
  · cases h
  · next index pool _ => exact List.mem_of_getElem? (Option.join_eq_some_iff.mp h)

theorem stored_acquire (h : some s ∈ p.acquire.2.entries) : some s ∈ p.entries := by
  unfold acquire at h
  split at h
  · exact h
  · rcases List.mem_or_eq_of_mem_set h with stored | taken
    · exact stored
    · cases taken

theorem stored_release (h : some s' ∈ (p.release s).2.entries) :
    some s' ∈ p.entries ∨ s' = s := by
  unfold release at h
  split at h
  · exact .inl h
  · split at h
    · exact .inl h
    · exact .inl h
    · exact (List.mem_or_eq_of_mem_set h).imp_right Option.some.inj

end Pipeline

namespace Circulation

structure All (P : TensorSet → Prop) (w : Circulation) : Prop where
  held : ∀ s ∈ w.held, P s
  stored : ∀ p ∈ w.pipelines, ∀ s, some s ∈ p.entries → P s

/-- Every set that the event makes has the property, if the next id is this one, and a set
that the event changes keeps it. -/
def Event.Keeps (P : TensorSet → Prop) (id : Nat) : Event → Prop
  | @Event.create _ _ x depth =>
    ∀ p, Pipeline.create id x depth = .ok p → ∀ s, some s ∈ p.entries → P s
  | .write _ port place payload => ∀ s, P s → P (s.attempt port place payload)
  | @Event.call _ _ _ x => ∀ s, P s → P (s.call x).2
  | _ => True

namespace All

variable {P : TensorSet → Prop} {w : Circulation}

theorem start : All P start where
  held _ mem := by cases mem
  stored _ mem := by cases mem

theorem create {ε : Type} [Executable ε] (a : All P w) (x : ε) (depth : Nat)
    (made : ∀ p, Pipeline.create w.nextId.toNat x depth = .ok p → ∀ s, some s ∈ p.entries → P s) :
    All P (w.step (.create x depth)) := by
  simp only [step]
  split
  · next p created =>
    refine ⟨a.held, ?_⟩
    intro q mem
    rcases List.mem_append.mp mem with old | new
    · exact a.stored q old
    · obtain rfl := List.mem_singleton.mp new
      exact made q created
  · exact ⟨a.held, a.stored⟩

theorem acquire (a : All P w) (k : Nat) : All P (w.step (.acquire k)) := by
  simp only [step]
  split
  · exact a
  · next p found =>
    have stored := a.stored p (List.mem_of_getElem? found)
    constructor
    · intro s mem
      rcases List.mem_append.mp mem with held | acquired
      · exact a.held s held
      · exact stored s (Pipeline.stored_of_acquire (Option.mem_toList.mp acquired))
    · intro q mem s entry
      rcases List.mem_or_eq_of_mem_set mem with old | rfl
      · exact a.stored q old s entry
      · exact stored s (Pipeline.stored_acquire entry)

theorem release (a : All P w) (j k : Nat) : All P (w.step (.release j k)) := by
  simp only [step]
  split
  · next s p held found =>
    have own := a.held s (List.mem_of_getElem? held)
    have stored := a.stored p (List.mem_of_getElem? found)
    refine ⟨fun s' mem => a.held s' (List.mem_of_mem_eraseIdx mem), ?_⟩
    intro q mem s' entry
    rcases List.mem_or_eq_of_mem_set mem with old | rfl
    · exact a.stored q old s' entry
    · rcases Pipeline.stored_release entry with before | rfl
      · exact stored s' before
      · exact own
  · exact a

theorem drop (a : All P w) (j : Nat) : All P (w.step (.drop j)) := by
  simp only [step]
  split
  · exact a
  · exact ⟨fun s mem => a.held s (List.mem_of_mem_eraseIdx mem), a.stored⟩

theorem modify (a : All P w) {f : TensorSet → TensorSet} (keeps : ∀ s, P s → P (f s)) (j : Nat) :
    All P { w with held := w.held.modify j f } := by
  refine ⟨?_, a.stored⟩
  intro s mem
  -- the set at place `j` is changed, any other one is as it was
  obtain ⟨i, found⟩ := List.mem_iff_getElem?.mp mem
  rw [List.getElem?_modify] at found
  obtain ⟨s₀, before, rfl⟩ := Option.map_eq_some_iff.mp found
  have own := a.held s₀ (List.mem_of_getElem? before)
  split
  · exact keeps s₀ own
  · exact own

theorem step (a : All P w) (e : Event) (keeps : e.Keeps P w.nextId.toNat) : All P (w.step e) := by
  cases e with
  | create x depth => exact a.create x depth keeps
  | acquire k => exact a.acquire k
  | release j k => exact a.release j k
  | drop j => exact a.drop j
  | write j port place payload => exact a.modify keeps j
  | call j x => exact a.modify keeps j

end All

theorem run_append_singleton (events : List Event) (e : Event) :
    run (events ++ [e]) = (run events).step e := by
  rw [run, List.foldl_append]
  rfl

/- Every event has its place in the run: the ids that it meets are those of the events before. -/
theorem all_run {P : TensorSet → Prop} {events : List Event}
    (keeps : ∀ before e after, events = before ++ e :: after →
      e.Keeps P (run before).nextId.toNat) : All P (run events) := by
  induction events using List.reverseRecOn with
  | nil => exact .start
  | append_singleton events e ih =>
    rw [run_append_singleton]
    refine All.step (ih ?_) e (keeps events e [] rfl)
    rintro before e' after rfl
    exact keeps before e' (after ++ [e]) (by simp)

end Circulation

end TensorCall
