import Mathlib
import TensorCall.Host
import TensorCall.Kernel.Script
import TensorCall.Proofs.Ledger

namespace TensorCall

namespace Circulation

variable {w : Circulation}

def Consistent (w : Circulation) : Prop := Balanced w.nextId.toNat w.pipelines w.out

theorem consistent_start : start.Consistent where
  distinct := List.nodup_nil
  drawn _ mem := by cases mem
  tidy _ mem := by cases mem
  once := List.nodup_nil
  home _ mem := by cases mem
  outside _ mem := by cases mem

theorem out_perm_eraseIdx {j : Nat} {s : TensorSet} (found : w.held[j]? = some s) :
    w.out.Perm (s.tag :: ((w.held.eraseIdx j).map TensorSet.tag ++ w.lost)) := by
  obtain ⟨below, rfl⟩ := List.getElem?_eq_some_iff.mp found
  have held := (List.getElem_cons_eraseIdx_perm below).symm.map TensorSet.tag
  rw [List.map_cons] at held
  exact held.append_right w.lost

theorem out_perm_lost {j : Nat} {s : TensorSet} (found : w.held[j]? = some s) :
    w.out.Perm ((w.held.eraseIdx j).map TensorSet.tag ++ (w.lost ++ [s.tag])) := by
  refine (out_perm_eraseIdx found).trans ?_
  rw [← List.append_assoc]
  exact (List.perm_append_singleton _ _).symm

theorem out_perm_held (s : TensorSet) (pipelines : List Pipeline) :
    (s.tag :: w.out).Perm ({ w with pipelines, held := w.held ++ [s] } : Circulation).out := by
  unfold out
  rw [List.map_append, List.append_assoc]
  exact List.perm_middle.symm

theorem nextId_step (w : Circulation) (e : Event) :
    (w.step e).nextId = if e.drawsId then w.nextId + 1 else w.nextId := by
  cases e with
  | create x depth =>
    simp only [step, Event.drawsId, decide_eq_true_eq, ite_not]
    split <;> rfl
  | acquire k =>
    simp only [step]
    split <;> rfl
  | release j k =>
    simp only [step]
    split <;> rfl
  | drop j =>
    simp only [step]
    split <;> rfl
  | write j port place payload => rfl
  | call j x => rfl

namespace Consistent

theorem create {ε : Type} [Executable ε] (c : w.Consistent) (x : ε) (depth : Nat)
    (room : depth ≠ 0 → w.nextId.toNat + 1 < UInt64.size) :
    (w.step (.create x depth)).Consistent := by
  by_cases zero : depth = 0
  · subst zero
    exact c
  · have counted : (w.nextId + 1).toNat = w.nextId.toNat + 1 := by
      rw [UInt64.toNat_add]
      exact Nat.mod_eq_of_lt (room zero)
    simp only [step, if_neg zero]
    split
    · next p made =>
      have tidy := Pipeline.tidy_create made
      obtain ⟨-, sets, -, rfl⟩ := Pipeline.create_eq_ok made
      unfold Consistent
      rw [counted]
      exact c.grow rfl tidy fun _ => IndexPool.mem_free_full
    · unfold Consistent
      rw [counted]
      exact c.mono (Nat.le_succ _)

theorem acquire (c : w.Consistent) (k : Nat) : (w.step (.acquire k)).Consistent := by
  simp only [Circulation.step]
  cases found : w.pipelines[k]? with
  | none => exact c
  | some p =>
    have tidy := c.tidy p (List.mem_of_getElem? found)
    rcases tidy.acquire_cases with ⟨-, empty⟩ | ⟨i, free, s, split, entry, taken⟩
    · obtain ⟨below, rfl⟩ := List.getElem?_eq_some_iff.mp found
      simpa [empty] using c
    · obtain ⟨home, index⟩ := tidy.labelled i s entry
      have tag : s.tag = (p.id, i) := by rw [TensorSet.tag, home, index]
      simp only [taken, Option.toList_some]
      exact (tag ▸ c.take found split).perm (out_perm_held s _)

theorem release (c : w.Consistent) (j k : Nat) : (w.step (.release j k)).Consistent := by
  simp only [Circulation.step]
  split
  · next s p held found =>
    by_cases home : s.pipeline = p.id
    · obtain ⟨balanced, released⟩ := (c.perm (out_perm_eraseIdx held)).put found home
      simp only [released, if_pos home]
      exact balanced
    · obtain ⟨below, rfl⟩ := List.getElem?_eq_some_iff.mp found
      simp only [Pipeline.release_foreign home, if_neg home, List.set_getElem_self]
      exact c.perm (out_perm_lost held)
  · exact c

theorem drop (c : w.Consistent) (j : Nat) : (w.step (.drop j)).Consistent := by
  simp only [Circulation.step]
  split
  · exact c
  · next s held => exact c.perm (out_perm_lost held)

theorem modify (c : w.Consistent) {f : TensorSet → TensorSet} (h : ∀ s, (f s).tag = s.tag)
    (j : Nat) : Consistent { w with held := w.held.modify j f } := by
  unfold Consistent out
  rw [map_modify_eq h]
  exact c

theorem step (c : w.Consistent) (e : Event)
    (room : e.drawsId = true → w.nextId.toNat + 1 < UInt64.size) :
    (w.step e).Consistent := by
  cases e with
  | create x depth => exact c.create x depth fun positive => room (decide_eq_true positive)
  | acquire k => exact c.acquire k
  | release j k => exact c.release j k
  | drop j => exact c.drop j
  | write j port place payload => exact c.modify (fun s => s.tag_attempt port place payload) j
  | call j x => exact c.modify (fun s => s.tag_call x) j

/- The counter moves with the creations, so the room for the whole run is room for each. -/
theorem foldl (c : w.Consistent) (events : List Event)
    (few : w.nextId.toNat + events.countP Event.drawsId < UInt64.size) :
    (events.foldl Circulation.step w).Consistent := by
  induction events generalizing w with
  | nil => exact c
  | cons e events ih =>
    rw [List.countP_cons] at few
    cases draws : e.drawsId with
    | false =>
      rw [draws] at few
      refine ih (c.step e fun yes => absurd (draws ▸ yes) Bool.false_ne_true) ?_
      rw [nextId_step, draws]
      simpa using few
    | true =>
      rw [draws, if_pos rfl] at few
      have room : w.nextId.toNat + 1 < UInt64.size := by omega
      refine ih (c.step e fun _ => room) ?_
      rw [nextId_step, draws, if_pos rfl, UInt64.toNat_add]
      have counted : (w.nextId.toNat + (1 : UInt64).toNat) % 2 ^ 64 = w.nextId.toNat + 1 :=
        Nat.mod_eq_of_lt room
      omega

end Consistent

theorem consistent_run (events : List Event) (few : events.countP Event.drawsId < UInt64.size) :
    (run events).Consistent := by
  refine consistent_start.foldl events ?_
  have zero : start.nextId.toNat = 0 := rfl
  omega

/-- In every reachable state no set is held twice, and what is free, held and lost makes up each
depth; an acquisition finds the least free index, and a release to a wrong pipeline is an error
without effect. `few` counts every creation of positive depth, also those that fail. -/
theorem run_conserves (events : List Event)
    (few : events.countP Event.drawsId < UInt64.size) :
    let w := run events
    (w.pipelines.map Pipeline.id).Nodup ∧
    (w.held.map TensorSet.tag).Nodup ∧
    (∀ s ∈ w.held, ∃ p ∈ w.pipelines, p.id = s.pipeline ∧ s.index < p.depth) ∧
    (∀ p ∈ w.pipelines, p.available + w.heldOf p.id + w.lostOf p.id = p.depth) ∧
    (∀ p ∈ w.pipelines, p.acquire.1 = none ↔ ∀ i < p.depth, (p.id, i) ∈ w.out) ∧
    (∀ p ∈ w.pipelines, ∀ s, p.acquire.1 = some s →
      s.pipeline = p.id ∧ IsLeast {i | i < p.depth ∧ (p.id, i) ∉ w.out} s.index) ∧
    (∀ j k s p, w.held[j]? = some s → w.pipelines[k]? = some p → s.pipeline ≠ p.id →
      p.release s = (.error (.foreignSet s.index), p) ∧
        (w.step (.release j k)).pipelines = w.pipelines) := by
  intro w
  have c : w.Consistent := consistent_run events few
  have held : ∀ s ∈ w.held, s.tag ∈ w.out := fun s mem =>
    List.mem_append_left _ (List.mem_map_of_mem mem)
  refine ⟨c.distinct, (List.nodup_append.mp c.once).1, ?_, ?_, ?_, ?_, ?_⟩
  · intro s mem
    obtain ⟨p, there, id⟩ := c.home s.tag (held s mem)
    have inside : (p.id, s.index) ∈ w.out := id ▸ held s mem
    exact ⟨p, there, id, ((c.outside p there s.index).mp inside).1⟩
  · intro p mem
    rw [Nat.add_assoc, ← countP_out]
    exact c.available_add mem
  · intro p mem
    exact c.acquire_eq_none_iff mem
  · intro p mem s acquired
    exact c.isLeast_acquire mem acquired
  · intro j k s p held found foreign
    refine ⟨Pipeline.release_foreign foreign, ?_⟩
    obtain ⟨below, rfl⟩ := List.getElem?_eq_some_iff.mp found
    simp only [step, held, found, Pipeline.release_foreign foreign, List.set_getElem_self]

/- One set of two was dropped: with the other one out, there is none to acquire, and to give
that one to another pipeline changes neither of the two. -/
theorem run_conserves_dropped :
    let h : Host Nat := ⟨"f", .empty, 2, Script.kernel [[]], 0⟩
    let events : List Event := [.create h 2, .create h 1, .acquire 0, .acquire 0, .drop 0]
    let w := run events
    events.countP Event.drawsId = 2 ∧ ∃ p ∈ w.pipelines, w.heldOf p.id = 1 ∧ w.lostOf p.id = 1 ∧
      p.acquire.1 = none ∧ (w.step (.release 0 1)).pipelines = w.pipelines := by
  intro h events w
  obtain ⟨-, -, -, -, empty, -, refused⟩ := run_conserves events (by decide)
  let p : Pipeline := ⟨0, ⟨2, []⟩, [none, none]⟩
  have found : w.pipelines[0]? = some p := rfl
  have mem : p ∈ w.pipelines := List.mem_of_getElem? found
  have same := (refused 0 1 ⟨0, 1, [], []⟩ ⟨1, .full 1, [some ⟨1, 0, [], []⟩]⟩ rfl rfl (by decide)).2
  exact ⟨rfl, p, mem, rfl, rfl, (empty p mem).mpr (by decide), same⟩

end Circulation

end TensorCall
