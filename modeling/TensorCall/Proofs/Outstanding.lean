import Mathlib
import TensorCall.Proofs.FreeIndices

namespace TensorCall

namespace IndexPool

inductive Request where
  | take
  | giveBack (index : Nat)

inductive Exchange where
  | take (index : Option Nat)
  | giveBack (index : Nat) (verdict : Except PipelineFault Unit)

def Exchange.request : Exchange → Request
  | .take _ => .take
  | .giveBack index _ => .giveBack index

def serve (p : IndexPool) : Request → Exchange × IndexPool
  | .take =>
    match p.take? with
    | none => (.take none, p)
    | some (i, p) => (.take (some i), p)
  | .giveBack i =>
    let (verdict, p) := p.giveBack i
    (.giveBack i verdict, p)

def serveAll (p : IndexPool) : List Request → List Exchange × IndexPool
  | [] => ([], p)
  | r :: requests =>
    let (e, p) := p.serve r
    let (log, p) := p.serveAll requests
    (e :: log, p)

def outstanding (p : IndexPool) : Finset Nat := {i ∈ Finset.range p.depth | i ∉ p.free}

theorem mem_outstanding {p : IndexPool} {i : Nat} :
    i ∈ p.outstanding ↔ i < p.depth ∧ i ∉ p.free := by
  rw [outstanding, Finset.mem_filter, Finset.mem_range]

theorem outstanding_full (depth : Nat) : (full depth).outstanding = ∅ := by
  apply Finset.eq_empty_of_forall_notMem
  intro i mem
  obtain ⟨below, taken⟩ := mem_outstanding.mp mem
  exact taken (mem_free_full.mpr below)

end IndexPool

namespace Outstanding

open IndexPool (Exchange)

/-- An exchange of a pool that keeps nothing but the set of its outstanding indices, and this set
after it. -/
inductive Step (depth : Nat) (out : Finset Nat) : Exchange → Finset Nat → Prop where
  | lowest {i : Nat} : IsLeast {j | j < depth ∧ j ∉ out} i →
      Step depth out (.take (some i)) (insert i out)
  | exhausted : (∀ j < depth, j ∈ out) → Step depth out (.take none) out
  | returned {i : Nat} : i ∈ out → Step depth out (.giveBack i (.ok ())) (out.erase i)
  | beyond {i : Nat} : i ∉ out → depth ≤ i →
      Step depth out (.giveBack i (.error (.indexBeyond i depth))) out
  | twice {i : Nat} : i ∉ out → i < depth →
      Step depth out (.giveBack i (.error (.indexFree i))) out

inductive Steps (depth : Nat) : Finset Nat → List Exchange → Finset Nat → Prop where
  | nil (out : Finset Nat) : Steps depth out [] out
  | cons {out out' out'' : Finset Nat} {e : Exchange} {log : List Exchange} :
      Step depth out e out' → Steps depth out' log out'' → Steps depth out (e :: log) out''

section
variable {depth i : Nat} {out out' : Finset Nat} {e : Exchange} {log : List Exchange}

theorem Step.take_unique {index index' : Option Nat} {after after' : Finset Nat}
    (h : Step depth out (.take index) after) (h' : Step depth out (.take index') after') :
    index = index' ∧ after = after' := by
  cases h with
  | lowest least =>
    cases h' with
    | lowest least' =>
      obtain rfl := least.unique least'
      exact ⟨rfl, rfl⟩
    | exhausted none => exact absurd (none _ least.1.1) least.1.2
  | exhausted none =>
    cases h' with
    | lowest least => exact absurd (none _ least.1.1) least.1.2
    | exhausted _ => exact ⟨rfl, rfl⟩

/- The verdict and the set after it are functions of the set before. -/
theorem Step.of_giveBack {verdict : Except PipelineFault Unit}
    (h : Step depth out (.giveBack i verdict) out') :
    if i ∈ out then verdict = .ok () ∧ out' = out.erase i
    else if depth ≤ i then verdict = .error (.indexBeyond i depth) ∧ out' = out
    else verdict = .error (.indexFree i) ∧ out' = out := by
  cases h with
  | returned mem => simp [mem]
  | beyond new above => simp [new, above]
  | twice new below => simp [new, Nat.not_le_of_lt below]

theorem Step.unique {e' : Exchange} {after after' : Finset Nat} (h : Step depth out e after)
    (h' : Step depth out e' after') (same : e.request = e'.request) : e = e' ∧ after = after' := by
  cases e with
  | take index =>
    cases e' with
    | take index' =>
      obtain ⟨rfl, rfl⟩ := h.take_unique h'
      exact ⟨rfl, rfl⟩
    | giveBack _ _ => cases same
  | giveBack i verdict =>
    cases e' with
    | take _ => cases same
    | giveBack i' verdict' =>
      cases same
      have first := h.of_giveBack
      have second := h'.of_giveBack
      split_ifs at first second <;>
        exact ⟨congrArg _ (first.1.trans second.1.symm), first.2.trans second.2.symm⟩

theorem Step.keeps (h : Step depth out e out') (mem : i ∈ out)
    (kept : .giveBack i (.ok ()) ≠ e) : i ∈ out' := by
  cases h with
  | lowest _ => exact Finset.mem_insert_of_mem mem
  | returned _ =>
    refine Finset.mem_erase.mpr ⟨?_, mem⟩
    rintro rfl
    exact kept rfl
  | exhausted _ | beyond _ _ | twice _ _ => exact mem

theorem Steps.keeps (h : Steps depth out log out') (mem : i ∈ out)
    (kept : .giveBack i (.ok ()) ∉ log) : i ∈ out' := by
  induction h with
  | nil out => exact mem
  | cons first _ ih =>
    rw [List.mem_cons, not_or] at kept
    exact ih (first.keeps mem kept.1) kept.2

theorem Steps.exists_of_append {log' : List Exchange} (h : Steps depth out (log ++ log') out') :
    ∃ between, Steps depth out log between ∧ Steps depth between log' out' := by
  induction log generalizing out with
  | nil => exact ⟨out, .nil out, h⟩
  | cons e log ih =>
    cases h with
    | cons first rest =>
      obtain ⟨between, front, back⟩ := ih rest
      exact ⟨between, .cons first front, back⟩

theorem Steps.giveBack_mem {before middle after : List Exchange}
    (h : Steps depth out
      (before ++ .take (some i) :: (middle ++ .take (some i) :: after)) out') :
    .giveBack i (.ok ()) ∈ middle := by
  obtain ⟨_, -, _ | ⟨first, rest⟩⟩ := h.exists_of_append
  obtain ⟨_, between, _ | ⟨second, _⟩⟩ := rest.exists_of_append
  cases first with
  | lowest _ =>
    cases second with
    | lowest least =>
      by_contra kept
      exact least.1.2 (between.keeps (Finset.mem_insert_self i _) kept)

end

end Outstanding

namespace IndexPool.Ordered

open Outstanding

variable {p : IndexPool}

theorem mem_free_iff (h : p.Ordered) {i : Nat} : i ∈ p.free ↔ i < p.depth ∧ i ∉ p.outstanding := by
  rw [mem_outstanding]
  constructor
  · intro free
    exact ⟨h.below i free, fun out => out.2 free⟩
  · rintro ⟨below, inside⟩
    by_contra taken
    exact inside ⟨below, taken⟩

theorem available_add_card (h : p.Ordered) : p.available + p.outstanding.card = p.depth := by
  rw [← Finset.length_toList]
  refine h.available_add_length (Finset.nodup_toList _) fun i => ?_
  rw [Finset.mem_toList, mem_outstanding]

theorem step_take (h : p.Ordered) {i : Nat} {free : List Nat} (split : p.free = i :: free) :
    Step p.depth p.outstanding (.take (some i)) ({ p with free } : IndexPool).outstanding := by
  have least : IsLeast {j | j < p.depth ∧ j ∉ p.outstanding} i := by
    have head := h.isLeast_head split
    simpa only [h.mem_free_iff] using head
  have out : ({ p with free } : IndexPool).outstanding = Insert.insert i p.outstanding := by
    ext j
    rw [mem_outstanding, h.mem_tail_iff split, Finset.mem_insert, mem_outstanding]
    by_cases same : j = i
    · subst same
      simp [least.1.1]
    · simp [same]
  exact out ▸ .lowest least

theorem step_giveBack {i : Nat} (mem : i ∈ p.outstanding) :
    Step p.depth p.outstanding (.giveBack i (.ok ()))
      ({ p with free := insert i p.free } : IndexPool).outstanding := by
  have out : ({ p with free := insert i p.free } : IndexPool).outstanding =
      p.outstanding.erase i := by
    ext j
    rw [mem_outstanding, mem_insert, not_or, Finset.mem_erase, mem_outstanding]
    exact and_left_comm
  exact out ▸ .returned mem

theorem step_serve (h : p.Ordered) (r : Request) :
    Step p.depth p.outstanding (p.serve r).1 (p.serve r).2.outstanding ∧
      (p.serve r).1.request = r ∧ (p.serve r).2.depth = p.depth ∧ (p.serve r).2.Ordered := by
  cases r with
  | take =>
    cases split : p.free with
    | nil =>
      rw [serve, take?_of_nil split]
      refine ⟨.exhausted fun j below => ?_, rfl, rfl, h⟩
      exact mem_outstanding.mpr ⟨below, split ▸ List.not_mem_nil⟩
    | cons i free =>
      rw [serve, take?_of_cons split]
      exact ⟨h.step_take split, rfl, rfl, h.take split⟩
  | giveBack i =>
    rcases h.giveBack_cases i with ⟨beyond, same⟩ | ⟨free, same⟩ | ⟨taken, done⟩
    · rw [serve, same]
      have new : i ∉ p.outstanding := fun mem =>
        Nat.not_lt_of_le beyond (mem_outstanding.mp mem).1
      exact ⟨.beyond new beyond, rfl, rfl, h⟩
    · rw [serve, same]
      have new : i ∉ p.outstanding := fun mem => (mem_outstanding.mp mem).2 free
      exact ⟨.twice new (h.below i free), rfl, rfl, h⟩
    · rw [serve, done]
      obtain ⟨below, out⟩ := taken
      exact ⟨step_giveBack (mem_outstanding.mpr ⟨below, out⟩), rfl, rfl, (h.giveBack below out).2⟩

/- Any number of requests: the set has no other way to answer them. -/
theorem steps_iff (h : p.Ordered) (requests : List Request) (log : List Exchange)
    (out : Finset Nat) :
    log.map Exchange.request = requests ∧ Steps p.depth p.outstanding log out ↔
      log = (p.serveAll requests).1 ∧ out = (p.serveAll requests).2.outstanding := by
  induction requests generalizing p log with
  | nil =>
    rw [List.map_eq_nil_iff]
    constructor
    · rintro ⟨rfl, ⟨⟩⟩
      exact ⟨rfl, rfl⟩
    · rintro ⟨rfl, rfl⟩
      exact ⟨rfl, .nil _⟩
  | cons r requests ih =>
    obtain ⟨step, request, depth, ordered⟩ := h.step_serve r
    have later := ih ordered
    rw [depth] at later
    constructor
    · rintro ⟨asked, _ | ⟨first, rest⟩⟩
      · cases asked
      -- the set forces the first answer, so that both go on from the same one
      · obtain ⟨head, tail⟩ := List.cons.inj asked
        obtain ⟨rfl, rfl⟩ := first.unique step (head.trans request.symm)
        obtain ⟨same, out⟩ := (later _).mp ⟨tail, rest⟩
        exact ⟨congrArg _ same, out⟩
    · rintro ⟨rfl, rfl⟩
      obtain ⟨asked, rest⟩ := (later _).mpr ⟨rfl, rfl⟩
      exact ⟨congrArg₂ List.cons request asked, .cons step rest⟩

theorem serveAll (h : p.Ordered) (requests : List Request) :
    (p.serveAll requests).2.Ordered ∧ (p.serveAll requests).2.depth = p.depth := by
  induction requests generalizing p with
  | nil => exact ⟨h, rfl⟩
  | cons r requests ih =>
    obtain ⟨-, -, depth, ordered⟩ := h.step_serve r
    obtain ⟨later, same⟩ := ih ordered
    exact ⟨later, same.trans depth⟩

end IndexPool.Ordered

namespace IndexPool

open Outstanding

/-- A new pool answers any requests as if it kept only the set of outstanding indices. Neither its
answers nor this set could be different, a refusal leaves the pool as it is, and an index is handed
out again only after it was given back. -/
theorem answers_by_outstanding (depth : Nat) (requests : List Request) :
    let (log, p) := (full depth).serveAll requests
    (∀ log' out, log'.map Exchange.request = requests ∧ Steps depth ∅ log' out ↔
      log' = log ∧ out = p.outstanding) ∧
    p.outstanding ⊆ Finset.range depth ∧
    p.available = depth - p.outstanding.card ∧ p.outstanding.card ≤ depth ∧
    (∀ i fault p', p.giveBack i = (.error fault, p') → p' = p) ∧
    ∀ before middle after i,
      log = before ++ .take (some i) :: (middle ++ .take (some i) :: after) →
        .giveBack i (.ok ()) ∈ middle := by
  have only := (ordered_full depth).steps_iff requests
  rw [outstanding_full] at only
  obtain ⟨ordered, same⟩ : _ ∧ _ = depth := (ordered_full depth).serveAll requests
  have sum := ordered.available_add_card
  rw [same] at sum
  refine ⟨only, ?_, ?_, ?_, ?_, ?_⟩
  · intro i mem
    exact Finset.mem_range.mpr (same ▸ (mem_outstanding.mp mem).1)
  · exact Nat.eq_sub_of_add_eq sum
  · exact Nat.le.intro ((Nat.add_comm _ _).trans sum)
  · intro i fault p' refused
    exact ordered.giveBack_error refused
  · intro before middle after i log
    have steps := ((only _ _).mpr ⟨rfl, rfl⟩).2
    exact Steps.giveBack_mem (log ▸ steps)

/- Index 0 comes back and is handed out again. Given back twice it is refused, as is an index that
the pool does not have. -/
theorem answers_by_outstanding_again :
    let between : List Exchange := [.take (some 1), .take none, .giveBack 0 (.ok ()),
      .giveBack 0 (.error (.indexFree 0)), .giveBack 2 (.error (.indexBeyond 2 2))]
    let log : List Exchange := .take (some 0) :: (between ++ [.take (some 0)])
    ((full 2).serveAll (log.map Exchange.request)).1 = log ∧ Steps 2 ∅ log {0, 1} ∧
      .giveBack 0 (.ok ()) ∈ between ∧
      ((full 2).serveAll (log.map Exchange.request)).2.giveBack 2 =
        (.error (.indexBeyond 2 2), ⟨2, []⟩) := by
  intro between log
  obtain ⟨only, -, -, -, -, again⟩ := answers_by_outstanding 2 (log.map Exchange.request)
  exact ⟨rfl, ((only log {0, 1}).mpr ⟨rfl, by decide⟩).2, again [] between [] 0 rfl, rfl⟩

end IndexPool

end TensorCall
