import Mathlib
import TensorCall.Proofs.Provision

namespace TensorCall

namespace Pipeline

/-- The set at index `i` of the pipeline at place `k`. -/
def setAt? (ps : List Pipeline) (k i : Nat) : Option TensorSet :=
  (ps[k]?.bind (·.entries[i]?)).join

variable {ps : List Pipeline} {k i : Nat} {s : TensorSet} {p : Pipeline}

theorem setAt?_eq_some_iff (found : ps[k]? = some p) :
    setAt? ps k i = some s ↔ p.entries[i]? = some (some s) := by
  rw [setAt?, found, Option.bind_some, Option.join_eq_some_iff]

theorem lt_of_setAt? (stored : setAt? ps k i = some s) : k < ps.length := by
  rw [setAt?, Option.join_eq_some_iff, Option.bind_eq_some_iff] at stored
  obtain ⟨p, found, -⟩ := stored
  exact (List.getElem?_eq_some_iff.mp found).1

theorem setAt?_append_of_lt (below : k < ps.length) (later : List Pipeline) :
    setAt? (ps ++ later) k i = setAt? ps k i := by
  rw [setAt?, setAt?, List.getElem?_append_left below]

theorem setAt?_set_eq_some_iff {l : Nat} (found : ps[l]? = some p) {p' : Pipeline} :
    setAt? (ps.set l p') k i = some s ↔
      if l = k then p'.entries[i]? = some (some s) else setAt? ps k i = some s := by
  split
  · next here =>
    subst here
    exact setAt?_eq_some_iff (List.getElem?_set_self (List.getElem?_eq_some_iff.mp found).1)
  · next other => rw [setAt?, setAt?, List.getElem?_set_ne other]

theorem setAt?_taken_iff {l j : Nat} {free : List Nat} (found : ps[l]? = some p) :
    setAt? (ps.set l (p.taken j free)) k i = some s ↔
      ¬ (l = k ∧ j = i) ∧ setAt? ps k i = some s := by
  rw [setAt?_set_eq_some_iff found]
  by_cases here : l = k
  · subst here
    by_cases same : j = i
    · subst same
      simp [taken, List.getElem?_set_self']
    · simp [taken, same, setAt?_eq_some_iff found]
  · simp [here]

theorem setAt?_refilled_iff {l : Nat} {s' : TensorSet} (found : ps[l]? = some p)
    (entry : p.entries[s.index]? = some none) :
    setAt? (ps.set l (p.refilled s)) k i = some s' ↔
      (l = k ∧ s.index = i ∧ s = s') ∨ setAt? ps k i = some s' := by
  rw [setAt?_set_eq_some_iff found]
  by_cases here : l = k
  · subst here
    by_cases same : s.index = i
    · subst same
      simp [refilled, List.getElem?_set_self', entry, setAt?_eq_some_iff found]
    · simp [refilled, same, setAt?_eq_some_iff found]
  · simp [here]

theorem Tidy.release_cases (h : p.Tidy) (s : TensorSet) :
    (∃ fault, p.release s = (.error fault, p)) ∨
      (p.entries[s.index]? = some none ∧ p.release s = (.ok (), p.refilled s) ∧
        (p.refilled s).Tidy) := by
  by_cases home : s.pipeline = p.id
  · cases entry : p.entries[s.index]? with
    | none => exact .inl ⟨_, by rw [release, if_neg (not_not.mpr home), entry]⟩
    | some stored =>
      cases stored with
      | some s' => exact .inl ⟨_, by rw [release, if_neg (not_not.mpr home), entry]⟩
      | none =>
        have below : s.index < p.depth := h.size ▸ (List.getElem?_eq_some_iff.mp entry).1
        have out : s.index ∉ p.pool.free := by
          intro free
          obtain ⟨s', filled⟩ := (h.filled s.index).mp free
          rw [entry] at filled
          cases filled
        exact .inr ⟨rfl, h.release_home home below out, h.refilled home below out⟩
  · exact .inl ⟨_, release_foreign home⟩

section
variable {ε : Type} [Executable ε]

/-- The set at each index has for every slot, in order, the tensor of this index among those
that the executable created for the slot. -/
structure Stocked (p : Pipeline) (x : ε) (depth : Nat) : Prop where
  size : p.entries.length = depth
  sets : ∀ i < depth, ∃ s, p.entries[i]? = some (some s) ∧ s.tag = (p.id, i) ∧
    ∀ port, List.Forall₂ (fun place t => ∃ column,
        Executable.createEach x port place depth = .ok column ∧ column[i]? = some t)
      (List.range ((Executable.signature x).slots port).length) (s.binding.tensors port)

theorem stocked_create {id depth : Nat} {x : ε} (h : create id x depth = .ok p) :
    p.Stocked x depth := by
  obtain ⟨-, inputs, outputs, hi, ho, rfl⟩ := exists_columns_of_create h
  have tall : (rows depth inputs).length = depth := length_rows fun _ => length_of_mem_columns hi
  have tall' : (rows depth outputs).length = depth := length_rows fun _ => length_of_mem_columns ho
  refine ⟨by simp [tall, tall'], ?_⟩
  intro i below
  have input := List.getElem?_eq_getElem (tall.symm ▸ below : i < (rows depth inputs).length)
  have output := List.getElem?_eq_getElem (tall'.symm ▸ below : i < (rows depth outputs).length)
  have zipped : (List.zip (rows depth inputs) (rows depth outputs))[i]? = some (_, _) :=
    List.getElem?_zip_eq_some.mpr ⟨input, output⟩
  refine ⟨⟨id, i, _, _⟩, by rw [List.getElem?_mapIdx, zipped]; rfl, rfl, ?_⟩
  rintro (_ | _)
  · exact forall₂_of_row hi input
  · exact forall₂_of_row ho output

end

end Pipeline

end TensorCall
