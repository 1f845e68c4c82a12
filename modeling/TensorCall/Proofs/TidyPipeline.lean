import Mathlib
import TensorCall.Pipeline
import TensorCall.Proofs.FreeIndices
import TensorCall.Proofs.Sequencing

namespace TensorCall

theorem length_rows {α : Type} {count : Nat} {columns : List (List α)}
    (h : ∀ column ∈ columns, column.length = count) : (rows count columns).length = count := by
  induction columns with
  | nil => simp [rows]
  | cons column columns ih =>
    rw [List.forall_mem_cons] at h
    simp [rows, h.1, ih h.2]

namespace Pipeline

/-- An index is free just when its entry is filled, and then with the set that carries this
index and the name of this pipeline. -/
structure Tidy (p : Pipeline) : Prop where
  pool : p.pool.Ordered
  size : p.entries.length = p.depth
  filled : ∀ i, i ∈ p.pool.free ↔ ∃ s, p.entries[i]? = some (some s)
  labelled : ∀ i (s : TensorSet), p.entries[i]? = some (some s) → s.pipeline = p.id ∧ s.index = i

section
variable {ε : Type} [Executable ε]

def Creates (x : ε) (port : Port) (depth index : Nat) (column : List Tensor) : Prop :=
  Executable.createEach x port index depth = .ok column ∧ column.length = depth

theorem checkCreated_eq_ok_iff {depth : Nat} {tensors : List Tensor} :
    checkCreated depth tensors = .ok () ↔ tensors.length = depth := by
  unfold checkCreated
  split <;> simp_all

def column (x : ε) (port : Port) (depth index : Nat) : Except Error (List Tensor) := do
  let tensors ← Executable.createEach x port index depth
  checkCreated depth tensors
  return tensors

theorem columns_eq_mapM (x : ε) (port : Port) (depth : Nat) (indices : List Nat) :
    columns x port depth indices = indices.mapM (column x port depth) := by
  induction indices with
  | nil => rfl
  | cons index indices ih =>
    simp only [columns, ih, List.mapM_cons, column, bind_assoc, pure_bind]

theorem column_eq_ok_iff {x : ε} {port : Port} {depth index : Nat} {tensors : List Tensor} :
    column x port depth index = .ok tensors ↔ Creates x port depth index tensors := by
  constructor
  · intro h
    obtain ⟨_, made, h⟩ := bind_eq_ok_iff.mp h
    obtain ⟨checked, h⟩ := check_bind_eq_ok_iff.mp h
    cases h
    exact ⟨made, checkCreated_eq_ok_iff.mp checked⟩
  · rintro ⟨made, length⟩
    have checked := checkCreated_eq_ok_iff.mpr length
    exact bind_eq_ok_iff.mpr ⟨_, made, check_bind_eq_ok_iff.mpr ⟨checked, rfl⟩⟩

theorem columns_eq_ok_iff {x : ε} {port : Port} {depth : Nat} {indices : List Nat}
    {tensors : List (List Tensor)} :
    columns x port depth indices = .ok tensors ↔
      List.Forall₂ (Creates x port depth) indices tensors := by
  simp only [columns_eq_mapM, mapM_eq_ok_iff, column_eq_ok_iff]

theorem length_of_mem_columns {x : ε} {port : Port} {depth : Nat} {indices : List Nat}
    {tensors : List (List Tensor)} (h : columns x port depth indices = .ok tensors)
    {column : List Tensor} (mem : column ∈ tensors) : column.length = depth := by
  rw [columns_eq_ok_iff] at h
  induction h with
  | nil => cases mem
  | cons first _ ih =>
    rcases List.mem_cons.mp mem with rfl | later
    · exact first.2
    · exact ih later

theorem forall₂_of_row {x : ε} {port : Port} {depth : Nat} {indices : List Nat}
    {tensors : List (List Tensor)} (h : columns x port depth indices = .ok tensors) {k : Nat}
    {row : List Tensor} (found : (rows depth tensors)[k]? = some row) :
    List.Forall₂ (fun index t => ∃ column,
      Executable.createEach x port index depth = .ok column ∧ column[k]? = some t) indices row := by
  rw [columns_eq_ok_iff] at h
  induction h generalizing row with
  | nil =>
    obtain ⟨-, rfl⟩ := List.getElem?_eq_some_iff.mp found
    simp [rows]
  | @cons index column indices tensors first _ ih =>
    obtain ⟨t, row, here, below, rfl⟩ := List.getElem?_zipWith_eq_some.mp found
    exact .cons ⟨column, first.1, here⟩ (ih below)

theorem exists_columns_of_create {id depth : Nat} {x : ε} {p : Pipeline}
    (h : create id x depth = .ok p) :
    depth ≠ 0 ∧ ∃ inputs outputs,
      columns x .input depth (List.range (Executable.signature x).parameters.length) = .ok inputs ∧
      columns x .output depth (List.range (Executable.signature x).results.length) = .ok outputs ∧
      p = ⟨id, .full depth, (List.zip (rows depth inputs) (rows depth outputs)).mapIdx
        fun index t => some ⟨id, index, t.1, t.2⟩⟩ := by
  unfold create at h
  split at h
  · cases h
  · next positive =>
    obtain ⟨inputs, hi, h⟩ := bind_eq_ok_iff.mp h
    obtain ⟨outputs, ho, h⟩ := bind_eq_ok_iff.mp h
    cases h
    exact ⟨positive, inputs, outputs, hi, ho, rfl⟩

theorem create_eq_ok {id depth : Nat} {x : ε} {p : Pipeline} (h : create id x depth = .ok p) :
    depth ≠ 0 ∧ ∃ sets : List (List Tensor × List Tensor), sets.length = depth ∧
      p = ⟨id, .full depth, sets.mapIdx fun index t => some ⟨id, index, t.1, t.2⟩⟩ := by
  obtain ⟨positive, inputs, outputs, hi, ho, rfl⟩ := exists_columns_of_create h
  refine ⟨positive, _, ?_, rfl⟩
  rw [List.length_zip, length_rows fun _ => length_of_mem_columns hi,
    length_rows fun _ => length_of_mem_columns ho, Nat.min_self]

theorem tidy_create {id depth : Nat} {x : ε} {p : Pipeline} (h : create id x depth = .ok p) :
    p.Tidy := by
  obtain ⟨-, sets, length, rfl⟩ := create_eq_ok h
  refine ⟨IndexPool.ordered_full depth, ?_, ?_, ?_⟩
  · rw [List.length_mapIdx, length]
    rfl
  · intro i
    rw [IndexPool.mem_free_full, ← length]
    constructor
    · intro below
      refine ⟨⟨id, i, sets[i].1, sets[i].2⟩, ?_⟩
      rw [List.getElem?_mapIdx, List.getElem?_eq_getElem below, Option.map_some]
    · rintro ⟨s, found⟩
      have below := (List.getElem?_eq_some_iff.mp found).1
      rwa [List.length_mapIdx] at below
  · intro i s found
    simp only [List.getElem?_mapIdx, Option.map_eq_some_iff, Option.some.injEq] at found
    obtain ⟨t, -, rfl⟩ := found
    exact ⟨rfl, rfl⟩

end

def taken (p : Pipeline) (i : Nat) (free : List Nat) : Pipeline :=
  { p with pool := { p.pool with free }, entries := p.entries.set i none }

def refilled (p : Pipeline) (s : TensorSet) : Pipeline :=
  { p with
    pool := { p.pool with free := IndexPool.insert s.index p.pool.free }
    entries := p.entries.set s.index (some s) }

theorem release_foreign {p : Pipeline} {s : TensorSet} (h : s.pipeline ≠ p.id) :
    p.release s = (.error (.foreignSet s.index), p) := by
  rw [release, if_pos h]

namespace Tidy

variable {p : Pipeline}

theorem acquire_cases (h : p.Tidy) :
    (p.pool.free = [] ∧ p.acquire = (none, p)) ∨
      ∃ i free s, p.pool.free = i :: free ∧ p.entries[i]? = some (some s) ∧
        p.acquire = (some s, p.taken i free) := by
  cases split : p.pool.free with
  | nil =>
    refine .inl ⟨rfl, ?_⟩
    rw [acquire, IndexPool.take?_of_nil split]
  | cons i free =>
    obtain ⟨s, entry⟩ := (h.filled i).mp (split ▸ List.mem_cons_self)
    refine .inr ⟨i, free, s, rfl, entry, ?_⟩
    rw [acquire, IndexPool.take?_of_cons split]
    simp [entry, taken]

theorem taken (h : p.Tidy) {i : Nat} {free : List Nat} (split : p.pool.free = i :: free) :
    (p.taken i free).Tidy where
  pool := h.pool.take split
  size := List.length_set.trans h.size
  filled j := by
    refine (h.pool.mem_tail_iff split).trans ?_
    rw [h.filled]
    by_cases same : i = j
    · subst same
      simp [Pipeline.taken, List.getElem?_set_self']
    · simp [Pipeline.taken, List.getElem?_set_ne same, Ne.symm same]
  labelled j s found := by
    by_cases same : i = j
    · subst same
      simp [Pipeline.taken, List.getElem?_set_self'] at found
    · rw [Pipeline.taken, List.getElem?_set_ne same] at found
      exact h.labelled j s found

variable {s : TensorSet}

theorem entry_of_not_free (h : p.Tidy) {i : Nat} (below : i < p.depth) (out : i ∉ p.pool.free) :
    p.entries[i]? = some none := by
  rw [← h.size] at below
  cases entry : p.entries[i] with
  | none => rw [List.getElem?_eq_getElem below, entry]
  | some s =>
    have filled : p.entries[i]? = some (some s) := by rw [List.getElem?_eq_getElem below, entry]
    exact absurd ((h.filled i).mpr ⟨s, filled⟩) out

theorem release_home (h : p.Tidy) (home : s.pipeline = p.id) (below : s.index < p.depth)
    (out : s.index ∉ p.pool.free) : p.release s = (.ok (), p.refilled s) := by
  have entry := h.entry_of_not_free below out
  rw [release, if_neg (not_not.mpr home), entry]
  simp only [(h.pool.giveBack below out).1]
  rfl

theorem refilled (h : p.Tidy) (home : s.pipeline = p.id) (below : s.index < p.depth)
    (out : s.index ∉ p.pool.free) : (p.refilled s).Tidy where
  pool := (h.pool.giveBack below out).2
  size := List.length_set.trans h.size
  filled j := by
    have entry := h.entry_of_not_free below out
    refine IndexPool.mem_insert.trans ?_
    rw [h.filled]
    by_cases same : s.index = j
    · subst same
      simp [Pipeline.refilled, List.getElem?_set_self', entry]
    · simp [Pipeline.refilled, List.getElem?_set_ne same, Ne.symm same]
  labelled j s' found := by
    by_cases same : s.index = j
    · subst same
      have entry := h.entry_of_not_free below out
      simp [Pipeline.refilled, List.getElem?_set_self', entry] at found
      exact found ▸ ⟨home, rfl⟩
    · rw [Pipeline.refilled, List.getElem?_set_ne same] at found
      exact h.labelled j s' found

end Tidy

end Pipeline

end TensorCall
