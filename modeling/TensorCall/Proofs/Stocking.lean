import Mathlib
import TensorCall.Bare
import TensorCall.Proofs.Entries

namespace TensorCall

theorem range_eq_append_cons_iff {n i : Nat} {before after : List Nat} :
    List.range n = before ++ i :: after ↔
      i < n ∧ before = List.range i ∧ after = List.range' (i + 1) (n - i - 1) := by
  simp only [List.range_eq_range', List.range'_eq_append_iff, eq_comm (a := i :: after),
    List.range'_eq_cons_iff]
  constructor
  · rintro ⟨k, -, rfl, start, below, rfl⟩
    obtain rfl : k = i := by omega
    exact ⟨by omega, rfl, rfl⟩
  · rintro ⟨below, rfl, rfl⟩
    exact ⟨i, below.le, rfl, by omega, by omega, rfl⟩

section
variable {α : Type}

theorem flatten_zipWith_cons_perm {as : List α} {bss : List (List α)}
    (length : as.length = bss.length) :
    (List.zipWith (· :: ·) as bss).flatten.Perm (as ++ bss.flatten) := by
  induction as generalizing bss with
  | nil =>
    obtain rfl : bss = [] := List.length_eq_zero_iff.mp length.symm
    exact .refl _
  | cons a as ih =>
    cases bss with
    | nil => cases length
    | cons bs bss =>
      have rest := ih (Nat.succ.inj length)
      rw [List.zipWith_cons_cons, List.flatten_cons, List.flatten_cons, List.cons_append,
        List.cons_append]
      exact ((rest.append_left bs).trans (List.perm_append_comm_assoc bs as bss.flatten)).cons a

theorem flatten_rows_perm {count : Nat} {columns : List (List α)}
    (h : ∀ column ∈ columns, column.length = count) :
    (rows count columns).flatten.Perm columns.flatten := by
  induction columns with
  | nil => simp [rows]
  | cons column columns ih =>
    obtain ⟨own, others⟩ := List.forall_mem_cons.mp h
    have length : column.length = (rows count columns).length := own.trans (length_rows others).symm
    exact (flatten_zipWith_cons_perm length).trans ((ih others).append_left column)

end

namespace Pipeline

def stored (p : Pipeline) (port : Port) : List Tensor :=
  p.entries.flatMap fun entry => (entry.map fun s => s.binding.tensors port).getD []

section
variable {ε : Type} [Executable ε] {x : ε} {port : Port} {depth index : Nat} {e : Error}

def created (x : ε) (port : Port) (depth : Nat) : List Tensor :=
  (List.range ((Executable.signature x).slots port).length).flatMap fun index =>
    (Executable.createEach x port index depth).toOption.getD []

inductive Fails (x : ε) (port : Port) (depth index : Nat) : Error → Prop where
  | refused {e : Error} : Executable.createEach x port index depth = .error e →
      Fails x port depth index e
  | miscounted {column : List Tensor} :
      Executable.createEach x port index depth = .ok column → column.length ≠ depth →
      Fails x port depth index (.pipeline (.tensorCount column.length depth))

/-- The slot is the first that the creation fails for, parameters before results. -/
structure FirstFails (x : ε) (depth : Nat) (port : Port) (index : Nat) (e : Error) : Prop where
  declared : index < ((Executable.signature x).slots port).length
  failed : Fails x port depth index e
  inputs : port = .output → ∀ i < (Executable.signature x).parameters.length,
    ∃ column, Creates x .input depth i column
  earlier : ∀ i < index, ∃ column, Creates x port depth i column

theorem checkCreated_eq_error_iff {tensors : List Tensor} :
    checkCreated depth tensors = .error e ↔
      tensors.length ≠ depth ∧ e = .pipeline (.tensorCount tensors.length depth) := by
  unfold checkCreated
  split <;> simp_all [eq_comm]

theorem column_eq_error_iff : column x port depth index = .error e ↔ Fails x port depth index e := by
  constructor
  · intro h
    rcases bind_eq_error_iff.mp h with refused | ⟨tensors, made, h⟩
    · exact .refused refused
    · rcases check_bind_eq_error_iff.mp h with wrong | ⟨-, done⟩
      · obtain ⟨other, rfl⟩ := checkCreated_eq_error_iff.mp wrong
        exact .miscounted made other
      · cases done
  · rintro (refused | ⟨made, other⟩)
    · exact bind_eq_error_iff.mpr (.inl refused)
    · have wrong := checkCreated_eq_error_iff.mpr ⟨other, rfl⟩
      exact bind_eq_error_iff.mpr (.inr ⟨_, made, check_bind_eq_error_iff.mpr (.inl wrong)⟩)

theorem columns_eq_error_iff {indices : List Nat} :
    columns x port depth indices = .error e ↔
      ∃ before index after, indices = before ++ index :: after ∧ Fails x port depth index e ∧
        ∀ i ∈ before, ∃ column, Creates x port depth i column := by
  simp only [columns_eq_mapM, mapM_eq_error_iff, column_eq_error_iff, column_eq_ok_iff]

theorem columns_range_eq_error_iff {n : Nat} :
    columns x port depth (List.range n) = .error e ↔
      ∃ index < n, Fails x port depth index e ∧
        ∀ i < index, ∃ column, Creates x port depth i column := by
  rw [columns_eq_error_iff]
  constructor
  · rintro ⟨before, index, after, split, failed, earlier⟩
    obtain ⟨below, rfl, -⟩ := range_eq_append_cons_iff.mp split
    exact ⟨index, below, failed, fun i lt => earlier i (List.mem_range.mpr lt)⟩
  · rintro ⟨index, below, failed, earlier⟩
    refine ⟨_, index, _, range_eq_append_cons_iff.mpr ⟨below, rfl, rfl⟩, failed, ?_⟩
    exact fun i mem => earlier i (List.mem_range.mp mem)

theorem exists_columns_iff {indices : List Nat} :
    (∃ tensors, columns x port depth indices = .ok tensors) ↔
      ∀ index ∈ indices, ∃ column, Creates x port depth index column := by
  simp only [columns_eq_ok_iff, exists_forall₂_iff]

theorem exists_columns_range_iff {n : Nat} :
    (∃ tensors, columns x port depth (List.range n) = .ok tensors) ↔
      ∀ index < n, ∃ column, Creates x port depth index column := by
  rw [exists_columns_iff]
  exact forall_congr' fun index => imp_congr_left List.mem_range

theorem exists_create_iff {id : Nat} :
    (∃ p, create id x depth = .ok p) ↔
      1 ≤ depth ∧ ∀ port, ∀ index < ((Executable.signature x).slots port).length,
        ∃ column, Creates x port depth index column := by
  constructor
  · rintro ⟨p, h⟩
    obtain ⟨positive, inputs, outputs, hi, ho, -⟩ := exists_columns_of_create h
    refine ⟨Nat.one_le_iff_ne_zero.mpr positive, ?_⟩
    rintro (_ | _)
    · exact exists_columns_range_iff.mp ⟨inputs, hi⟩
    · exact exists_columns_range_iff.mp ⟨outputs, ho⟩
  · rintro ⟨positive, all⟩
    obtain ⟨inputs, hi⟩ := exists_columns_range_iff.mpr (all .input)
    obtain ⟨outputs, ho⟩ := exists_columns_range_iff.mpr (all .output)
    rw [create, if_neg (Nat.one_le_iff_ne_zero.mp positive)]
    exact ⟨_, bind_eq_ok_iff.mpr ⟨inputs, hi, bind_eq_ok_iff.mpr ⟨outputs, ho, rfl⟩⟩⟩

theorem create_eq_error_iff {id : Nat} (positive : 1 ≤ depth) :
    create id x depth = .error e ↔ ∃ port index, FirstFails x depth port index e := by
  rw [create, if_neg (Nat.one_le_iff_ne_zero.mp positive)]
  constructor
  · intro h
    rcases bind_eq_error_iff.mp h with input | ⟨inputs, hi, h⟩
    · obtain ⟨index, below, failed, earlier⟩ := columns_range_eq_error_iff.mp input
      exact ⟨.input, index, below, failed, nofun, earlier⟩
    -- outputs are only tried when all inputs were created
    · rcases bind_eq_error_iff.mp h with output | ⟨_, -, done⟩
      · obtain ⟨index, below, failed, earlier⟩ := columns_range_eq_error_iff.mp output
        have inputs := exists_columns_range_iff.mp ⟨inputs, hi⟩
        exact ⟨.output, index, below, failed, fun _ => inputs, earlier⟩
      · cases done
  · rintro ⟨port, index, first⟩
    have here := columns_range_eq_error_iff.mpr ⟨index, first.declared, first.failed, first.earlier⟩
    cases port with
    | input => exact bind_eq_error_iff.mpr (.inl here)
    | output =>
      obtain ⟨inputs, hi⟩ := exists_columns_range_iff.mpr (first.inputs rfl)
      exact bind_eq_error_iff.mpr (.inr ⟨inputs, hi, bind_eq_error_iff.mpr (.inl here)⟩)

theorem flatten_of_columns {indices : List Nat} {tensors : List (List Tensor)}
    (h : columns x port depth indices = .ok tensors) :
    tensors.flatten = indices.flatMap fun index =>
      (Executable.createEach x port index depth).toOption.getD [] := by
  rw [columns_eq_ok_iff] at h
  induction h with
  | nil => rfl
  | cons first _ ih =>
    rw [List.flatten_cons, List.flatMap_cons, ih, first.1]
    rfl

theorem stored_mapIdx {id : Nat} {pool : IndexPool} (sets : List (List Tensor × List Tensor)) :
    stored ⟨id, pool, sets.mapIdx fun index t => some ⟨id, index, t.1, t.2⟩⟩ port =
      sets.flatMap fun t => (Binding.mk t.1 t.2).tensors port := by
  rw [stored, List.flatMap_def, List.flatMap_def]
  congr 1
  apply List.ext_getElem?
  intro i
  rw [List.getElem?_map, List.getElem?_map, List.getElem?_mapIdx, Option.map_map]
  rfl

theorem rows_perm_created {tensors : List (List Tensor)}
    (h : columns x port depth (List.range ((Executable.signature x).slots port).length) =
      .ok tensors) : (rows depth tensors).flatten.Perm (created x port depth) := by
  rw [created, ← flatten_of_columns h]
  exact flatten_rows_perm fun _ => length_of_mem_columns h

theorem stored_perm_created {id : Nat} {p : Pipeline} (h : create id x depth = .ok p)
    (port : Port) : (p.stored port).Perm (created x port depth) := by
  obtain ⟨-, inputs, outputs, hi, ho, rfl⟩ := exists_columns_of_create h
  have tall := length_rows fun _ => length_of_mem_columns hi
  have tall' := length_rows fun _ => length_of_mem_columns ho
  rw [stored_mapIdx, List.flatMap_def]
  -- a side of the sets is the rows of that side
  cases port with
  | input =>
    have side := List.map_fst_zip (tall.trans tall'.symm).le
    exact (List.Perm.of_eq (congrArg List.flatten side)).trans (rows_perm_created hi)
  | output =>
    have side := List.map_snd_zip (tall'.trans tall.symm).le
    exact (List.Perm.of_eq (congrArg List.flatten side)).trans (rows_perm_created ho)

/-- A creation of one set or more succeeds exactly if every slot gets as many tensors as there are
sets. The set at place `k` then has the tensor at place `k` of every slot, and each tensor is used
once. Otherwise the first slot to fail, parameters before results, gives the error. -/
theorem create_outcome (id : Nat) (x : ε) (depth : Nat) :
    ((∃ p, create id x depth = .ok p) ↔
      1 ≤ depth ∧ ∀ port, ∀ index < ((Executable.signature x).slots port).length,
        ∃ column, Creates x port depth index column) ∧
    (∀ p, create id x depth = .ok p → p.depth = depth ∧ p.available = depth ∧
      p.Stocked x depth ∧ ∀ port, (p.stored port).Perm (created x port depth)) ∧
    (depth = 0 → create id x depth = .error (.pipeline .zeroDepth)) ∧
    (1 ≤ depth → ∀ e, create id x depth = .error e ↔
      ∃ port index, FirstFails x depth port index e) := by
  refine ⟨exists_create_iff, ?_, ?_, fun positive e => create_eq_error_iff positive⟩
  · intro p h
    refine ⟨?_, ?_, stocked_create h, stored_perm_created h⟩
    all_goals obtain ⟨-, sets, -, rfl⟩ := create_eq_ok h
    · rfl
    · exact List.length_range
  · intro zero
    rw [create, if_pos zero]

end

/- An executable that creates as many inputs and outputs as it says, whatever the depth. -/
theorem create_outcome_counts :
    let a : Tensor := .unallocated .u8 .unranked
    let b : Tensor := .unallocated .f32 (.ranked [.unknown])
    let x (counts : Option (Nat × Nat)) : Bare Unit := ⟨⟨[⟨"a", .u8, .unranked⟩],
      [⟨"b", .f32, .ranked [.unknown]⟩]⟩, fun _ _ => .finish () (.ok ()), (), true,
      some ⟨2, [], counts⟩⟩
    (∃ p, create 0 (x (some (2, 2))) 2 = .ok p ∧ p.available = 2 ∧
      (p.stored .input).Perm [a, a] ∧ (p.stored .output).Perm [b, b]) ∧
      create 0 (x (some (2, 3))) 2 = .error (.pipeline (.tensorCount 3 2)) ∧
      create 0 (x (some (1, 3))) 2 = .error (.pipeline (.tensorCount 1 2)) ∧
      create 0 (x none) 2 = .error (.unimplemented "create_input_tensors") ∧
      create 0 (x none) 0 = .error (.pipeline .zeroDepth) := by
  intro a b x
  have input {n m : Nat} : Executable.createEach (x (some (n, m))) .input 0 2 =
      .ok (List.replicate n a) := rfl
  have output {n m : Nat} : Executable.createEach (x (some (n, m))) .output 0 2 =
      .ok (List.replicate m b) := rfl
  obtain ⟨succeeds, stocked, -, -⟩ := create_outcome 0 (x (some (2, 2))) 2
  obtain ⟨-, -, -, outputs⟩ := create_outcome 0 (x (some (2, 3))) 2
  obtain ⟨-, -, -, inputs⟩ := create_outcome 0 (x (some (1, 3))) 2
  obtain ⟨-, -, empty, -⟩ := create_outcome 0 (x none) 0
  obtain ⟨-, -, -, refused⟩ := create_outcome 0 (x none) 2
  have all : ∀ port, ∀ i < ((x (some (2, 2))).signature.slots port).length,
      ∃ column, Creates (x (some (2, 2))) port 2 i column := by
    intro port i below
    cases port with
    | input =>
      obtain rfl : i = 0 := Nat.lt_one_iff.mp below
      exact ⟨_, input, rfl⟩
    | output =>
      obtain rfl : i = 0 := Nat.lt_one_iff.mp below
      exact ⟨_, output, rfl⟩
  obtain ⟨p, made⟩ := succeeds.mpr ⟨by decide, all⟩
  obtain ⟨-, available, -, same⟩ := stocked p made
  refine ⟨⟨p, made, available, same .input, same .output⟩, ?_, ?_, ?_, empty rfl⟩
  · refine (outputs (by decide) _).mpr ⟨.output, 0, by decide, .miscounted output nofun, ?_, nofun⟩
    intro _ i below
    obtain rfl : i = 0 := Nat.lt_one_iff.mp below
    exact ⟨_, input, rfl⟩
  · exact (inputs (by decide) _).mpr
      ⟨.input, 0, by decide, .miscounted input nofun, nofun, nofun⟩
  · exact (refused (by decide) _).mpr ⟨.input, 0, by decide, .refused rfl, nofun, nofun⟩

/- A depth of zero is refused before any slot is looked at: a slot that cannot have its tensors
does not answer for the pipeline. -/
theorem zeroDepth_before_slots :
    let h : Host Unit := ⟨"f", ⟨[⟨"x", .f32, .static [2]⟩], []⟩, 2,
      fun _ _ => .finish () (.ok ()), ()⟩
    create 0 h 0 = .error (.pipeline .zeroDepth) ∧
      FirstFails h 0 .input 0 (.allocation .zeroDepth) ∧
      ¬ ∃ port index, FirstFails h 0 port index (.pipeline .zeroDepth) := by
  intro h
  have refused : Executable.createEach h .input 0 0 = .error (.allocation .zeroDepth) := rfl
  refine ⟨rfl, ⟨by decide, .refused refused, nofun, nofun⟩, ?_⟩
  rintro ⟨port, index, first⟩
  have other : Executable.createEach h port index 0 = .error (.allocation .zeroDepth) := rfl
  cases first.failed with
  | refused failed => cases failed.symm.trans other

end Pipeline

end TensorCall
