import Mathlib
import TensorCall.Proofs.Admission
import TensorCall.Proofs.Provision

namespace TensorCall

theorem eq_of_forall₂_le {as bs : List Length} (h : List.Forall₂ (· ≤ ·) as bs)
    (h' : List.Forall₂ (· ≤ ·) bs as) : as = bs := by
  induction h with
  | nil => rfl
  | cons first _ ih =>
    cases h' with
    | cons back rest => rw [UInt64.le_antisymm first back, ih rest]

namespace Dim

theorem le_bound_of_relaxes {d : Dim} {n : Length} (h : d.Relaxes (.fixed n)) : n ≤ d.bound := by
  cases d with
  | fixed m =>
    obtain rfl : m = n := h
    exact UInt64.le_refl m
  | unknown => exact Length.le_greatest n

theorem forall₂_le_bound {ds : List Dim} {dims : List Length} (h : AllRelax ds (dims.map .fixed)) :
    List.Forall₂ (· ≤ ·) dims (ds.map bound) := by
  induction ds generalizing dims with
  | nil =>
    cases dims with
    | nil => exact .nil
    | cons n dims => exact h.elim
  | cons d ds ih =>
    cases dims with
    | nil => exact h.elim
    | cons n dims => exact .cons (le_bound_of_relaxes h.1) (ih h.2)

theorem allRelax_fixed_iff {dims : List Length} {ds : List Dim} :
    AllRelax (dims.map .fixed) ds ↔ ds = dims.map .fixed := by
  constructor
  · intro h
    induction dims generalizing ds with
    | nil =>
      cases ds with
      | nil => rfl
      | cons d ds => exact h.elim
    | cons n dims ih =>
      cases ds with
      | nil => exact h.elim
      | cons d ds =>
        cases d with
        | fixed m =>
          obtain rfl : n = m := h.1
          rw [ih h.2, List.map_cons]
        | unknown => exact h.1.elim
  · rintro rfl
    exact allRelax_refl _

end Dim

namespace PartialShape

variable {s : PartialShape} {m d : List Length}

theorem static_admits_iff {dims : List Length} : (static dims).Admits d ↔ d = dims := by
  constructor
  · intro h
    exact static_injective (congrArg ranked (Dim.allRelax_fixed_iff.mp h))
  · rintro rfl
    exact static_admits d

theorem bounds?_eq_none_iff : s.bounds? = none ↔ s.rank? = none := by
  cases s <;> simp [bounds?, rank?, dims?]

theorem admits_bounds (h : s.bounds? = some m) : s.Admits m := by
  cases s with
  | ranked ds =>
    cases h
    exact ranked_admits_filled Length.greatest ds
  | unranked => cases h

theorem le_bounds (h : s.bounds? = some m) (admitted : s.Admits d) :
    List.Forall₂ (· ≤ ·) d m := by
  cases s with
  | ranked ds =>
    cases h
    exact Dim.forall₂_le_bound admitted
  | unranked => cases h

theorem bounds?_eq_some_iff :
    s.bounds? = some m ↔ s.Admits m ∧ ∀ d, s.Admits d → List.Forall₂ (· ≤ ·) d m := by
  constructor
  · intro h
    exact ⟨admits_bounds h, fun d => le_bounds h⟩
  · rintro ⟨admitted, above⟩
    cases s with
    | ranked ds =>
      have bounds : (ranked ds).bounds? = some (ds.map Dim.bound) := rfl
      rw [bounds, eq_of_forall₂_le (above _ (admits_bounds bounds)) (le_bounds bounds admitted)]
    | unranked =>
      have none := (above [] trivial).length_eq
      have one := (above [0] trivial).length_eq
      rw [← none] at one
      contradiction

theorem lengths?_eq_some_iff_admits : s.lengths? = some d ↔ ∀ d', s.Admits d' ↔ d' = d := by
  rw [lengths?_eq_some_iff]
  constructor
  · rintro rfl d'
    exact static_admits_iff
  · intro only
    exact eq_of_same_admits fun d' => (only d').trans static_admits_iff.symm

theorem isStatic_iff_exists_lengths : s.IsStatic ↔ ∃ d, s.lengths? = some d := by
  simp only [isStatic_iff, lengths?_eq_some_iff]

theorem isStatic_iff_existsUnique : s.IsStatic ↔ ∃! d, s.Admits d := by
  simp only [isStatic_iff_exists_lengths, lengths?_eq_some_iff_admits]
  constructor
  · rintro ⟨d, only⟩
    exact ⟨d, (only d).mpr rfl, fun d' => (only d').mp⟩
  · rintro ⟨d, admitted, unique⟩
    refine ⟨d, fun d' => ⟨unique d', ?_⟩⟩
    rintro rfl
    exact admitted

theorem not_isStatic_ranked_iff {ds : List Dim} : ¬ (ranked ds).IsStatic ↔ .unknown ∈ ds := by
  constructor
  · intro other
    by_contra known
    refine other ⟨ds, rfl, fun d mem => ?_⟩
    cases d with
    | fixed n => rfl
    | unknown => exact absurd mem known
  · rintro mem ⟨_, ⟨⟩, all⟩
    cases all _ mem

theorem bounds?_of_lengths? (h : s.lengths? = some d) : s.bounds? = some d := by
  obtain rfl := lengths?_eq_some_iff.mp h
  apply bounds?_eq_some_iff.mpr
  refine ⟨static_admits d, fun d' admitted => ?_⟩
  obtain rfl := static_admits_iff.mp admitted
  exact List.forall₂_refl d'

/-- A shape of known rank has bounds, which are the one list of lengths that it admits and that no
other one exceeds at any place. It is static exactly if it admits just one list, and exactly if it
has lengths; then the list is both its lengths and its bounds. -/
theorem greatest_admitted (s : PartialShape) :
    (s.bounds? = none ↔ s.rank? = none) ∧
    (∀ m, s.bounds? = some m ↔ s.Admits m ∧ ∀ d, s.Admits d → List.Forall₂ (· ≤ ·) d m) ∧
    (s.IsStatic ↔ ∃! d, s.Admits d) ∧
    (s.IsStatic ↔ ∃ d, s.lengths? = some d) ∧
    ∀ d, s.IsStatic → s.Admits d → s.lengths? = some d ∧ s.bounds? = some d := by
  refine ⟨bounds?_eq_none_iff, fun m => bounds?_eq_some_iff, isStatic_iff_existsUnique,
    isStatic_iff_exists_lengths, ?_⟩
  intro d static admitted
  obtain ⟨d', lengths⟩ := isStatic_iff_exists_lengths.mp static
  obtain rfl := (lengths?_eq_some_iff_admits.mp lengths d).mp admitted
  exact ⟨lengths, bounds?_of_lengths? lengths⟩

/- With an unknown length, the bounds exceed what is admitted; with none there is nothing else. -/
theorem greatest_admitted_unknown :
    let s : PartialShape := .ranked [.unknown, .fixed 4]
    let full : PartialShape := .static [2, 3]
    (s.Admits [Length.greatest, 4] ∧ List.Forall₂ (· ≤ ·) [7, 4] [Length.greatest, 4] ∧
      ¬ s.IsStatic) ∧
    full.IsStatic ∧ full.lengths? = some [2, 3] ∧ full.bounds? = some [2, 3] := by
  intro s full
  obtain ⟨-, bounds, -, lengths, -⟩ := greatest_admitted s
  obtain ⟨-, -, -, -, only⟩ := greatest_admitted full
  obtain ⟨admitted, above⟩ := (bounds [Length.greatest, 4]).mp rfl
  refine ⟨⟨admitted, above [7, 4] (by decide), fun all => ?_⟩, by decide,
    only [2, 3] (by decide) (by decide)⟩
  obtain ⟨_, ⟨⟩⟩ := lengths.mp all

end PartialShape

end TensorCall
