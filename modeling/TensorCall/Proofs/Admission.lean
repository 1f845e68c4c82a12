import Mathlib
import TensorCall.Shape

namespace TensorCall

namespace Dim

def filled (n : Length) (d : Dim) : Length := d.length?.getD n

theorem relaxes_filled (n : Length) (d : Dim) : d.Relaxes (.fixed (d.filled n)) := by
  cases d with
  | fixed m => exact (rfl : m = m)
  | unknown => trivial

theorem allRelax_filled (n : Length) (ds : List Dim) :
    AllRelax ds ((ds.map (filled n)).map .fixed) := by
  induction ds with
  | nil => trivial
  | cons d ds ih => exact ⟨relaxes_filled n d, ih⟩

/- One filling is not enough: a fixed length relaxes the filling with that very length. -/
theorem relaxes_of_relaxes_filled {a b : Dim} {m n : Length} (apart : m ≠ n)
    (hm : a.Relaxes (.fixed (b.filled m))) (hn : a.Relaxes (.fixed (b.filled n))) :
    a.Relaxes b := by
  cases b with
  | fixed k => exact hm
  | unknown =>
    cases a with
    | unknown => trivial
    | fixed k =>
      have first : k = m := hm
      have second : k = n := hn
      exact absurd (first.symm.trans second) apart

theorem allRelax_of_allRelax_filled {as bs : List Dim} {m n : Length} (apart : m ≠ n)
    (hm : AllRelax as ((bs.map (filled m)).map .fixed))
    (hn : AllRelax as ((bs.map (filled n)).map .fixed)) : AllRelax as bs := by
  induction as generalizing bs with
  | nil =>
    cases bs with
    | nil => trivial
    | cons b bs => exact hm.elim
  | cons a as ih =>
    cases bs with
    | nil => exact hm.elim
    | cons b bs => exact ⟨relaxes_of_relaxes_filled apart hm.1 hn.1, ih hm.2 hn.2⟩

end Dim

namespace PartialShape

theorem ranked_admits_filled (n : Length) (ds : List Dim) :
    (ranked ds).Admits (ds.map (Dim.filled n)) :=
  Dim.allRelax_filled n ds

theorem length_eq_of_ranked_admits {ds : List Dim} {dims : List Length}
    (h : (ranked ds).Admits dims) : ds.length = dims.length := by
  have same : ds.length = (dims.map Dim.fixed).length := Dim.length_eq_of_allRelax h
  rwa [List.length_map] at same

/- A shape of known rank misses lengths of some other rank, so the rank of the right side
is known too; then two fillings of it settle every dimension. -/
theorem relaxes_of_admits {a b : PartialShape} (h : ∀ dims, b.Admits dims → a.Admits dims) :
    a.Relaxes b := by
  cases a with
  | unranked => trivial
  | ranked as =>
    cases b with
    | unranked =>
      have none := length_eq_of_ranked_admits (h [] trivial)
      have one := length_eq_of_ranked_admits (h [0] trivial)
      rw [none] at one
      contradiction
    | ranked bs =>
      have apart : (0 : Length) ≠ 1 := by decide
      exact Dim.allRelax_of_allRelax_filled apart (h _ (ranked_admits_filled 0 bs))
        (h _ (ranked_admits_filled 1 bs))

theorem eq_of_same_admits {a b : PartialShape} (h : ∀ dims, a.Admits dims ↔ b.Admits dims) :
    a = b :=
  relaxes_antisymm (relaxes_of_admits fun dims => (h dims).mpr)
    (relaxes_of_admits fun dims => (h dims).mp)

instance : IsPartialOrder PartialShape Relaxes where
  refl := relaxes_refl
  trans _ _ _ := relaxes_trans
  antisymm _ _ := relaxes_antisymm

/-- Relaxation is inclusion of the admitted lengths, and the lengths determine the shape;
so relaxation is a partial order, whose greatest shape is the one of unknown rank. -/
theorem relaxes_iff_admits_all (a b : PartialShape) :
    (a.Relaxes b ↔ ∀ dims, b.Admits dims → a.Admits dims) ∧
    (a = b ↔ ∀ dims, a.Admits dims ↔ b.Admits dims) ∧
    IsPartialOrder PartialShape Relaxes ∧ unranked.Relaxes a := by
  refine ⟨⟨fun h dims => admits_of_relaxes h, relaxes_of_admits⟩, ?_, inferInstance, trivial⟩
  constructor
  · rintro rfl dims
    exact Iff.rfl
  · exact eq_of_same_admits

end PartialShape

end TensorCall
