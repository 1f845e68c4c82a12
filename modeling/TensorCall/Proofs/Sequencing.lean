import Mathlib
import TensorCall.Allocation

namespace TensorCall

section
variable {ε ε' α β : Type}

theorem bind_eq_ok_iff {x : Except ε α} {f : α → Except ε β} {b : β} :
    (x >>= f) = .ok b ↔ ∃ a, x = .ok a ∧ f a = .ok b := by
  cases x with
  | error e => simp [bind, Except.bind]
  | ok a => simp [bind, Except.bind]

theorem check_bind_eq_ok_iff {x : Except ε Unit} {f : Unit → Except ε β} {b : β} :
    (x >>= f) = .ok b ↔ x = .ok () ∧ f () = .ok b := by
  rw [bind_eq_ok_iff]
  exact ⟨fun ⟨(), done, rest⟩ => ⟨done, rest⟩, fun ⟨done, rest⟩ => ⟨(), done, rest⟩⟩

theorem bind_eq_error_iff {x : Except ε α} {f : α → Except ε β} {e : ε} :
    (x >>= f) = .error e ↔ x = .error e ∨ ∃ a, x = .ok a ∧ f a = .error e := by
  cases x with
  | error e' => simp [bind, Except.bind]
  | ok a => simp [bind, Except.bind]

theorem check_bind_eq_error_iff {x : Except ε Unit} {f : Unit → Except ε β} {e : ε} :
    (x >>= f) = .error e ↔ x = .error e ∨ x = .ok () ∧ f () = .error e := by
  rw [bind_eq_error_iff]
  exact or_congr_right ⟨fun ⟨(), done, rest⟩ => ⟨done, rest⟩, fun ⟨done, rest⟩ => ⟨(), done, rest⟩⟩

theorem mapError_eq_ok_iff {x : Except ε α} {f : ε → ε'} {a : α} :
    x.mapError f = .ok a ↔ x = .ok a := by
  cases x <;> simp [Except.mapError]

theorem exists_forall₂_iff {R : α → β → Prop} {as : List α} :
    (∃ bs, List.Forall₂ R as bs) ↔ ∀ a ∈ as, ∃ b, R a b := by
  induction as with
  | nil => exact iff_of_true ⟨[], .nil⟩ nofun
  | cons a as ih =>
    rw [List.forall_mem_cons, ← ih]
    constructor
    · rintro ⟨_, _ | ⟨first, rest⟩⟩
      exact ⟨⟨_, first⟩, _, rest⟩
    · rintro ⟨⟨b, first⟩, bs, rest⟩
      exact ⟨b :: bs, .cons first rest⟩

theorem mapM_eq_ok_iff {f : α → Except ε β} {as : List α} {bs : List β} :
    as.mapM f = .ok bs ↔ List.Forall₂ (fun a b => f a = .ok b) as bs := by
  induction as generalizing bs with
  | nil =>
    rw [List.mapM_nil, List.forall₂_nil_left_iff]
    exact ⟨fun done => (Except.ok.inj done).symm, fun none => none ▸ rfl⟩
  | cons a as ih =>
    simp only [List.mapM_cons, List.forall₂_cons_left_iff, bind_eq_ok_iff, ih]
    constructor
    · rintro ⟨b, head, rest, tail, whole⟩
      exact ⟨b, rest, head, tail, (Except.ok.inj whole).symm⟩
    · rintro ⟨b, rest, head, tail, rfl⟩
      exact ⟨b, head, rest, tail, rfl⟩

theorem exists_mapM_iff {f : α → Except ε β} {as : List α} :
    (∃ bs, as.mapM f = .ok bs) ↔ ∀ a ∈ as, ∃ b, f a = .ok b := by
  simp only [mapM_eq_ok_iff, exists_forall₂_iff]

/- Nothing is known of the members behind the failing one. -/
theorem mapM_eq_error_iff {f : α → Except ε β} {as : List α} {e : ε} :
    as.mapM f = .error e ↔ ∃ before a after, as = before ++ a :: after ∧ f a = .error e ∧
      ∀ a' ∈ before, ∃ b, f a' = .ok b := by
  induction as with
  | nil => simp [pure, Except.pure]
  | cons a as ih =>
    simp only [List.mapM_cons, bind_eq_error_iff, ih]
    constructor
    · rintro (failed | ⟨b, head, ⟨before, a', after, rfl, failed, earlier⟩ | ⟨_, _, done⟩⟩)
      · exact ⟨[], a, as, rfl, failed, nofun⟩
      · exact ⟨a :: before, a', after, rfl, failed, List.forall_mem_cons.mpr ⟨⟨b, head⟩, earlier⟩⟩
      · cases done
    · rintro ⟨_ | ⟨_, before⟩, a', after, split, failed, earlier⟩
      · cases split
        exact .inl failed
      · cases split
        obtain ⟨⟨b, head⟩, earlier⟩ := List.forall_mem_cons.mp earlier
        exact .inr ⟨b, head, .inl ⟨before, a', after, rfl, failed, earlier⟩⟩

theorem exists_of_mem_mapM {f : α → Except ε β} {as : List α} {bs : List β}
    (h : as.mapM f = .ok bs) {b : β} (mem : b ∈ bs) : ∃ a ∈ as, f a = .ok b := by
  rw [mapM_eq_ok_iff] at h
  induction h with
  | nil => cases mem
  | cons head _ ih =>
    rcases List.mem_cons.mp mem with rfl | later
    · exact ⟨_, List.mem_cons_self, head⟩
    · obtain ⟨a', ha, made⟩ := ih later
      exact ⟨a', List.mem_cons_of_mem _ ha, made⟩

end

theorem collect_eq_ok_iff {α : Type} {attempt : Except Error α} {n : Nat} {as : List α} :
    collect attempt n = .ok as ↔ as.length = n ∧ ∀ a ∈ as, attempt = .ok a := by
  induction n generalizing as with
  | zero => cases as <;> simp [collect]
  | succ n ih =>
    simp only [collect, bind_eq_ok_iff, ih]
    constructor
    · rintro ⟨a, first, rest, ⟨length, all⟩, whole⟩
      cases whole
      refine ⟨by simp [length], ?_⟩
      intro a' mem
      rcases List.mem_cons.mp mem with rfl | later
      · exact first
      · exact all a' later
    · rintro ⟨length, all⟩
      cases as with
      | nil => simp at length
      | cons a as =>
        have rest : as.length = n := by simpa using length
        exact ⟨a, all a List.mem_cons_self, as,
          ⟨rest, fun a' mem => all a' (List.mem_cons_of_mem a mem)⟩, rfl⟩

theorem collect_eq_ok_iff_replicate {α : Type} {attempt : Except Error α} {n : Nat} {as : List α}
    (nonzero : n ≠ 0) : collect attempt n = .ok as ↔ ∃ a, attempt = .ok a ∧ as = List.replicate n a := by
  rw [collect_eq_ok_iff]
  constructor
  · rintro ⟨length, all⟩
    have filled : 0 < as.length := by omega
    obtain ⟨a, mem⟩ := List.exists_mem_of_length_pos filled
    have made := all a mem
    refine ⟨a, made, List.eq_replicate_iff.mpr ⟨length, fun a' mem' => ?_⟩⟩
    exact Except.ok.inj ((all a' mem').symm.trans made)
  · rintro ⟨a, made, rfl⟩
    exact ⟨List.length_replicate, fun a' mem => (List.eq_of_mem_replicate mem) ▸ made⟩

theorem collect_eq_error_iff {α : Type} {attempt : Except Error α} {n : Nat} {e : Error} :
    collect attempt n = .error e ↔ n ≠ 0 ∧ attempt = .error e := by
  induction n with
  | zero => simp [collect]
  | succ n ih =>
    simp only [collect, bind_eq_error_iff, ih]
    constructor
    · rintro (first | ⟨a, first, ⟨-, later⟩ | ⟨_, -, done⟩⟩)
      · exact ⟨Nat.succ_ne_zero n, first⟩
      · cases first.symm.trans later
      · cases done
    · rintro ⟨-, first⟩
      exact .inl first

end TensorCall
