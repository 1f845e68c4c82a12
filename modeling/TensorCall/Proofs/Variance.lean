import Mathlib
import TensorCall.Proofs.Refusal

/-! When one signature may stand in for another one, and one binding for another one. Both
conditions are exact: where they fail, some call tells the two apart. -/
namespace TensorCall

section
variable {α β : Type} {R : α → β → Prop}

theorem exists_forall₂ (total : ∀ a, ∃ b, R a b) (as : List α) : ∃ bs, List.Forall₂ R as bs :=
  exists_forall₂_iff.mpr fun a _ => total a

/- Every place has something that fits it, so the places of a list can be tried one by one while
the others are filled. -/
theorem forall₂_iff_replaces (total : ∀ a, ∃ b, R a b) {as as' : List α} :
    List.Forall₂ (fun a' a => ∀ b, R a b → R a' b) as' as ↔
      ∀ bs, List.Forall₂ R as bs → List.Forall₂ R as' bs := by
  induction as generalizing as' with
  | nil =>
    constructor
    · intro pairs bs fits
      cases pairs
      exact fits
    · intro all
      have empty := all [] .nil
      cases empty
      exact .nil
  | cons a as ih =>
    constructor
    · intro pairs bs fits
      cases pairs with
      | cons first rest =>
        cases fits with
        | cons fit fits => exact .cons (first _ fit) (ih.mp rest _ fits)
    · intro all
      obtain ⟨filling, fillings⟩ := exists_forall₂ total as
      obtain ⟨b, fit⟩ := total a
      cases all (b :: filling) (.cons fit fillings) with
      | cons _ _ =>
        -- vary the first place over a fixed rest, then the rest over a fixed first place
        refine .cons ?_ (ih.mpr ?_)
        · intro b' fit'
          cases all (b' :: filling) (.cons fit' fillings) with
          | cons here there => exact here
        · intro bs fits
          cases all (b :: bs) (.cons fit fits) with
          | cons here there => exact there

theorem forall₂_family_iff_replaces {ι : Type} [DecidableEq ι] {R : ι → α → β → Prop}
    (total : ∀ i a, ∃ b, R i a b) {as as' : ι → List α} :
    (∀ i, List.Forall₂ (fun a' a => ∀ b, R i a b → R i a' b) (as' i) (as i)) ↔
      ∀ bs : ι → List β, (∀ i, List.Forall₂ (R i) (as i) (bs i)) →
        ∀ i, List.Forall₂ (R i) (as' i) (bs i) := by
  constructor
  · intro pairs bs fits i
    exact (forall₂_iff_replaces (total i)).mp (pairs i) (bs i) (fits i)
  · intro all i
    choose filling fillings using fun j => exists_forall₂ (total j) (as j)
    refine (forall₂_iff_replaces (total i)).mpr ?_
    intro bs fits
    have there := all (Function.update filling i bs) ?_ i
    · rwa [Function.update_self] at there
    · intro j
      by_cases here : j = i
      · subst here
        rwa [Function.update_self]
      · rw [Function.update_of_ne here]
        exact fillings j

end

namespace Slot

def Fits (port : Port) (slot : Slot) (t : Tensor) : Prop :=
  slot.TypeFits t port ∧ slot.ShapeFits t port

/-- What the other slot takes, this one takes. -/
def Loosens (slot' slot : Slot) : Port → Prop
  | .input => (slot'.elementType = slot.elementType ∨ slot'.elementType = .dynamic) ∧
      slot'.shape.Relaxes slot.shape
  | .output => (slot'.elementType = slot.elementType ∨ slot'.elementType = .dynamic) ∧
      slot.shape.Relaxes slot'.shape

end Slot

/-- Where the other tensor fits, this one fits. An input of open type fits no parameter that
looks at types, so there any type may come in its place. -/
def Tensor.Replaces (t' t : Tensor) : Port → Prop
  | .input => (t'.elementType = t.elementType ∨ t.elementType = .dynamic) ∧
      t.shape.Relaxes t'.shape
  | .output => (t'.elementType = t.elementType ∨ t'.elementType = .dynamic) ∧
      t'.shape.Relaxes t.shape

namespace Slot

variable {port : Port} {slot slot' : Slot} {t t' : Tensor}

theorem shapeFits_of_eq (shape : slot.shape = t.shape) : slot.ShapeFits t port := by
  cases port <;> simp only [ShapeFits, shape, PartialShape.relaxes_refl]

theorem fits_of_eq (type : slot.elementType = t.elementType) (shape : slot.shape = t.shape) :
    slot.Fits port t := by
  refine ⟨?_, shapeFits_of_eq shape⟩
  cases port with
  | input => exact .inr type
  | output => exact .inr (.inr type)

theorem exists_fits (port : Port) (slot : Slot) : ∃ t, slot.Fits port t :=
  ⟨.unallocated slot.elementType slot.shape, fits_of_eq rfl rfl⟩

theorem Loosens.fits (h : slot'.Loosens slot port) (fit : slot.Fits port t) :
    slot'.Fits port t := by
  obtain ⟨typed, shaped⟩ := fit
  cases port with
  | input =>
    obtain ⟨type, shape⟩ := h
    refine ⟨?_, PartialShape.relaxes_trans shape shaped⟩
    rcases type with same | opened
    · exact typed.imp same.trans same.trans
    · exact .inl opened
  | output =>
    obtain ⟨type, shape⟩ := h
    refine ⟨?_, PartialShape.relaxes_trans shaped shape⟩
    rcases type with same | opened
    · exact typed.imp_right (Or.imp same.trans same.trans)
    · exact .inr (.inl opened)

theorem Fits.replaced (fit : slot.Fits port t) (h : t'.Replaces t port) : slot.Fits port t' := by
  obtain ⟨typed, shaped⟩ := fit
  cases port with
  | input =>
    obtain ⟨type, shape⟩ := h
    refine ⟨?_, PartialShape.relaxes_trans shaped shape⟩
    rcases type with same | opened
    · exact typed.imp_right (·.trans same.symm)
    · exact .inl (typed.elim id (·.trans opened))
  | output =>
    obtain ⟨type, shape⟩ := h
    refine ⟨?_, PartialShape.relaxes_trans shape shaped⟩
    rcases type with same | opened
    · exact typed.imp same.trans (Or.imp_right (·.trans same.symm))
    · exact .inl opened

/- A tensor of just the declared type and shape fits. Where a result is of open type, that one
fits every other result as well, so tensors of two static types are tried there. -/
theorem loosens_iff :
    slot'.Loosens slot port ↔ ∀ t, slot.Fits port t → slot'.Fits port t := by
  refine ⟨fun h t => h.fits, fun all => ?_⟩
  obtain ⟨typed, shaped⟩ := all (.unallocated slot.elementType slot.shape) (fits_of_eq rfl rfl)
  cases port with
  | input => exact ⟨typed.symm, shaped⟩
  | output =>
    refine ⟨?_, shaped⟩
    by_cases opened : slot.elementType = .dynamic
    · have tried (e : ElementType) : slot'.TypeFits (.unallocated e slot.shape) .output :=
        (all _ ⟨.inr (.inl opened), shapeFits_of_eq rfl⟩).1
      have bytes := tried .u8
      have words := tried .i32
      simp only [TypeFits, Tensor.unallocated] at bytes words
      grind
    · exact (typed.resolve_left opened).symm

end Slot

namespace Tensor

theorem exists_fits (port : Port) (t : Tensor) : ∃ slot : Slot, slot.Fits port t :=
  ⟨⟨"", t.elementType, t.shape⟩, Slot.fits_of_eq rfl rfl⟩

theorem replaces_iff {port : Port} {t t' : Tensor} :
    t'.Replaces t port ↔ ∀ slot : Slot, slot.Fits port t → slot.Fits port t' := by
  refine ⟨fun h slot fit => fit.replaced h, fun all => ?_⟩
  obtain ⟨typed, shaped⟩ := all ⟨"", t.elementType, t.shape⟩ (Slot.fits_of_eq rfl rfl)
  cases port with
  | input => exact ⟨typed.symm.imp_left Eq.symm, shaped⟩
  | output =>
    refine ⟨?_, shaped⟩
    by_cases opened : t.elementType = .dynamic
    · have tried (e : ElementType) : Slot.TypeFits ⟨"", e, t.shape⟩ t' .output :=
        (all _ ⟨.inl opened, Slot.shapeFits_of_eq rfl⟩).1
      have bytes := tried .u8
      have words := tried .i32
      simp only [Slot.TypeFits] at bytes words
      grind
    · rcases typed with own | declared | same
      · exact .inr own
      · exact absurd declared opened
      · exact .inl same.symm

end Tensor

def Binding.ofTensors (tensors : Port → List Tensor) : Binding := ⟨tensors .input, tensors .output⟩

theorem Binding.tensors_ofTensors (tensors : Port → List Tensor) :
    (ofTensors tensors).tensors = tensors := by
  funext port
  cases port <;> rfl

def Binding.Replaces (b' b : Binding) : Prop :=
  ∀ port, List.Forall₂ (Tensor.Replaces · · port) (b'.tensors port) (b.tensors port)

namespace Signature

def ofSlots (slots : Port → List Slot) : Signature := ⟨slots .input, slots .output⟩

theorem slots_ofSlots (slots : Port → List Slot) : (ofSlots slots).slots = slots := by
  funext port
  cases port <;> rfl

def Loosens (s' s : Signature) : Prop :=
  ∀ port, List.Forall₂ (Slot.Loosens · · port) (s'.slots port) (s.slots port)

theorem validate_eq_ok_iff_forall₂ {s : Signature} {b : Binding} :
    s.validate b = .ok () ↔ ∀ port, List.Forall₂ (Slot.Fits port) (s.slots port) (b.tensors port) := by
  rw [validate_eq_ok_iff_accepts]
  constructor
  · rintro ⟨counts, places⟩ port
    refine List.forall₂_iff_get.mpr ⟨counts port, ?_⟩
    intro i atSlot atTensor
    exact places port i _ _ (List.getElem?_eq_getElem atSlot) (List.getElem?_eq_getElem atTensor)
  · intro all
    refine ⟨fun port => (all port).length_eq, ?_⟩
    intro port i slot t declared given
    obtain ⟨atSlot, rfl⟩ := List.getElem?_eq_some_iff.mp declared
    obtain ⟨atTensor, rfl⟩ := List.getElem?_eq_some_iff.mp given
    exact (List.forall₂_iff_get.mp (all port)).2 i atSlot atTensor

end Signature

/-- One signature accepts all that another one accepts exactly if it is looser in every slot. One
binding is accepted wherever another one is exactly if the other one's inputs relax its own, its
outputs relax the other's, and types are the same, or open where that does no harm. -/
theorem validate_variance (s s' : Signature) (b b' : Binding) :
    (s'.Loosens s ↔ ∀ b, s.validate b = .ok () → s'.validate b = .ok ()) ∧
    (b'.Replaces b ↔ ∀ s : Signature, s.validate b = .ok () → s.validate b' = .ok ()) := by
  simp only [Signature.Loosens, Slot.loosens_iff, Binding.Replaces, Tensor.replaces_iff,
    Signature.validate_eq_ok_iff_forall₂]
  constructor
  · rw [forall₂_family_iff_replaces Slot.exists_fits]
    constructor
    · intro all b
      exact all b.tensors
    · intro all tensors
      simpa only [Binding.tensors_ofTensors] using all (.ofTensors tensors)
  · -- here the tensors are the places and the slots are what fits them
    rw [forall₂_family_iff_replaces (R := fun port t slot => Slot.Fits port slot t)
      Tensor.exists_fits]
    constructor
    · intro all s fits port
      exact (all s.slots (fun port => (fits port).flip) port).flip
    · intro all slots fits port
      have fitted := all (.ofSlots slots)
      rw [Signature.slots_ofSlots] at fitted
      exact (fitted (fun port => (fits port).flip) port).flip

end TensorCall
