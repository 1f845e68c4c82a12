import Mathlib
import TensorCall.Proofs.Lifetime

/-! The outline of a tensor is its type and its shape, which no write and no call changes. -/
namespace TensorCall

section
variable {α β : Type} {f : α → β}

theorem map_set_eq {as : List α} {i : Nat} {a a' : α} (found : as[i]? = some a)
    (same : f a' = f a) : (as.set i a').map f = as.map f := by
  apply List.ext_getElem?
  intro j
  rw [List.getElem?_map, List.getElem?_map]
  by_cases here : i = j
  · subst here
    simp [List.getElem?_set_self', found, same]
  · rw [List.getElem?_set_ne here]

theorem map_modify_eq {g : α → α} (same : ∀ a, f (g a) = f a) (as : List α) (i : Nat) :
    (as.modify i g).map f = as.map f := by
  apply List.ext_getElem?
  intro j
  rw [List.getElem?_map, List.getElem?_map, List.getElem?_modify]
  split
  · simp [Function.comp_def, same]
  · simp

end

abbrev Outline : Type := ElementType × PartialShape

namespace Tensor

def outline (t : Tensor) : Outline := (t.elementType, t.shape)

@[simp] theorem outline_beginCall (t : Tensor) : t.beginCall.outline = t.outline := rfl

@[simp] theorem outline_stored (t : Tensor) (p : Payload) : (t.stored p).outline = t.outline := rfl

@[simp] theorem outline_after (t : Tensor) (p : Option Payload) :
    (t.after p).outline = t.outline := by
  cases p <;> rfl

theorem Becomes.outline {t t' : Tensor} (changes : t.Becomes t') : t'.outline = t.outline :=
  Prod.ext changes.keeps.1 changes.keeps.2

theorem outline_attempt (t : Tensor) (p : Payload) : (t.attempt p).outline = t.outline :=
  Becomes.outline (.single (.write t p))

end Tensor

def outlines (tensors : List Tensor) : List Outline := tensors.map Tensor.outline

theorem outlines_writeAt (outputs : List Tensor) (output : Nat) (p : Payload) :
    outlines (writeAt outputs output p).2 = outlines outputs := by
  rcases writeAt_cases outputs output p with ⟨t, found, -, taken⟩ | ⟨e, refused⟩
  · rw [taken]
    exact map_set_eq found (t.outline_stored p)
  · rw [refused]

namespace Host

variable {σ : Type}

theorem outlines_call (h : Host σ) (b : Binding) :
    outlines (h.call b).outputs = outlines b.outputs := by
  apply List.ext_getElem?
  intro i
  simp [outlines, getElem?_call, Function.comp_def]

theorem outlines_callChecked (h : Host σ) (b : Binding) :
    outlines (Executable.callChecked h b).outputs = outlines b.outputs := by
  rcases h.callChecked_outputs b with called | refused
  · rw [called, h.outlines_call]
  · rw [refused]

end Host

end TensorCall
