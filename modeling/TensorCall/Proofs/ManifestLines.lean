import Mathlib
import TensorCall.Proofs.ManifestDecoding

namespace TensorCall

namespace Text

/-- These are the lines of the text. Each is ended by a line feed and has no other. -/
structure IsLines (text : List Char) (lines : List (List Char)) : Prop where
  ended : text = unlines lines
  single : ∀ line ∈ lines, '\n' ∉ line

theorem count_unlines (lines : List (List Char)) :
    (unlines lines).count '\n' = lines.length + (lines.map (·.count '\n')).sum := by
  induction lines with
  | nil => rfl
  | cons line lines ih =>
    rw [unlines, List.flatMap_cons, ← unlines, List.count_append, ih, List.count_append,
      List.count_singleton_self, List.length_cons, List.map_cons, List.sum_cons]
    omega

end Text

namespace Manifest

open Text

/-- One line for the function, then one for each parameter and one for each result, with that
of slot `k` at place `k` of its side. -/
structure LineBySlot (f : CompiledFunction) (lines : List (List Char)) : Prop where
  count : lines.length = 1 + f.signature.parameters.length + f.signature.results.length
  function : lines[0]? = some (functionLine f.name)
  parameter : ∀ (k : Nat) (slot : Slot), f.signature.parameters[k]? = some slot →
    lines[1 + k]? = some (slotLine .input k slot)
  result : ∀ (k : Nat) (slot : Slot), f.signature.results[k]? = some slot →
    lines[1 + f.signature.parameters.length + k]? = some (slotLine .output k slot)

theorem length_slotLines (port : Port) (index : Nat) (slots : List Slot) :
    (slotLines port index slots).length = slots.length := by
  induction slots generalizing index with
  | nil => rfl
  | cons slot slots ih => rw [slotLines, List.length_cons, List.length_cons, ih]

theorem getElem?_slotLines (port : Port) (index : Nat) (slots : List Slot) (k : Nat) :
    (slotLines port index slots)[k]? = slots[k]?.map (slotLine port (index + k)) := by
  induction slots generalizing index k with
  | nil => rfl
  | cons slot slots ih =>
    cases k with
    | zero => rfl
    | succ k =>
      rw [slotLines, List.getElem?_cons_succ, List.getElem?_cons_succ, ih, Nat.add_right_comm,
        Nat.add_assoc]

theorem length_lines (name : String) (s : Signature) :
    (lines name s).length = 1 + s.parameters.length + s.results.length := by
  rw [lines, List.length_cons, List.length_append, length_slotLines, length_slotLines]
  omega

theorem lineBySlot_lines (f : CompiledFunction) : LineBySlot f (lines f.name f.signature) where
  count := length_lines f.name f.signature
  function := rfl
  parameter k slot declared := by
    have below : k < (slotLines .input 0 f.signature.parameters).length := by
      rw [length_slotLines]
      exact (List.getElem?_eq_some_iff.mp declared).1
    rw [lines, Nat.add_comm, List.getElem?_cons_succ, List.getElem?_append_left below,
      getElem?_slotLines, declared, Nat.zero_add]
    rfl
  result k slot declared := by
    rw [lines, Nat.add_assoc, Nat.add_comm, List.getElem?_cons_succ,
      ← length_slotLines .input 0 f.signature.parameters, List.getElem?_append_right
      (Nat.le_add_right ..), Nat.add_sub_cancel_left, getElem?_slotLines, declared, Nat.zero_add]
    rfl

theorem LineBySlot.unique {f : CompiledFunction} {ls ls' : List (List Char)}
    (h : LineBySlot f ls) (h' : LineBySlot f ls') : ls = ls' := by
  apply List.ext_getElem?
  intro i
  rcases Nat.lt_or_ge i (1 + f.signature.parameters.length) with front | back
  · cases i with
    | zero => exact h.function.trans h'.function.symm
    | succ k =>
      have below : k < f.signature.parameters.length := by omega
      have declared := List.getElem?_eq_getElem below
      rw [Nat.add_comm, h.parameter k _ declared, h'.parameter k _ declared]
  · obtain ⟨k, rfl⟩ := Nat.exists_eq_add_of_le back
    cases declared : f.signature.results[k]? with
    | some slot => rw [h.result k slot declared, h'.result k slot declared]
    | none =>
      have beyond := Nat.add_le_add_left (List.getElem?_eq_none_iff.mp declared)
        (1 + f.signature.parameters.length)
      rw [List.getElem?_eq_none (h.count ▸ beyond), List.getElem?_eq_none (h'.count ▸ beyond)]

theorem count_text (f : CompiledFunction) :
    (text f.name f.signature).toList.count '\n' =
      1 + f.signature.parameters.length + f.signature.results.length + f.lineFeeds.sum := by
  rw [toList_text, count_unlines, length_lines, map_count_lines]

theorem exists_lineBySlot_iff {f : CompiledFunction} :
    (∃ ls, IsLines (text f.name f.signature).toList ls ∧ LineBySlot f ls) ↔ f.SingleLine := by
  rw [← newline_not_mem_lines_iff, toList_text]
  constructor
  · rintro ⟨ls, whole, bySlot⟩
    exact bySlot.unique (lineBySlot_lines f) ▸ whole.single
  · intro single
    exact ⟨_, ⟨rfl, single⟩, lineBySlot_lines f⟩

end Manifest

namespace Host

variable {σ : Type}

/-- What a host executable saves has a line feed for the function, one for each slot and one for
each line feed in a name. It is one line for the function and one for each slot, in order,
exactly if there is none in a name. -/
theorem saved_lines {c : HostConfig σ} {h : Host σ} (built : c.build = .ok h) :
    let f := c.function
    let text := Manifest.text f.name f.signature
    h.saved = Text.utf8 text ∧
      text.toList.count '\n' =
        1 + f.signature.parameters.length + f.signature.results.length + f.lineFeeds.sum ∧
      ((∃ lines, Text.IsLines text.toList lines ∧ Manifest.LineBySlot f lines) ↔
        f.SingleLine) := by
  intro f text
  obtain ⟨name, signature⟩ := name_signature_of_build built
  refine ⟨?_, Manifest.count_text f, Manifest.exists_lineBySlot_iff⟩
  rw [saved_eq, name, signature]

/- A nameless parameter, and a result whose name reads like the rest of a line. -/
theorem saved_lines_two_slots :
    let f : CompiledFunction := ⟨"f", ⟨[⟨"", .f32, .ranked [.fixed 2, .unknown]⟩],
      [⟨"y u8 []", .dynamic, .unranked⟩]⟩⟩
    let h : Host Unit := ⟨"f", f.signature, 1, fun _ _ => .finish () (.ok ()), ()⟩
    CompiledFunction.declare "f" f.signature.parameters f.signature.results = .ok f ∧
      h.saved = Text.utf8 "function f\nparameter 0 _ f32 [2, ?]\nresult 0 y u8 [] dynamic [...]\n" ∧
      ∃ lines, Text.IsLines (Manifest.text f.name f.signature).toList lines ∧
        Manifest.LineBySlot f lines ∧ lines.length = 3 := by
  intro f h
  have built : HostConfig.build ⟨f, 1, some (fun _ _ => .finish () (.ok ()), ())⟩ = .ok h := rfl
  obtain ⟨saved, -, bySlot⟩ := saved_lines built
  have single : f.SingleLine := CompiledFunction.singleLine_iff.mpr (by decide)
  obtain ⟨lines, whole, each⟩ := bySlot.mpr single
  refine ⟨by decide +kernel, saved.trans ?_, lines, whole, each, each.count⟩
  decide +kernel

/- Names are only compared with each other. A parameter whose name has a line feed is
declared, and its line is saved as two. -/
theorem saved_lines_lineFeed :
    let f : CompiledFunction := ⟨"f", ⟨[⟨"a\nb", .f32, .static [2]⟩], []⟩⟩
    let h : Host Unit := ⟨"f", f.signature, 1, fun _ _ => .finish () (.ok ()), ()⟩
    let text := Manifest.text f.name f.signature
    CompiledFunction.declare "f" f.signature.parameters f.signature.results = .ok f ∧
      HostConfig.build ⟨f, 1, some (h.kernel, ())⟩ = .ok h ∧
      h.saved = Text.utf8 text ∧ text = "function f\nparameter 0 a\nb f32 [2]\n" ∧
      text.toList.count '\n' = 3 ∧
      ¬ ∃ lines, Text.IsLines text.toList lines ∧ Manifest.LineBySlot f lines := by
  intro f h text
  refine ⟨by decide +kernel, rfl, saved_eq h, by decide +kernel, by decide +kernel, ?_⟩
  rw [Manifest.exists_lineBySlot_iff, CompiledFunction.singleLine_iff]
  decide

end Host

end TensorCall
