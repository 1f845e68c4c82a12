import Mathlib
import TensorCall.Host
import TensorCall.Proofs.ShapeText

/-! What a saved manifest tells of its function: everything but whether a nameless slot or
function was called `_`. A name may hold blanks, brackets and digits, so a line is taken
apart from both of its ends. -/
namespace TensorCall

namespace Text

theorem eq_of_append_cons {c : Char} {a a' b b' : List Char} (fresh : c ∉ a) (fresh' : c ∉ a')
    (h : a ++ c :: b = a' ++ c :: b') : a = a' ∧ b = b' := by
  have cut : a :: fields c b = a' :: fields c b' := by
    rw [← fields_append_cons fresh, ← fields_append_cons fresh', h]
  obtain ⟨front, rest⟩ := List.cons.inj cut
  refine ⟨front, ?_⟩
  rw [← intercalate_fields c b, rest, intercalate_fields]

theorem eq_of_append_cons_last {c : Char} {a a' b b' : List Char} (fresh : c ∉ b)
    (fresh' : c ∉ b') (h : a ++ c :: b = a' ++ c :: b') : a = a' ∧ b = b' := by
  have mirrored : b.reverse ++ c :: a.reverse = b'.reverse ++ c :: a'.reverse := by
    simpa using congrArg List.reverse h
  obtain ⟨back, front⟩ := eq_of_append_cons (by simpa using fresh) (by simpa using fresh') mirrored
  exact ⟨List.reverse_injective front, List.reverse_injective back⟩

def unlines (lines : List (List Char)) : List Char := lines.flatMap (· ++ ['\n'])

theorem fields_unlines {lines : List (List Char)} (single : ∀ line ∈ lines, '\n' ∉ line) :
    fields '\n' (unlines lines) = lines ++ [[]] := by
  induction lines with
  | nil => rfl
  | cons line lines ih =>
    have first := single line List.mem_cons_self
    have rest := ih fun l mem => single l (List.mem_cons_of_mem line mem)
    rw [unlines, List.flatMap_cons, List.append_assoc, List.singleton_append,
      fields_append_cons first, ← unlines, rest, List.cons_append]

theorem eq_of_unlines {lines lines' : List (List Char)} (single : ∀ line ∈ lines, '\n' ∉ line)
    (single' : ∀ line ∈ lines', '\n' ∉ line) (h : unlines lines = unlines lines') :
    lines = lines' := by
  have same := fields_unlines single
  rw [h, fields_unlines single'] at same
  exact (List.append_cancel_right same).symm

theorem utf8_injective {s t : String} (h : utf8 s = utf8 t) : s = t := by
  rw [← String.toByteArray_inj, ← s.ofList_toList, ← t.ofList_toList]
  show s.toList.utf8Encode = t.toList.utf8Encode
  rw [List.utf8Encode, List.utf8Encode, ← utf8, ← utf8, h]

theorem utf8_join (pieces : List String) : utf8 (String.join pieces) = pieces.flatMap utf8 := by
  rw [utf8, String.toList_join, List.flatMap_assoc]
  rfl

end Text

/-- The empty name and the underscore are one name. -/
def SameName (a b : String) : Prop := a = b ∨ (a = "" ∨ a = "_") ∧ (b = "" ∨ b = "_")

instance (a b : String) : Decidable (SameName a b) :=
  inferInstanceAs (Decidable (_ ∨ _ ∧ _))

structure Slot.Alike (a b : Slot) : Prop where
  name : SameName a.name b.name
  elementType : a.elementType = b.elementType
  shape : a.shape = b.shape

namespace CompiledFunction

structure Alike (f g : CompiledFunction) : Prop where
  name : SameName f.name g.name
  slots : ∀ port, List.Forall₂ Slot.Alike (f.signature.slots port) (g.signature.slots port)

structure SingleLine (f : CompiledFunction) : Prop where
  name : '\n' ∉ f.name.toList
  slots : ∀ port, ∀ slot ∈ f.signature.slots port, '\n' ∉ slot.name.toList

def lineFeeds (f : CompiledFunction) : List Nat :=
  f.name.toList.count '\n' :: (f.signature.parameters ++ f.signature.results).map
    (·.name.toList.count '\n')

theorem singleLine_iff {f : CompiledFunction} : f.SingleLine ↔ ∀ n ∈ f.lineFeeds, n = 0 := by
  rw [lineFeeds, List.forall_mem_cons, List.forall_mem_map, List.forall_mem_append]
  simp only [List.count_eq_zero]
  constructor
  · intro single
    exact ⟨single.name, single.slots .input, single.slots .output⟩
  · rintro ⟨name, parameters, results⟩
    refine ⟨name, ?_⟩
    rintro (_ | _)
    · exact parameters
    · exact results

end CompiledFunction

namespace Manifest

open Text

theorem shownName_eq_iff {a b : String} : shownName a = shownName b ↔ SameName a b := by
  unfold shownName SameName
  split <;> split <;> grind

theorem count_shownName (name : String) :
    (shownName name).toList.count '\n' = name.toList.count '\n' := by
  unfold shownName
  split
  · next empty => rw [empty]; rfl
  · rfl

def functionLine (name : String) : List Char := ("function " ++ shownName name).toList

def slotLine (port : Port) (index : Nat) (slot : Slot) : List Char :=
  port.slotText.toList ++ ' ' :: numeral index ++ ' ' :: (shownName slot.name).toList ++
    ' ' :: slot.elementType.text.toList ++ ' ' :: slot.shape.chars

def slotLines (port : Port) : Nat → List Slot → List (List Char)
  | _, [] => []
  | index, slot :: slots => slotLine port index slot :: slotLines port (index + 1) slots

def lines (name : String) (s : Signature) : List (List Char) :=
  functionLine name :: (slotLines .input 0 s.parameters ++ slotLines .output 0 s.results)

theorem mem_slotLines {port : Port} {index : Nat} {slots : List Slot} {line : List Char}
    (h : line ∈ slotLines port index slots) :
    ∃ place, ∃ slot ∈ slots, line = slotLine port place slot := by
  induction slots generalizing index with
  | nil => cases h
  | cons slot slots ih =>
    rcases List.mem_cons.mp h with rfl | later
    · exact ⟨index, slot, List.mem_cons_self, rfl⟩
    · obtain ⟨place, own, mem, same⟩ := ih later
      exact ⟨place, own, List.mem_cons_of_mem slot mem, same⟩

theorem toList_join_slotsPieces (port : Port) (index : Nat) (slots : List Slot) :
    (String.join (slotsPieces port index slots)).toList = unlines (slotLines port index slots) := by
  induction slots generalizing index with
  | nil => rfl
  | cons slot slots ih =>
    have later := ih (index + 1)
    simp only [String.toList_join] at later ⊢
    rw [slotsPieces, List.flatMap_append, later, slotLines, unlines, unlines, List.flatMap_cons]
    simp [slotPieces, slotLine, decimal, PartialShape.text]

theorem toList_join_functionPieces (name : String) :
    (String.join (functionPieces name)).toList = unlines [functionLine name] := by
  simp [functionPieces, functionLine, unlines]

theorem toList_text (name : String) (s : Signature) :
    (text name s).toList = unlines (lines name s) := by
  have function := toList_join_functionPieces name
  have parameters := toList_join_slotsPieces .input 0 s.parameters
  have results := toList_join_slotsPieces .output 0 s.results
  rw [String.toList_join] at function parameters results
  rw [text, String.toList_join, pieces, List.flatMap_append, List.flatMap_append, function,
    parameters, results, lines]
  simp [unlines]

theorem newline_not_mem_numeral (n : Nat) : '\n' ∉ numeral n := by
  intro mem
  exact absurd (isDigit_of_mem_numeral mem) (by decide)

theorem count_functionLine (name : String) :
    (functionLine name).count '\n' = name.toList.count '\n' := by
  have title : "function ".toList.count '\n' = 0 := by decide
  rw [functionLine, String.toList_append, List.count_append, title, count_shownName, Nat.zero_add]

theorem count_slotLine (port : Port) (index : Nat) (slot : Slot) :
    (slotLine port index slot).count '\n' = slot.name.toList.count '\n' := by
  have side : port.slotText.toList.count '\n' = 0 := by cases port <;> decide
  have place := List.count_eq_zero.mpr (newline_not_mem_numeral index)
  have type : slot.elementType.text.toList.count '\n' = 0 := by
    cases slot.elementType <;> decide
  obtain ⟨rest, shape, -, line⟩ := slot.shape.exists_chars_eq
  have line := List.count_eq_zero.mpr line
  simp [slotLine, shape, side, place, type, line, count_shownName]

theorem map_count_slotLines (port : Port) (index : Nat) (slots : List Slot) :
    (slotLines port index slots).map (·.count '\n') = slots.map (·.name.toList.count '\n') := by
  induction slots generalizing index with
  | nil => rfl
  | cons slot slots ih => rw [slotLines, List.map_cons, List.map_cons, count_slotLine, ih]

theorem map_count_lines (f : CompiledFunction) :
    (lines f.name f.signature).map (·.count '\n') = f.lineFeeds := by
  rw [lines, List.map_cons, List.map_append, count_functionLine, map_count_slotLines,
    map_count_slotLines, ← List.map_append]
  rfl

theorem newline_not_mem_lines_iff {f : CompiledFunction} :
    (∀ line ∈ lines f.name f.signature, '\n' ∉ line) ↔ f.SingleLine := by
  rw [CompiledFunction.singleLine_iff, ← map_count_lines, List.forall_mem_map]
  simp only [List.count_eq_zero]

end Manifest

/-- A shape begins at the last opening bracket. -/
theorem PartialShape.eq_of_append {front front' : List Char} {s t : PartialShape}
    (h : front ++ ' ' :: s.chars = front' ++ ' ' :: t.chars) : front = front' ∧ s = t := by
  obtain ⟨rest, text, fresh, -⟩ := s.exists_chars_eq
  obtain ⟨rest', text', fresh', -⟩ := t.exists_chars_eq
  have cut : front ++ [' '] ++ '[' :: rest = front' ++ [' '] ++ '[' :: rest' := by
    simpa [text, text'] using h
  obtain ⟨before, after⟩ := Text.eq_of_append_cons_last fresh fresh' cut
  refine ⟨List.append_cancel_right before, chars_injective ?_⟩
  rw [text, text', after]

/-- The name of a type begins after the last space. -/
theorem ElementType.eq_of_append {front front' : List Char} {a b : ElementType}
    (h : front ++ ' ' :: a.text.toList = front' ++ ' ' :: b.text.toList) :
    front = front' ∧ a = b := by
  have fresh : ∀ e : ElementType, ' ' ∉ e.text.toList := by
    intro e
    cases e <;> decide
  obtain ⟨before, after⟩ := Text.eq_of_append_cons_last (fresh a) (fresh b) h
  exact ⟨before, text_injective (String.toList_inj.mp after)⟩

namespace Manifest

open Text

theorem slotLine_eq_iff {port : Port} {index : Nat} {a b : Slot} :
    slotLine port index a = slotLine port index b ↔ a.Alike b := by
  constructor
  · intro same
    -- from the right: the shape, the type, and then the name with a known front
    obtain ⟨typed, shape⟩ := PartialShape.eq_of_append same
    obtain ⟨named, elementType⟩ := ElementType.eq_of_append typed
    have name : shownName a.name = shownName b.name := by
      apply String.toList_inj.mp
      exact (List.cons.inj (List.append_cancel_left named)).2
    exact ⟨shownName_eq_iff.mp name, elementType, shape⟩
  · intro alike
    unfold slotLine
    rw [shownName_eq_iff.mpr alike.name, alike.elementType, alike.shape]

theorem slotLines_eq_iff {port : Port} {index : Nat} {as bs : List Slot} :
    slotLines port index as = slotLines port index bs ↔ List.Forall₂ Slot.Alike as bs := by
  induction as generalizing index bs with
  | nil => cases bs <;> simp [slotLines]
  | cons a as ih =>
    cases bs with
    | nil => simp [slotLines]
    | cons b bs =>
      rw [slotLines, slotLines, List.cons.injEq, slotLine_eq_iff, ih, List.forall₂_cons]

def IsOn (port : Port) (line : List Char) : Prop := line.head? = port.slotText.toList.head?

instance (port : Port) (line : List Char) : Decidable (IsOn port line) :=
  inferInstanceAs (Decidable (_ = _))

theorem isOn_slotLine_iff {port side : Port} {index : Nat} {slot : Slot} :
    IsOn port (slotLine side index slot) ↔ side = port := by
  cases port <;> cases side <;> simp [IsOn, slotLine, Port.slotText]

theorem filter_slotLines (port side : Port) (index : Nat) (slots : List Slot) :
    (slotLines side index slots).filter (IsOn port ·) =
      if side = port then slotLines side index slots else [] := by
  split
  · next same =>
    apply List.filter_eq_self.mpr
    intro line mem
    obtain ⟨place, slot, -, rfl⟩ := mem_slotLines mem
    simpa [isOn_slotLine_iff] using same
  · next apart =>
    apply List.filter_eq_nil_iff.mpr
    intro line mem
    obtain ⟨place, slot, -, rfl⟩ := mem_slotLines mem
    simpa [isOn_slotLine_iff] using apart

theorem filter_lines (port : Port) (name : String) (s : Signature) :
    (lines name s).filter (IsOn port ·) = slotLines port 0 (s.slots port) := by
  have title : ¬ IsOn port (functionLine name) := by
    cases port <;> simp [IsOn, functionLine, Port.slotText]
  rw [lines, List.filter_cons_of_neg (by simpa using title), List.filter_append, filter_slotLines,
    filter_slotLines]
  cases port <;> simp [Signature.slots]

theorem functionLine_eq_iff {a b : String} : functionLine a = functionLine b ↔ SameName a b := by
  rw [functionLine, functionLine, String.toList_append, String.toList_append,
    List.append_cancel_left_eq, String.toList_inj, shownName_eq_iff]

theorem lines_eq_iff {f g : CompiledFunction} :
    lines f.name f.signature = lines g.name g.signature ↔ f.Alike g := by
  constructor
  · intro same
    refine ⟨functionLine_eq_iff.mp (List.cons.inj same).1, ?_⟩
    intro port
    have side := congrArg (List.filter (IsOn port ·)) same
    rw [filter_lines, filter_lines] at side
    exact slotLines_eq_iff.mp side
  · rintro ⟨name, slots⟩
    have title := functionLine_eq_iff.mpr name
    have parameters : slotLines .input 0 f.signature.parameters = _ :=
      slotLines_eq_iff.mpr (slots .input)
    have results : slotLines .output 0 f.signature.results = _ :=
      slotLines_eq_iff.mpr (slots .output)
    rw [lines, title, parameters, results]
    rfl

theorem text_eq_iff {f g : CompiledFunction} (single : f.SingleLine) (single' : g.SingleLine) :
    text f.name f.signature = text g.name g.signature ↔ f.Alike g := by
  rw [← String.toList_inj, toList_text, toList_text, ← lines_eq_iff]
  rw [← newline_not_mem_lines_iff] at single single'
  constructor
  · exact eq_of_unlines single single'
  · exact congrArg unlines

end Manifest

namespace Sink

theorem writeAll_unlimited (full : Option String) (taken bytes : List UInt8) :
    writer.writeAll ⟨none, full, taken⟩ bytes = (.ok (), ⟨none, full, taken ++ bytes⟩) := by
  cases bytes with
  | nil => simp [Writer.writeAll]
  | cons b rest => simp [Writer.writeAll, writer, room]

theorem writePieces_unlimited (full : Option String) (taken : List UInt8) (pieces : List String) :
    writer.writePieces ⟨none, full, taken⟩ pieces =
      (.ok (), ⟨none, full, taken ++ pieces.flatMap Text.utf8⟩) := by
  induction pieces generalizing taken with
  | nil => simp [Writer.writePieces]
  | cons piece pieces ih =>
    rw [Writer.writePieces, writeAll_unlimited]
    simp [ih]

end Sink

namespace Host

variable {σ τ : Type}

theorem save_unlimited (h : Host σ) (full : Option String) (taken : List UInt8) :
    h.save Sink.writer ⟨none, full, taken⟩ =
      (.ok (), ⟨none, full, taken ++ Text.utf8 (Manifest.text h.name h.signature)⟩) := by
  rw [save, Sink.writePieces_unlimited, Manifest.text, Text.utf8_join]
  rfl

def saved (h : Host σ) : List UInt8 := (h.save Sink.writer ⟨none, none, []⟩).2.taken

theorem saved_eq (h : Host σ) : h.saved = Text.utf8 (Manifest.text h.name h.signature) := by
  rw [saved, save_unlimited, List.nil_append]

theorem name_signature_of_build {c : HostConfig σ} {h : Host σ} (built : c.build = .ok h) :
    h.name = c.function.name ∧ h.signature = c.function.signature := by
  obtain ⟨-, kernel, state, rfl⟩ := HostConfig.build_eq_ok built
  exact ⟨rfl, rfl⟩

/-- Executables of two functions save the same text exactly if the functions are alike. -/
theorem saved_eq_iff_alike {c : HostConfig σ} {d : HostConfig τ} {h : Host σ} {k : Host τ}
    (built : c.build = .ok h) (built' : d.build = .ok k) (single : c.function.SingleLine)
    (single' : d.function.SingleLine) : h.saved = k.saved ↔ c.function.Alike d.function := by
  obtain ⟨name, signature⟩ := name_signature_of_build built
  obtain ⟨name', signature'⟩ := name_signature_of_build built'
  rw [saved_eq, saved_eq, name, signature, name', signature', ← Manifest.text_eq_iff single single']
  constructor
  · exact Text.utf8_injective
  · exact congrArg Text.utf8

/- The name of the slot reads like the rest of a line; the functions are told apart by it,
but not by the underscore. -/
theorem saved_eq_iff_alike_nameless :
    let function (name slot : String) : CompiledFunction :=
      ⟨name, ⟨[⟨slot, .f32, .ranked [.fixed 2, .unknown]⟩], [⟨"", .dynamic, .unranked⟩]⟩⟩
    let kernel : Kernel Unit := fun _ _ => .finish () (.ok ())
    let host (name slot : String) : Host Unit := ⟨name, (function name slot).signature, 1, kernel, ()⟩
    (host "" "x f32 [2, ?]").saved = (host "_" "x f32 [2, ?]").saved ∧
      (host "_" "x f32 [2, ?]").saved ≠ (host "_" "x").saved := by
  intro function kernel host
  have built (name slot : String) :
      HostConfig.build ⟨function name slot, 1, some (kernel, ())⟩ = .ok (host name slot) := rfl
  have single (name slot : String) (h : '\n' ∉ name.toList) (h' : '\n' ∉ slot.toList) :
      (function name slot).SingleLine := by
    refine ⟨h, ?_⟩
    intro port
    cases port with
    | input => simpa [function, Signature.slots] using h'
    | output => simp [function, Signature.slots]
  have long := single "_" "x f32 [2, ?]" (by decide) (by decide)
  constructor
  · apply (saved_eq_iff_alike (built _ _) (built _ _) (single _ _ (by decide) (by decide)) long).mpr
    refine ⟨.inr ⟨.inl rfl, .inr rfl⟩, ?_⟩
    intro port
    cases port <;> exact .cons ⟨.inl rfl, rfl, rfl⟩ .nil
  · intro same
    have short := single "_" "x" (by decide) (by decide)
    have alike := (saved_eq_iff_alike (built _ _) (built _ _) long short).mp same
    cases alike.slots .input with
    | cons slot _ => exact absurd slot.name (by decide)

end Host

end TensorCall
