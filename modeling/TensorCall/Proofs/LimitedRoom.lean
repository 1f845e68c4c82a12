import Mathlib
import TensorCall.Proofs.ManifestDecoding

namespace TensorCall

namespace Writer

variable {ω : Type}

/-- `taken` tells what the writer has, and `room` for how many bytes more there is room, if the
state is one of which this is known. While there is room, a write takes some of what it is
offered. A full writer takes nothing or reports an error, and keeps what it has. -/
structure Limited (w : Writer ω) (taken : ω → List UInt8) (room : ω → Option Nat) : Prop where
  takes : ∀ state left offered, room state = some (left + 1) → offered ≠ [] →
    ∃ n next, w.write state offered = (.ok n, next) ∧ 0 < n ∧ n ≤ offered.length ∧
      taken next = taken state ++ offered.take n ∧ ∃ rest, room next = some rest ∧ n + rest = left + 1
  full : ∀ state offered, room state = some 0 → offered ≠ [] →
    ((w.write state offered).1 = .ok 0 ∨ ∃ text, (w.write state offered).1 = .error text) ∧
      taken (w.write state offered).2 = taken state

section
variable (taken : ω → List UInt8) (room : ω → Option Nat)

inductive Ends (state : ω) (left : Nat) (bytes : List UInt8) : Except String Unit × ω → Prop where
  | whole {next : ω} (rest : Nat) : taken next = taken state ++ bytes → room next = some rest →
      bytes.length + rest = left → Ends state left bytes (.ok (), next)
  | cut {next : ω} (text : String) : taken next = taken state ++ bytes.take left →
      left < bytes.length → Ends state left bytes (.error text, next)

end

variable {w : Writer ω} {taken : ω → List UInt8} {room : ω → Option Nat}

theorem Ends.cons {state next : ω} {left rest : Nat} {front bytes : List UInt8}
    {r : Except String Unit × ω} (front_taken : taken next = taken state ++ front)
    (sum : front.length + rest = left) (h : Ends taken room next rest bytes r) :
    Ends taken room state left (front ++ bytes) r := by
  cases h with
  | whole rest' all room' sum' =>
    refine .whole rest' ?_ room' ?_
    · rw [all, front_taken, List.append_assoc]
    · rw [List.length_append]
      omega
  | cut text part short =>
    have reached : (front ++ bytes).take left = front ++ bytes.take rest := by
      rw [← sum, List.take_length_add_append]
    refine .cut text ?_ ?_
    · rw [part, front_taken, reached, List.append_assoc]
    · rw [List.length_append]
      omega

namespace Limited

variable {state next : ω} {left : Nat} {offered : List UInt8}

theorem full_of_write (limited : w.Limited taken room) (known : room state = some left)
    (offers : offered ≠ []) {answer : Except String Nat} (nothing : ∀ n, answer ≠ .ok (n + 1))
    (write : w.write state offered = (answer, next)) : left = 0 ∧ taken next = taken state := by
  cases left with
  | zero =>
    obtain ⟨-, kept⟩ := limited.full state offered known offers
    rw [write] at kept
    exact ⟨rfl, kept⟩
  | succ left =>
    obtain ⟨n, next', write', positive, -⟩ := limited.takes state left offered known offers
    rw [write] at write'
    obtain ⟨m, rfl⟩ := Nat.exists_eq_succ_of_ne_zero (Nat.ne_of_gt positive)
    exact absurd (congrArg Prod.fst write') (nothing m)

theorem taken_of_write (limited : w.Limited taken room) (known : room state = some left)
    (offers : offered ≠ []) {n : Nat} (write : w.write state offered = (.ok (n + 1), next)) :
    n + 1 ≤ offered.length ∧ taken next = taken state ++ offered.take (n + 1) ∧
      ∃ rest, room next = some rest ∧ n + 1 + rest = left := by
  cases left with
  | zero =>
    obtain ⟨answer, -⟩ := limited.full state offered known offers
    rw [write] at answer
    rcases answer with none | ⟨text, failed⟩
    · cases none
    · cases failed
  | succ left =>
    obtain ⟨m, next', write', -, inside, grown, fewer⟩ :=
      limited.takes state left offered known offers
    cases write.symm.trans write'
    exact ⟨inside, grown, fewer⟩

theorem ends_writeAll (limited : w.Limited taken room) (known : room state = some left)
    (bytes : List UInt8) : Ends taken room state left bytes (w.writeAll state bytes) := by
  fun_induction Writer.writeAll w state bytes generalizing left with
  | case1 state => exact .whole left (List.append_nil _).symm known (Nat.zero_add left)
  | case2 state b rest text next write =>
    obtain ⟨rfl, kept⟩ := limited.full_of_write known (List.cons_ne_nil b rest) (by simp) write
    exact .cut text (by simp [kept]) (Nat.succ_pos _)
  | case3 state b rest next write =>
    obtain ⟨rfl, kept⟩ := limited.full_of_write known (List.cons_ne_nil b rest) (by simp) write
    exact .cut _ (by simp [kept]) (Nat.succ_pos _)
  | case4 state b rest n next write ih =>
    obtain ⟨inside, grown, room', known', sum⟩ :=
      limited.taken_of_write known (List.cons_ne_nil b rest) write
    have parts : (b :: rest).take (n + 1) ++ rest.drop n = b :: rest :=
      List.take_append_drop (n + 1) (b :: rest)
    have length : ((b :: rest).take (n + 1)).length = n + 1 := List.length_take_of_le inside
    have ends := Ends.cons grown (length ▸ sum) (ih known')
    rwa [parts] at ends

/- Where a piece ends makes no difference to the bytes. -/
theorem ends_writePieces (limited : w.Limited taken room) (known : room state = some left)
    (pieces : List String) :
    Ends taken room state left (pieces.flatMap Text.utf8) (w.writePieces state pieces) := by
  induction pieces generalizing state left with
  | nil => exact .whole left (List.append_nil _).symm known (Nat.zero_add left)
  | cons piece pieces ih =>
    have first := limited.ends_writeAll known (Text.utf8 piece)
    rw [List.flatMap_cons, writePieces]
    split
    · next next written =>
      rw [written] at first
      cases first with
      -- the piece fits, and the others find what room it leaves
      | whole rest all known' sum => exact .cons all sum (ih known')
    · next text next failed =>
      rw [failed] at first
      cases first with
      | cut _ part short =>
        refine .cut text ?_ ?_
        · rw [part, List.take_append_of_le_length (Nat.le_of_lt short)]
        · rw [List.length_append]
          omega

end Limited

end Writer

namespace Sink

def left (s : Sink) : Option Nat := s.limit.map (· - s.taken.length)

theorem limited : Writer.Limited writer taken left where
  takes s left offered known offers := by
    obtain ⟨limit, bound, sum⟩ := Option.map_eq_some_iff.mp known
    have positive : 0 < offered.length := List.length_pos_iff.mpr offers
    have room : s.room offered.length = min offered.length (left + 1) := by
      simp [Sink.room, bound, sum]
    obtain ⟨n, taken⟩ : ∃ n, min offered.length (left + 1) = n + 1 :=
      Nat.exists_eq_succ_of_ne_zero (by omega)
    let next : Sink := { s with taken := s.taken ++ offered.take (n + 1) }
    have write : writer.write s offered = (.ok (n + 1), next) := by
      simp [writer, room, taken, next]
    refine ⟨n + 1, next, write, Nat.succ_pos n, by omega, rfl, left - n, ?_, by omega⟩
    simp only [Sink.left, bound, next, Option.map_some, List.length_append, List.length_take]
    congr 1
    omega
  full s offered known offers := by
    obtain ⟨limit, bound, sum⟩ := Option.map_eq_some_iff.mp known
    have room : s.room offered.length = 0 := by
      simp [Sink.room, bound, sum]
    cases refusal : s.whenFull with
    | none => simp [writer, room, refusal]
    | some text => simp [writer, room, refusal]

end Sink

namespace Host

variable {σ : Type} {ω : Type}

/-- A save to a writer with room for `left` bytes succeeds exactly if the manifest has no more, and
then the writer has all of it. Otherwise it fails with an error of the writer, which then has the
first `left` bytes of the manifest. -/
theorem save_limited (h : Host σ) {w : Writer ω} {taken : ω → List UInt8} {room : ω → Option Nat}
    (limited : w.Limited taken room) {state : ω} {left : Nat} (known : room state = some left) :
    let manifest := Text.utf8 (Manifest.text h.name h.signature)
    (Manifest.text h.name h.signature).toList = Text.unlines (Manifest.lines h.name h.signature) ∧
    ((h.save w state).1 = .ok () ↔ manifest.length ≤ left) ∧
    (manifest.length ≤ left → taken (h.save w state).2 = taken state ++ manifest) ∧
    (left < manifest.length → (∃ text, (h.save w state).1 = .error (.io text)) ∧
      taken (h.save w state).2 = taken state ++ manifest.take left) := by
  intro manifest
  have ends := limited.ends_writePieces known (Manifest.pieces h.name h.signature)
  rw [← Text.utf8_join] at ends
  refine ⟨Manifest.toList_text h.name h.signature, ?_⟩
  cases answer : w.writePieces state (Manifest.pieces h.name h.signature) with
  | mk result next =>
    have saved : h.save w state = (result.mapError .io, next) := by rw [save, answer]
    rw [answer] at ends
    rw [saved]
    cases ends with
    | whole rest all _ sum =>
      have fits : manifest.length ≤ left := sum ▸ Nat.le_add_right _ rest
      exact ⟨iff_of_true rfl fits, fun _ => all, fun short => absurd fits (Nat.not_le_of_lt short)⟩
    | cut text part short =>
      have tight : ¬ manifest.length ≤ left := Nat.not_le_of_lt short
      have failed : Except.mapError Error.io (.error text) ≠ Except.ok () := by
        intro answered
        cases answered
      exact ⟨iff_of_false failed tight, fun fits => absurd fits tight, fun _ => ⟨⟨text, rfl⟩, part⟩⟩

/- Room for the 32 bytes of the manifest is enough. With one byte less all but the last one is
taken, and the save fails with the text of the writer. -/
theorem save_limited_short :
    let h : Host Unit :=
      ⟨"f", ⟨[⟨"x", .u8, .static [2]⟩], []⟩, 1, fun _ _ => .finish () (.ok ()), ()⟩
    let manifest := Text.utf8 "function f\nparameter 0 x u8 [2]\n"
    let sink (limit : Nat) : Sink := ⟨some limit, some "full", []⟩
    ((h.save Sink.writer (sink 32)).1 = .ok () ∧
      (h.save Sink.writer (sink 32)).2.taken = manifest) ∧
    (∃ text, (h.save Sink.writer (sink 31)).1 = .error (.io text)) ∧
      (h.save Sink.writer (sink 31)).2.taken = manifest.take 31 := by
  intro h manifest sink
  have shown : Text.utf8 (Manifest.text h.name h.signature) = manifest := by cbv
  have length : manifest.length = 32 := by
    show (Text.utf8 "function f\nparameter 0 x u8 [2]\n").length = 32
    decide +kernel
  have wide : (sink 32).left = some 32 := rfl
  have narrow : (sink 31).left = some 31 := rfl
  obtain ⟨-, enough, all, -⟩ := h.save_limited Sink.limited wide
  obtain ⟨-, -, -, short⟩ := h.save_limited Sink.limited narrow
  rw [shown] at enough all short
  exact ⟨⟨enough.mpr (Nat.le_of_eq length), all (Nat.le_of_eq length)⟩,
    short (Nat.lt_of_lt_of_eq (Nat.lt_succ_self 31) length.symm)⟩

end Host

end TensorCall
