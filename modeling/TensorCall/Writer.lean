import TensorCall.Text

namespace TensorCall

/-- A place for bytes. One write tells how many of the bytes it took from the front, or
why it took none. -/
structure Writer (ω : Type) where
  write : ω → List UInt8 → Except String Nat × ω

namespace Writer

variable {ω : Type}

/-- Offers the rest again until all of it is taken. To take nothing of a rest that is not
empty is an error. -/
def writeAll (w : Writer ω) (state : ω) : List UInt8 → Except String Unit × ω
  | [] => (.ok (), state)
  | b :: rest =>
    match w.write state (b :: rest) with
    | (.error text, state) => (.error text, state)
    | (.ok 0, state) => (.error "failed to write whole buffer", state)
    | (.ok (taken + 1), state) => writeAll w state (rest.drop taken)
termination_by bytes => bytes.length
decreasing_by
  rw [List.length_drop, List.length_cons]
  omega

def writePieces (w : Writer ω) (state : ω) : List String → Except String Unit × ω
  | [] => (.ok (), state)
  | piece :: pieces =>
    match w.writeAll state (Text.utf8 piece) with
    | (.ok _, state) => writePieces w state pieces
    | (.error text, state) => (.error text, state)

end Writer

/-- A writer with room for so many bytes in all. When it is full it fails with its text,
or takes nothing if it has none. -/
structure Sink where
  limit : Option Nat
  whenFull : Option String
  taken : List UInt8

namespace Sink

def room (s : Sink) (offered : Nat) : Nat :=
  s.limit.elim offered fun limit => min offered (limit - s.taken.length)

def writer : Writer Sink where
  write s bytes :=
    let n := s.room bytes.length
    match n, s.whenFull with
    | 0, some text => (.error text, s)
    | n, _ => (.ok n, { s with taken := s.taken ++ bytes.take n })

end Sink

end TensorCall
