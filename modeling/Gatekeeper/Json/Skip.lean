import Gatekeeper.Json.Numeral

/-!
# Passing over values

A value that nobody asked for is checked for its form and otherwise not looked
at: its strings are not decoded, its numbers have no range, and its containers
may nest to any depth.  The containers that are open form a stack.
-/

namespace Gatekeeper
namespace Json
namespace Skip

open Reader

inductive Frame where
  | list
  | object
deriving DecidableEq, Repr

namespace Frame

def closer : Frame → UInt8
  | .list => 0x5D
  | .object => 0x7D

def ended : Frame → Fault
  | .list => .endInList
  | .object => .endInObject

def unseparated : Frame → Fault
  | .list => .expectedListEnd
  | .object => .expectedObjectEnd

end Frame

def entry : Frame → Reader Unit
  | .list => pure ()
  | .object => do
    match ← next with
    | none => fail .endInObject
    | some b =>
      if b = 0x22 then
        advance 1
        skipString
        colon
      else fail .keyNotString

/-- Closes containers as far as they end here.  What is left open, with another value to come in
the innermost of them, or nothing when the outermost value is complete. -/
def unwind : (fresh : Bool) → List Frame → Reader (Option (List Frame))
  | _, [] => pure none
  | fresh, frame :: frames => do
    match ← next with
    | none => fail frame.ended
    | some b =>
      if !fresh && b = 0x2C then
        advance 1
        entry frame
        pure (some (frame :: frames))
      else if b = frame.closer then
        advance 1
        unwind false frames
      else if fresh then
        entry frame
        pure (some (frame :: frames))
      else fail frame.unseparated

def opening : Reader (Option Frame) := do
  match ← next with
  | none => fail .endInValue
  | some b =>
    if b = 0x6E then
      advance 1
      nullTail
      pure none
    else if b = 0x74 then
      advance 1
      trueTail
      pure none
    else if b = 0x66 then
      advance 1
      falseTail
      pure none
    else if b = 0x2D then
      advance 1
      Numeral.skip
      pure none
    else if Ascii.isDigit b then
      Numeral.skip
      pure none
    else if b = 0x22 then
      advance 1
      skipString
      pure none
    else if b = 0x5B then
      advance 1
      pure (some .list)
    else if b = 0x7B then
      advance 1
      pure (some .object)
    else fail .expectedValue

/-- Each round takes at least one byte, so the length of the input bounds their number. -/
def rounds : (bound : Nat) → List Frame → Reader Unit
  | 0, _ => fail .endInValue
  | bound + 1, frames => do
    let left ← match ← opening with
      | none => unwind false frames
      | some frame => unwind true (frame :: frames)
    match left with
    | none => pure ()
    | some frames => rounds bound frames

end Skip

def Reader.skip : Reader Unit := fun input =>
  Skip.rounds (input.length + 1) [] input

end Json
end Gatekeeper
