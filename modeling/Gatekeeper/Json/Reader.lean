import Gatekeeper.Json.Fault
import Gatekeeper.Text.Ascii
import Gatekeeper.Text.Utf8

/-!
# Reading documents

A reader takes bytes from the front of its input and keeps its place also when
it fails, so that a reading that tolerates a failure goes on from there.  This
module has the moves that all readers share, and the tokens other than numbers.
-/

namespace Gatekeeper
namespace Json

abbrev Reader : Type → Type :=
  EStateM Failure (List UInt8)

namespace Reader

def fail (fault : Fault) : Reader α := fun input =>
  .error (.here fault) input

def within (step : Step) (reader : Reader α) : Reader α := fun input =>
  match reader input with
  | .ok a rest => .ok a rest
  | .error failure rest => .error (failure.within step) rest

def advance (n : Nat) : Reader Unit := fun input =>
  .ok () (input.drop n)

def next : Reader (Option UInt8) := fun input =>
  let rest := input.dropWhile Ascii.isBlank
  .ok rest.head? rest

/-- Runs `closing` after `body` whatever `body` does; the first failure is the one reported. -/
def enclosed (body : Reader α) (closing : Reader Unit) : Reader α := fun input =>
  match body input with
  | .ok a rest =>
    match closing rest with
    | .ok _ rest => .ok a rest
    | .error failure rest => .error failure rest
  | .error failure rest =>
    match closing rest with
    | .ok _ rest => .error failure rest
    | .error _ rest => .error failure rest

/-- The outcome of reading the front of a byte string. -/
def outcome (reader : Reader α) (input : List UInt8) : Except Failure α :=
  match reader input with
  | .ok a _ => .ok a
  | .error failure _ => .error failure

def finished : Reader Unit := do
  match ← next with
  | none => pure ()
  | some _ => fail .trailingCharacters

def whole (reader : Reader α) : Reader α := do
  let a ← reader
  finished
  pure a

/-!
# Words
-/

def word : List UInt8 → Reader Unit
  | [] => pure ()
  | expected :: letters => fun input =>
    match input with
    | [] => .error (.here .endInValue) []
    | b :: rest =>
      if b = expected then word letters rest else .error (.here .expectedIdent) rest

def nullTail : Reader Unit :=
  word [0x75, 0x6C, 0x6C]

def trueTail : Reader Unit :=
  word [0x72, 0x75, 0x65]

def falseTail : Reader Unit :=
  word [0x61, 0x6C, 0x73, 0x65]

/-!
# Strings

An escape is read from the bytes after its backslash.  It yields the bytes it
stands for, and the number of bytes it takes, also when it fails.
-/

structure Escape where
  result : Except Fault (List UInt8)
  size : Nat

def simpleEscape? (b : UInt8) : Option UInt8 :=
  if b = 0x22 || b = 0x5C || b = 0x2F then some b
  else if b = 0x62 then some 0x08
  else if b = 0x66 then some 0x0C
  else if b = 0x6E then some 0x0A
  else if b = 0x72 then some 0x0D
  else if b = 0x74 then some 0x09
  else none

def codeUnit? (a b c d : UInt8) : Option Nat := do
  let a ← Ascii.hexValue? a
  let b ← Ascii.hexValue? b
  let c ← Ascii.hexValue? c
  let d ← Ascii.hexValue? d
  pure (((a * 16 + b) * 16 + c) * 16 + d)

def hexUnit : List UInt8 → Except Fault Nat × Nat
  | a :: b :: c :: d :: _ =>
    match codeUnit? a b c d with
    | some unit => (.ok unit, 4)
    | none => (.error .invalidEscape, 4)
  | input => (.error .endInString, input.length)

def isHighSurrogate (unit : Nat) : Bool :=
  0xD800 ≤ unit && unit ≤ 0xDBFF

def isLowSurrogate (unit : Nat) : Bool :=
  0xDC00 ≤ unit && unit ≤ 0xDFFF

def encodeCode (code : Nat) : List UInt8 :=
  String.utf8EncodeChar (Char.ofNat code)

def pairedCode (high low : Nat) : Nat :=
  0x10000 + (high - 0xD800) * 0x400 + (low - 0xDC00)

def lowEscape (high : Nat) : List UInt8 → Escape
  | [] => ⟨.error .endInString, 0⟩
  | [b] => if b = 0x5C then ⟨.error .endInString, 1⟩ else ⟨.error .unpairedSurrogate, 1⟩
  | b :: c :: rest =>
    if b ≠ 0x5C then ⟨.error .unpairedSurrogate, 1⟩
    else if c ≠ 0x75 then ⟨.error .unpairedSurrogate, 2⟩
    else
      match hexUnit rest with
      | (.error fault, size) => ⟨.error fault, size + 2⟩
      | (.ok low, size) =>
        if isLowSurrogate low then ⟨.ok (encodeCode (pairedCode high low)), size + 2⟩
        else ⟨.error .loneSurrogate, size + 2⟩

def unitEscape (input : List UInt8) : Escape :=
  match hexUnit input with
  | (.error fault, size) => ⟨.error fault, size⟩
  | (.ok unit, size) =>
    if isLowSurrogate unit then ⟨.error .loneSurrogate, size⟩
    else if isHighSurrogate unit then
      let low := lowEscape unit (input.drop size)
      ⟨low.result, size + low.size⟩
    else ⟨.ok (encodeCode unit), size⟩

def escape : List UInt8 → Escape
  | [] => ⟨.error .endInString, 0⟩
  | b :: rest =>
    if b = 0x75 then
      let unit := unitEscape rest
      ⟨unit.result, unit.size + 1⟩
    else
      match simpleEscape? b with
      | some c => ⟨.ok [c], 1⟩
      | none => ⟨.error .invalidEscape, 1⟩

/-- The bytes of a string up to its closing quote; those already read stand in `done`, the last
one first. -/
def stringBytes (done : List UInt8) : Reader (List UInt8)
  | [] => .error (.here .endInString) []
  | b :: rest =>
    if b = 0x22 then .ok done.reverse rest
    else if b = 0x5C then
      let e := escape rest
      match e.result with
      | .ok bytes => stringBytes (bytes.reverse ++ done) (rest.drop e.size)
      | .error fault => .error (.here fault) (rest.drop e.size)
    else if b < 0x20 then .error (.here .controlCharacter) rest
    else stringBytes (b :: done) rest
termination_by input => input.length
decreasing_by all_goals (simp only [List.length_drop, List.length_cons]; omega)

def stringTail : Reader String := do
  let bytes ← stringBytes []
  match Utf8.decode? bytes with
  | some s => pure s
  | none => fail .invalidText

/-- Passes over a string whose opening quote is read.  Escapes are checked for their form only. -/
def skipString : Reader Unit
  | [] => .error (.here .endInString) []
  | b :: rest =>
    if b = 0x22 then .ok () rest
    else if b = 0x5C then
      match rest with
      | [] => .error (.here .endInString) []
      | c :: rest =>
        if c = 0x75 then
          match hexUnit rest with
          | (.ok _, size) => skipString (rest.drop size)
          | (.error fault, size) => .error (.here fault) (rest.drop size)
        else if (simpleEscape? c).isSome then skipString rest
        else .error (.here .invalidEscape) rest
    else if b < 0x20 then .error (.here .controlCharacter) (b :: rest)
    else skipString rest
termination_by input => input.length
decreasing_by all_goals (simp only [List.length_drop, List.length_cons]; omega)

/-!
# Containers
-/

def moreElements (isFirst : Bool) : Reader Bool := do
  match ← next with
  | none => fail .endInList
  | some b =>
    if b = 0x5D then pure false
    else if isFirst then pure true
    else if b = 0x2C then
      advance 1
      match ← next with
      | none => fail .endInValue
      | some c => if c = 0x5D then fail .trailingComma else pure true
    else fail .expectedListEnd

def moreMembers (isFirst : Bool) : Reader Bool := do
  match ← next with
  | none => fail .endInObject
  | some b =>
    if b = 0x7D then pure false
    else if isFirst then
      if b = 0x22 then pure true else fail .keyNotString
    else if b = 0x2C then
      advance 1
      match ← next with
      | none => fail .endInValue
      | some c =>
        if c = 0x22 then pure true
        else if c = 0x7D then fail .trailingComma
        else fail .keyNotString
    else fail .expectedObjectEnd

def nextKey (isFirst : Bool) : Reader (Option String) :=
  within .unnamed do
    if ← moreMembers isFirst then
      advance 1
      let key ← stringTail
      pure (some key)
    else pure none

def colon : Reader Unit := do
  match ← next with
  | none => fail .endInObject
  | some b => if b = 0x3A then advance 1 else fail .expectedColon

def closeList : Reader Unit := do
  match ← next with
  | none => fail .endInList
  | some b =>
    if b = 0x5D then advance 1
    else if b = 0x2C then
      advance 1
      match ← next with
      | some 0x5D => fail .trailingComma
      | _ => fail .trailingCharacters
    else fail .trailingCharacters

def closeObject : Reader Unit := do
  match ← next with
  | none => fail .endInObject
  | some b =>
    if b = 0x7D then advance 1
    else if b = 0x2C then fail .trailingComma
    else fail .trailingCharacters

/-- The elements of a list whose bracket is read, each read for its position.  An element takes
at least one byte, so the length of the input bounds their number. -/
def elementsFrom (element : Nat → Reader α) (i : Nat) : (bound : Nat) → Reader (List α)
  | 0 => fail .endInList
  | bound + 1 => do
    if ← moreElements (i = 0) then
      let a ← within (.index i) (element i)
      let rest ← elementsFrom element (i + 1) bound
      pure (a :: rest)
    else pure []

def elements (element : Nat → Reader α) : Reader (List α) := fun input =>
  elementsFrom element 0 (input.length + 1) input

def membersFrom (member : σ → String → Reader σ) (state : σ) (isFirst : Bool) :
    (bound : Nat) → Reader σ
  | 0 => fail .endInObject
  | bound + 1 => do
    match ← nextKey isFirst with
    | none => pure state
    | some key =>
      let state ← member state key
      membersFrom member state false bound

def members (member : σ → String → Reader σ) (state : σ) : Reader σ := fun input =>
  membersFrom member state true (input.length + 1) input

def memberValue (key : String) (value : Reader α) : Reader α := do
  colon
  within (.key key) value

end Reader
end Json
end Gatekeeper
