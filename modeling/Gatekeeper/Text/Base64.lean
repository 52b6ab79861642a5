import Gatekeeper.Text.Ascii

/-!
# Base64

Bytes as text of sixty-four symbols, four symbols for three bytes.  Texts differ
in their last two symbols and in whether the last group is padded.  Decoding
accepts only what encoding writes, and says where another text departs from it.
-/

namespace Gatekeeper
namespace Base64

structure Alphabet where
  sixtyTwo : UInt8
  sixtyThree : UInt8
deriving DecidableEq, Repr

def standard : Alphabet := ⟨0x2B, 0x2F⟩

def urlSafe : Alphabet := ⟨0x2D, 0x5F⟩

def padByte : UInt8 := 0x3D

namespace Alphabet

def symbol (alphabet : Alphabet) (n : Nat) : UInt8 :=
  if n < 26 then UInt8.ofNat (0x41 + n)
  else if n < 52 then UInt8.ofNat (0x61 + (n - 26))
  else if n < 62 then UInt8.ofNat (0x30 + (n - 52))
  else if n = 62 then alphabet.sixtyTwo
  else alphabet.sixtyThree

def value? (alphabet : Alphabet) (b : UInt8) : Option Nat :=
  if 0x41 ≤ b && b ≤ 0x5A then some (b.toNat - 0x41)
  else if 0x61 ≤ b && b ≤ 0x7A then some (b.toNat - 0x61 + 26)
  else if 0x30 ≤ b && b ≤ 0x39 then some (b.toNat - 0x30 + 52)
  else if b = alphabet.sixtyTwo then some 62
  else if b = alphabet.sixtyThree then some 63
  else none

end Alphabet

/-!
# Encoding
-/

def encode (alphabet : Alphabet) : List UInt8 → List UInt8
  | [] => []
  | [a] =>
    [alphabet.symbol (a.toNat / 4), alphabet.symbol (a.toNat % 4 * 16)]
  | [a, b] =>
    [alphabet.symbol (a.toNat / 4), alphabet.symbol (a.toNat % 4 * 16 + b.toNat / 16),
      alphabet.symbol (b.toNat % 16 * 4)]
  | a :: b :: c :: rest =>
    alphabet.symbol (a.toNat / 4) :: alphabet.symbol (a.toNat % 4 * 16 + b.toNat / 16) ::
      alphabet.symbol (b.toNat % 16 * 4 + c.toNat / 64) :: alphabet.symbol (c.toNat % 64) ::
      encode alphabet rest

def asText (symbols : List UInt8) : String :=
  String.ofList (symbols.map fun b => Char.ofNat b.toNat)

def encodeText (alphabet : Alphabet) (bytes : List UInt8) : String :=
  asText (encode alphabet bytes)

/-!
# Decoding
-/

inductive Fault where
  | symbol (byte : UInt8) (offset : Nat)
  | lastSymbol (byte : UInt8) (offset : Nat)
  | length (n : Nat)
  | padding
deriving DecidableEq, Repr

def Fault.message : Fault → String
  | .symbol byte offset =>
    "Invalid symbol " ++ toString byte.toNat ++ ", offset " ++ toString offset ++ "."
  | .lastSymbol byte offset =>
    "Invalid last symbol " ++ toString byte.toNat ++ ", offset " ++ toString offset ++ "."
  | .length n => "Invalid input length: " ++ toString n
  | .padding => "Invalid padding"

inductive Padding where
  | none
  | full
deriving DecidableEq, Repr

def values (alphabet : Alphabet) (offset : Nat) : List UInt8 → Except Fault (List Nat)
  | [] => .ok []
  | b :: rest =>
    match alphabet.value? b with
    | .none => .error (.symbol b offset)
    | some v =>
      match values alphabet (offset + 1) rest with
      | .ok vs => .ok (v :: vs)
      | .error fault => .error fault

def pack : List Nat → List UInt8
  | a :: b :: c :: d :: rest =>
    UInt8.ofNat (a * 4 + b / 16) :: UInt8.ofNat (b % 16 * 16 + c / 4) ::
      UInt8.ofNat (c % 4 * 64 + d) :: pack rest
  | [a, b, c] => [UInt8.ofNat (a * 4 + b / 16), UInt8.ofNat (b % 16 * 16 + c / 4)]
  | [a, b] => [UInt8.ofNat (a * 4 + b / 16)]
  | _ => []

def spareBits : List Nat → Nat
  | [_, b] => b % 16
  | [_, _, c] => c % 4
  | _ => 0

/-- The symbols of the last group before its padding.  Padding may only end the group, and only
after two symbols. -/
def lastSymbols (offset : Nat) (group : List UInt8) : Except Fault (List UInt8 × Nat) :=
  let symbols := group.takeWhile (· ≠ padByte)
  let pads := group.dropWhile (· ≠ padByte)
  if pads = [] then .ok (symbols, 0)
  else if symbols.length < 2 then .error (.symbol padByte (offset + symbols.length))
  else if pads.all (· = padByte) then .ok (symbols, pads.length)
  else .error (.symbol padByte (offset + symbols.length))

def decodeLast (alphabet : Alphabet) (padding : Padding) (offset : Nat) (group : List UInt8) :
    Except Fault (List UInt8) := do
  if group = [] then return []
  let front ← values alphabet offset (group.takeWhile (· ≠ padByte))
  let (symbols, pads) ← lastSymbols offset group
  if symbols.length < 2 then .error (.length (offset + symbols.length))
  let wellPadded : Bool :=
    match padding with
    | .none => pads = 0
    | .full => (symbols.length + pads) % 4 = 0
  if !wellPadded then .error .padding
  if spareBits front ≠ 0 then
    .error (.lastSymbol (symbols.getLastD 0) (offset + symbols.length - 1))
  return pack front

def lastSize (length : Nat) : Nat :=
  if length % 4 = 0 then min 4 length else length % 4

/-- A single byte after the last whole group is looked at before anything else. -/
def strayEnd (alphabet : Alphabet) (input : List UInt8) : Except Fault Unit :=
  match input.getLast? with
  | some b =>
    if input.length % 4 = 1 ∧ b ≠ padByte ∧ (alphabet.value? b).isNone then
      .error (.symbol b (input.length - 1))
    else .ok ()
  | .none => .ok ()

def decode (alphabet : Alphabet) (padding : Padding) (input : List UInt8) :
    Except Fault (List UInt8) := do
  strayEnd alphabet input
  let size := input.length - lastSize input.length
  let front ← values alphabet 0 (input.take size)
  let last ← decodeLast alphabet padding size (input.drop size)
  return pack front ++ last

end Base64
end Gatekeeper
