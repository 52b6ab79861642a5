import Gatekeeper.Text.Ascii
import Gatekeeper.Text.Utf8

/-!
# Percent encoding

Characters that a part of an address may not hold are written by their bytes.
Each part has its own set of them; controls and characters beyond ASCII are in
every set.
-/

namespace Gatekeeper
namespace Url

abbrev CharSet := Char → Bool

namespace CharSet

def controls : CharSet := fun c =>
  c.toNat < 0x20 || 0x7F ≤ c.toNat

def fragment : CharSet := fun c =>
  controls c || c ∈ [' ', '"', '<', '>', '\x60']

def path : CharSet := fun c =>
  fragment c || c ∈ ['#', '?', '\x7b', '\x7d']

def userInfo : CharSet := fun c =>
  path c || c ∈ ['/', ':', ';', '=', '@', '[', '\\', ']', '^', '|']

def query : CharSet := fun c =>
  controls c || c ∈ [' ', '"', '#', '<', '>', '\'']

end CharSet

def upperHex (n : Nat) : Char :=
  if n < 10 then Char.ofNat (48 + n) else Char.ofNat (55 + n)

def encodeByte (b : UInt8) : List Char :=
  ['%', upperHex (b.toNat / 16), upperHex (b.toNat % 16)]

def encodeChar (set : CharSet) (c : Char) : List Char :=
  if set c then (String.utf8EncodeChar c).flatMap encodeByte else [c]

def encode (set : CharSet) (cs : List Char) : List Char :=
  cs.flatMap (encodeChar set)

def decodeBytes : List UInt8 → List UInt8
  | [] => []
  | [a] => [a]
  | [a, b] => [a, b]
  | a :: b :: c :: rest =>
    if a = 0x25 then
      match Ascii.hexValue? b, Ascii.hexValue? c with
      | some high, some low => UInt8.ofNat (high * 16 + low) :: decodeBytes rest
      | _, _ => a :: decodeBytes (b :: c :: rest)
    else a :: decodeBytes (b :: c :: rest)

/-- Splits at every character that satisfies `p`; there is always one more part than such
characters. -/
def splitBy (p : Char → Bool) : List Char → List (List Char)
  | [] => [[]]
  | c :: rest =>
    if p c then [] :: splitBy p rest
    else
      match splitBy p rest with
      | part :: parts => (c :: part) :: parts
      | [] => [[c]]

end Url
end Gatekeeper
