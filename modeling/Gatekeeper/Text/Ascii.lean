/-!
# ASCII bytes

Classes and values of bytes as ASCII characters.
-/

namespace Gatekeeper
namespace Ascii

abbrev byte (c : Char) : UInt8 :=
  UInt8.ofNat c.toNat

def isBlank (b : UInt8) : Bool :=
  b = 0x20 || b = 0x09 || b = 0x0A || b = 0x0D

def isDigit (b : UInt8) : Bool :=
  0x30 ≤ b && b ≤ 0x39

def digitValue (b : UInt8) : Nat :=
  b.toNat - 0x30

def hexValue? (b : UInt8) : Option Nat :=
  if isDigit b then some (b.toNat - 0x30)
  else if 0x61 ≤ b && b ≤ 0x66 then some (b.toNat - 0x57)
  else if 0x41 ≤ b && b ≤ 0x46 then some (b.toNat - 0x37)
  else none

def isVisible (b : UInt8) : Bool :=
  b = 0x09 || (0x20 ≤ b && b ≤ 0x7E)

def lower (c : Char) : Char :=
  if 'A' ≤ c ∧ c ≤ 'Z' then Char.ofNat (c.toNat + 32) else c

def lowerText (s : String) : String :=
  String.ofList (s.toList.map lower)

end Ascii
end Gatekeeper
