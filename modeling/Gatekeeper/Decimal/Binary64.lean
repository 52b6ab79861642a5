/-!
# Binary64

The 64-bit patterns of floating-point numbers, read as exact values
`± significand · 2 ^ exponent`.
-/

namespace Gatekeeper

/-- A 64-bit floating-point number by its bit pattern. -/
structure Binary64 where
  bits : UInt64
deriving DecidableEq, Repr, Inhabited

namespace Binary64

def ofFloat (x : Float) : Binary64 := ⟨x.toBits⟩

def toFloat (x : Binary64) : Float := Float.ofBits x.bits

def hiddenBit : Nat := 0x10000000000000

def isNegative (x : Binary64) : Bool :=
  x.bits.toNat >>> 63 = 1

def biasedExponent (x : Binary64) : Nat :=
  (x.bits.toNat >>> 52) % 0x800

def fraction (x : Binary64) : Nat :=
  x.bits.toNat % hiddenBit

def isZero (x : Binary64) : Bool :=
  x.bits.toNat % 0x8000000000000000 = 0

def significand (x : Binary64) : Nat :=
  if x.biasedExponent = 0 then x.fraction else hiddenBit + x.fraction

def exponent (x : Binary64) : Int :=
  if x.biasedExponent = 0 then -1074 else (x.biasedExponent : Int) - 1075

end Binary64
end Gatekeeper
