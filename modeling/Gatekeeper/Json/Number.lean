import Gatekeeper.Decimal.Shortest

/-!
# Numbers of a document

A number is a whole number of 64 bits, with or without sign, or a
floating-point number.
-/

namespace Gatekeeper
namespace Json

inductive Number where
  | integer (n : Int)
  | float (x : Binary64)
deriving DecidableEq, Repr

namespace Number

def leastInt64 : Int := -0x8000000000000000

def mostInt64 : Int := 0x7fffffffffffffff

def mostUInt64 : Int := 0xffffffffffffffff

def isZero : Number → Bool
  | .integer n => n = 0
  | .float x => x.isZero

/-!
# Text
-/

/-- Places are written out from the fifth after the point to the sixteenth before it. -/
def layout : Decimal.Layout := ⟨-5, 15⟩

def integerChars (n : Int) : List Char :=
  if n < 0 then '-' :: Nat.toDigits 10 n.natAbs else Nat.toDigits 10 n.natAbs

def floatChars (x : Binary64) : List Char :=
  let text := layout.write (Decimal.shortest x)
  if x.isNegative then '-' :: text else text

def chars : Number → List Char
  | .integer n => integerChars n
  | .float x => floatChars x

def text (n : Number) : String :=
  String.ofList n.chars

end Number
end Json
end Gatekeeper
