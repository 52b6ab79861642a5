import Gatekeeper.Decimal.Binary64

/-!
# Shortest decimals

The decimal with the fewest digits that reads back as a given floating-point
number.  The reals that round to the number form an interval, which includes
its ends when the significand is even.  For each count of digits the two
neighbours of the number on that decimal grid are tried; the first grid with a
neighbour in the interval wins, and of two neighbours the nearer.
-/

namespace Gatekeeper
namespace Decimal

structure Digits where
  digits : Nat
  exponent : Int
deriving DecidableEq, Repr

structure Ratio where
  num : Nat
  den : Nat
deriving DecidableEq, Repr

def Ratio.scaled (n base : Nat) (e : Int) : Ratio :=
  if 0 ≤ e then ⟨n * base.pow e.toNat, 1⟩ else ⟨n, base.pow (-e).toNat⟩

def Ratio.le (a b : Ratio) : Bool :=
  a.num * b.den ≤ b.num * a.den

def Ratio.lt (a b : Ratio) : Bool :=
  a.num * b.den < b.num * a.den

def decimalLength (n : Nat) : Nat :=
  (Nat.toDigits 10 n).length

def Ratio.magnitude (r : Ratio) : Int :=
  if r.den ≤ r.num then (decimalLength (r.num / r.den) : Int) - 1
  else -(decimalLength ((r.den - 1) / r.num) : Int)

structure Interval where
  low : Ratio
  high : Ratio
  closed : Bool

/-- At a power of two the numbers below lie twice as dense as the ones above. -/
def interval (x : Binary64) : Interval :=
  let m := x.significand
  let below := if x.fraction = 0 ∧ 1 < x.biasedExponent then 1 else 2
  { low := .scaled (4 * m - below) 2 (x.exponent - 2)
    high := .scaled (4 * m + 2) 2 (x.exponent - 2)
    closed := m % 2 = 0 }

def Interval.holds (i : Interval) (r : Ratio) : Bool :=
  if i.closed then i.low.le r && r.le i.high else i.low.lt r && r.lt i.high

/-- The neighbour of `value` on the grid of `unit` that lies in the interval, the nearer of two. -/
def onGrid (i : Interval) (value : Ratio) (grid : Int) : Option Digits :=
  let unit := Ratio.scaled 1 10 grid
  let below := value.num * unit.den / (value.den * unit.num)
  let low := Ratio.scaled below 10 grid
  let high := Ratio.scaled (below + 1) 10 grid
  match i.holds low, i.holds high with
  | true, true =>
    let twice : Ratio := ⟨2 * value.num, value.den⟩
    let ends : Ratio := ⟨low.num * high.den + high.num * low.den, low.den * high.den⟩
    some ⟨if ends.lt twice || (!twice.lt ends && below % 2 = 1) then below + 1 else below, grid⟩
  | true, false => some ⟨below, grid⟩
  | false, true => some ⟨below + 1, grid⟩
  | false, false => none

def search (i : Interval) (value : Ratio) (magnitude : Int) : (count more : Nat) → Option Digits
  | _, 0 => none
  | count, more + 1 =>
    match onGrid i value (magnitude - count) with
    | some d => some d
    | none => search i value magnitude (count + 1) more

def trimZeros : (steps : Nat) → Digits → Digits
  | 0, d => d
  | steps + 1, d =>
    if d.digits ≠ 0 ∧ d.digits % 10 = 0 then trimZeros steps ⟨d.digits / 10, d.exponent + 1⟩ else d

/-- The shortest decimal of the size of a number; seventeen digits always suffice. -/
def shortest (x : Binary64) : Digits :=
  if x.significand = 0 then ⟨0, 0⟩
  else
    let value := Ratio.scaled x.significand 2 x.exponent
    match search (interval x) value value.magnitude 0 17 with
    | some d => trimZeros 20 d
    | none => ⟨x.significand, 0⟩

/-!
# Layout
-/

structure Layout where
  least : Int
  most : Int

def zeros (n : Nat) : List Char :=
  List.replicate n '0'

def writeExponent (e : Int) : List Char :=
  'e' :: (if e < 0 then '-' else '+') :: Nat.toDigits 10 e.natAbs

def Layout.write (layout : Layout) (d : Digits) : List Char :=
  let text := Nat.toDigits 10 d.digits
  let leading : Int := d.exponent + text.length - 1
  if d.digits = 0 then ['0', '.', '0']
  else if layout.least ≤ leading ∧ leading ≤ layout.most then
    if 0 ≤ d.exponent then text ++ zeros d.exponent.toNat ++ ['.', '0']
    else if 0 ≤ leading then
      text.take (leading.toNat + 1) ++ '.' :: text.drop (leading.toNat + 1)
    else ['0', '.'] ++ zeros (-leading - 1).toNat ++ text
  else
    text.take 1 ++ (if text.length = 1 then [] else '.' :: text.drop 1) ++ writeExponent leading

end Decimal
end Gatekeeper
