import Gatekeeper.Json.Reader

/-!
# Numerals

The significand of a numeral is kept in 64 bits.  Digits that do not fit are
dropped: before the point each of them raises the exponent by one, after the
point they do not count.  The value is the significand, scaled by its power of
ten in one multiplication or division.
-/

namespace Gatekeeper
namespace Json
namespace Numeral

def mostSignificand : Nat := 0xffffffffffffffff

def mostExponent : Nat := 0x7fffffff

/-- Takes digits onto `n` while it stays within `most`: the number, and how many were taken. -/
def absorb (most : Nat) : (n count : Nat) → List UInt8 → Nat × Nat
  | n, count, [] => (n, count)
  | n, count, d :: digits =>
    let m := n * 10 + Ascii.digitValue d
    if most < m then (n, count) else absorb most m (count + 1) digits

structure Parts where
  significand : Nat
  exponent : Int

/-!
# Scaling
-/

def tenPower (n : Nat) : Float :=
  Float.ofScientific 1 false n

def mostPower : Nat := 308

def divideByPower : (steps : Nat) → Float → Nat → Float
  | 0, x, _ => x
  | steps + 1, x, n =>
    if n ≤ mostPower then x / tenPower n
    else if x == 0 then x
    else divideByPower steps (x / tenPower mostPower) (n - mostPower)

/-- The floating-point number of a numeral, if there is one of that size.  Two divisions by the
greatest power leave nothing of any significand. -/
def Parts.toFloat? (parts : Parts) : Option Float :=
  let x := (UInt64.ofNat parts.significand).toFloat
  if 0 ≤ parts.exponent then
    let n := parts.exponent.toNat
    if n ≤ mostPower then
      let y := x * tenPower n
      if y.isInf then none else some y
    else if parts.significand = 0 then some x
    else none
  else some (divideByPower 4 x parts.exponent.natAbs)

def signed (negative : Bool) (x : Float) : Number :=
  .float (.ofFloat (if negative then -x else x))

def Parts.number? (negative : Bool) (parts : Parts) : Option Number :=
  parts.toFloat?.map (signed negative)

/-- A numeral of digits only.  Negative zero and what 64 bits do not hold are floating-point. -/
def ofDigits (negative : Bool) (significand : Nat) : Number :=
  if !negative then .integer significand
  else if significand = 0 ∨ 0x8000000000000000 < significand then
    signed true (UInt64.ofNat significand).toFloat
  else .integer (-(significand : Int))

/-!
# Reading
-/

open Reader

def digits (input : List UInt8) : List UInt8 × List UInt8 :=
  (input.takeWhile Ascii.isDigit, input.dropWhile Ascii.isDigit)

def isExponentMark (b : UInt8) : Bool :=
  b = 0x65 || b = 0x45

def result (negative : Bool) (parts : Parts) : Reader Number :=
  match parts.number? negative with
  | some n => pure n
  | none => fail .numberOutOfRange

def exponentSign : List UInt8 → Bool × List UInt8
  | [] => (false, [])
  | b :: rest =>
    if b = 0x2B then (false, rest)
    else if b = 0x2D then (true, rest)
    else (false, b :: rest)

def exponent (negative : Bool) (parts : Parts) : Reader Number := fun input =>
  match exponentSign input with
  | (_, []) => .error (.here .endInValue) []
  | (below, b :: rest) =>
    if Ascii.isDigit b then
      let (run, after) := digits (b :: rest)
      let (n, count) := absorb mostExponent 0 0 run
      if count < run.length then
        if parts.significand ≠ 0 ∧ !below then
          .error (.here .numberOutOfRange) (run.drop (count + 1) ++ after)
        else .ok (signed negative 0) after
      else
        let e := if below then parts.exponent - n else parts.exponent + n
        result negative { parts with exponent := e } after
    else .error (.here .invalidNumber) rest

def exponentOrEnd (negative : Bool) (parts : Parts) : Reader Number := fun input =>
  match input with
  | [] => result negative parts []
  | b :: rest =>
    if isExponentMark b then exponent negative parts rest
    else result negative parts (b :: rest)

def fraction (negative : Bool) (parts : Parts) : Reader Number := fun input =>
  let (run, after) := digits input
  if run.isEmpty then
    match after with
    | [] => .error (.here .endInValue) []
    | _ :: _ => .error (.here .invalidNumber) after
  else
    let (significand, count) := absorb mostSignificand parts.significand 0 run
    exponentOrEnd negative ⟨significand, parts.exponent - count⟩ after

def afterWhole (negative : Bool) (significand dropped : Nat) : Reader Number := fun input =>
  let parts : Parts := ⟨significand, dropped⟩
  match input with
  | [] =>
    if dropped = 0 then .ok (ofDigits negative significand) [] else result negative parts []
  | b :: rest =>
    if b = 0x2E then fraction negative parts rest
    else if isExponentMark b then exponent negative parts rest
    else if dropped = 0 then .ok (ofDigits negative significand) (b :: rest)
    else result negative parts (b :: rest)

def read (negative : Bool) : Reader Number := fun input =>
  match input with
  | [] => .error (.here .endInValue) []
  | b :: rest =>
    if b = 0x30 then
      if rest.head?.any Ascii.isDigit then .error (.here .invalidNumber) rest
      else afterWhole negative 0 0 rest
    else if Ascii.isDigit b then
      let (run, after) := digits (b :: rest)
      let (significand, count) := absorb mostSignificand 0 0 run
      afterWhole negative significand (run.length - count) after
    else .error (.here .invalidNumber) rest

/-!
# Passing over

A numeral that is passed over is checked for its form only, and an end of the
input inside it counts as a malformed numeral.
-/

def skipExponent (input : List UInt8) : EStateM.Result Failure (List UInt8) Unit :=
  match exponentSign input with
  | (_, []) => .error (.here .invalidNumber) []
  | (_, b :: rest) =>
    if Ascii.isDigit b then .ok () (rest.dropWhile Ascii.isDigit)
    else .error (.here .invalidNumber) rest

def skipExponentOrEnd : Reader Unit
  | [] => .ok () []
  | b :: rest => if isExponentMark b then skipExponent rest else .ok () (b :: rest)

def skipFraction : Reader Unit := fun input =>
  let (run, after) := digits input
  if run.isEmpty then .error (.here .invalidNumber) after else skipExponentOrEnd after

def skipAfterWhole : Reader Unit
  | [] => .ok () []
  | b :: rest => if b = 0x2E then skipFraction rest else skipExponentOrEnd (b :: rest)

def skip : Reader Unit
  | [] => .error (.here .invalidNumber) []
  | b :: rest =>
    if b = 0x30 then
      if rest.head?.any Ascii.isDigit then .error (.here .invalidNumber) rest
      else skipAfterWhole rest
    else if Ascii.isDigit b then skipAfterWhole (rest.dropWhile Ascii.isDigit)
    else .error (.here .invalidNumber) rest

end Numeral
end Json
end Gatekeeper
