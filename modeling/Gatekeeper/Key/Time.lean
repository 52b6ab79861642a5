import Gatekeeper.Text.Ascii

/-!
# Times

A time of the calendar in digits, in one of two written forms: with the last two
digits of the year, or with all four and a fraction of the second.  Both end in
`Z`.
-/

namespace Gatekeeper
namespace Time

/-!
# The calendar
-/

def isLeap (year : Nat) : Bool :=
  year % 4 = 0 && (year % 100 ≠ 0 || year % 400 = 0)

def daysIn (year month : Nat) : Nat :=
  if month = 2 then if isLeap year then 29 else 28
  else if month ∈ [4, 6, 9, 11] then 30
  else 31

structure Moment where
  year : Nat
  month : Nat
  day : Nat
  hour : Nat
  minute : Nat
  second : Nat

def Moment.isValid (moment : Moment) : Bool :=
  1 ≤ moment.month && moment.month ≤ 12
    && 1 ≤ moment.day && moment.day ≤ daysIn moment.year moment.month
    && moment.hour < 24 && moment.minute < 60 && moment.second < 60

/-!
# Written forms
-/

def number (digits : List UInt8) : Nat :=
  digits.foldl (fun n d => n * 10 + Ascii.digitValue d) 0

def Moment.ofDigits (digits : List UInt8) : Moment :=
  let part (start size : Nat) : Nat := number ((digits.drop start).take size)
  ⟨part 0 4, part 4 2, part 6 2, part 8 2, part 10 2, part 12 2⟩

def isMoment (digits : List UInt8) : Bool :=
  digits.length = 14 && digits.all Ascii.isDigit && (Moment.ofDigits digits).isValid

def isZulu (b : UInt8) : Bool :=
  b = 0x5A

def isPoint (b : UInt8) : Bool :=
  b = 0x2E

/-- The digits of the century for the last two digits of a year: from the fifties on it is the
twentieth. -/
def century (year : List UInt8) : List UInt8 :=
  if number year < 50 then [0x32, 0x30] else [0x31, 0x39]

def isShort (body : List UInt8) : Bool :=
  body.length = 13 && body.getLast?.any isZulu
    && isMoment (century (body.take 2) ++ body.take 12)

def dropSign : List UInt8 → List UInt8
  | [] => []
  | b :: rest => if b = 0x2B || b = 0x2D then rest else b :: rest

def isFraction (bytes : List UInt8) : Bool :=
  bytes.getLast?.any isZulu && bytes.dropLast.all Ascii.isDigit

/-- Without a point the digits after the fourteenth are the fraction.  Only with a point may the
year have a sign. -/
def isGeneral (body : List UInt8) : Bool :=
  if body.any isPoint then
    let digits := dropSign body
    isMoment (digits.take 14) && (digits.drop 14).head?.any isPoint && isFraction (digits.drop 15)
  else isMoment (body.take 14) && isFraction (body.drop 14)

end Time
end Gatekeeper
