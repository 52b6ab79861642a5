import Gatekeeper.Url.Encoding

/-!
# Hosts

A host is a name or a numeric address.  A name whose last label is a number
must be an address in the first numeric form, which has one to four numbers in
three notations; the second numeric form stands between brackets.
-/

namespace Gatekeeper
namespace Url

inductive Fault where
  | emptyHost
  | invalidName
  | forbiddenCharacter
  | invalidPort
  | invalidNumeric4
  | invalidNumeric6
  | relative
deriving DecidableEq, Repr

def Fault.message : Fault → String
  | .emptyHost => "empty host"
  | .invalidName => "invalid international domain name"
  | .forbiddenCharacter => "invalid domain character"
  | .invalidPort => "invalid port number"
  | .invalidNumeric4 => "invalid IPv4 address"
  | .invalidNumeric6 => "invalid IPv6 address"
  | .relative => "relative URL without a base"

inductive Host where
  | name (cs : List Char)
  | numeric4 (n : Nat)
  | numeric6 (pieces : List Nat)
deriving DecidableEq, Repr

def isDigit (c : Char) : Bool :=
  '0' ≤ c && c ≤ '9'

def isLetter (c : Char) : Bool :=
  ('a' ≤ c && c ≤ 'z') || ('A' ≤ c && c ≤ 'Z')

def digit? (radix : Nat) (c : Char) : Option Nat := do
  let v ← if c.toNat < 0x80 then Ascii.hexValue? (Ascii.byte c) else none
  if v < radix then some v else none

def numberFrom (radix : Nat) : Nat → List Char → Option Nat
  | n, [] => some n
  | n, c :: rest => do
    let v ← digit? radix c
    numberFrom radix (n * radix + v) rest

/-!
# The first numeric form
-/

def notated? : List Char → Option Nat
  | [] => none
  | '0' :: 'x' :: rest => numberFrom 16 0 rest
  | '0' :: 'X' :: rest => numberFrom 16 0 rest
  | '0' :: c :: rest => numberFrom 8 0 (c :: rest)
  | cs => numberFrom 10 0 cs

def labels (cs : List Char) : List (List Char) :=
  let parts := splitBy (· = '.') cs
  if parts.getLast? = some [] then parts.dropLast else parts

def endsInNumber (cs : List Char) : Bool :=
  match (labels cs).getLast? with
  | none => false
  | some last => (last ≠ [] && last.all isDigit) || (notated? last).isSome

/-- All numbers but the last are one byte; the last one fills the bytes that are left. -/
def join4 (numbers : List Nat) : Option Nat :=
  match numbers.reverse with
  | [] => none
  | last :: before =>
    let room := 1 <<< (8 * (4 - before.length))
    if before.length ≤ 3 ∧ before.all (· < 256) ∧ last < room then
      some (before.reverse.foldl (fun n b => n * 256 + b) 0 * room + last)
    else none

def numeric4? (cs : List Char) : Option Nat := do
  let numbers ← (labels cs).mapM notated?
  join4 numbers

/-!
# The second numeric form
-/

def piece? (cs : List Char) : Option Nat :=
  if 1 ≤ cs.length ∧ cs.length ≤ 4 then numberFrom 16 0 cs else none

def plainByte? (cs : List Char) : Option Nat := do
  if cs = [] ∨ (1 < cs.length ∧ cs.head? = some '0') then none
  let n ← numberFrom 10 0 cs
  if n < 256 then some n else none

def dotted? (cs : List Char) : Option (List Nat) := do
  match splitBy (· = '.') cs with
  | [a, b, c, d] =>
    let a ← plainByte? a
    let b ← plainByte? b
    let c ← plainByte? c
    let d ← plainByte? d
    some [a * 256 + b, c * 256 + d]
  | _ => none

def pieces? (mayDot : Bool) : List (List Char) → Option (List Nat)
  | [] => some []
  | [last] =>
    if mayDot && last.contains '.' then dotted? last else (piece? last).map fun n => [n]
  | part :: rest => do
    let n ← piece? part
    let ns ← pieces? mayDot rest
    some (n :: ns)

def run? (mayDot : Bool) (cs : List Char) : Option (List Nat) :=
  if cs = [] then some [] else pieces? mayDot (splitBy (· = ':') cs)

def splitGap : List Char → Option (List Char × List Char)
  | ':' :: ':' :: rest => some ([], rest)
  | [] => none
  | c :: rest => (splitGap rest).map fun (before, after) => (c :: before, after)

def numeric6? (cs : List Char) : Option (List Nat) := do
  match splitGap cs with
  | none =>
    let pieces ← run? true cs
    if pieces.length = 8 then some pieces else none
  | some (before, after) =>
    let before ← run? false before
    let after ← run? true after
    let known := before.length + after.length
    if known ≤ 7 then some (before ++ List.replicate (8 - known) 0 ++ after) else none

/-!
# Reading hosts
-/

def isForbidden (c : Char) : Bool :=
  c.toNat ≤ 0x20 || c = '\x7f'
    || c ∈ ['#', '%', '/', ':', '<', '>', '?', '@', '[', '\\', ']', '^', '|']

/-- The mapping of international names to names in ASCII. -/
class International where
  toAscii : List UInt8 → Option (List Char)

def isEncoded (label : List Char) : Bool :=
  ['x', 'n', '-', '-'].isPrefixOf label

def isPlain (bytes : List UInt8) (cs : List Char) : Bool :=
  bytes.all (· < 0x80) && !(splitBy (· = '.') cs).any isEncoded

/-- A plain name in lower case; any other is mapped. -/
def name? [International] (bytes : List UInt8) : Option (List Char) :=
  let cs := bytes.map fun b => Ascii.lower (Char.ofNat b.toNat)
  if isPlain bytes cs then
    if cs.any isForbidden then none else some cs
  -- The two that are left to the mapping become other characters before a combining stroke.
  else if cs.any fun c => isForbidden c && c ∉ ['<', '>'] then none
  else International.toAscii bytes

def bracketed (cs : List Char) : Except Fault Host :=
  if cs.getLast? = some ']' then
    match numeric6? cs.dropLast with
    | some pieces => .ok (.numeric6 pieces)
    | none => .error .invalidNumeric6
  else .error .invalidNumeric6

namespace Host

def read [International] (cs : List Char) : Except Fault Host :=
  match cs with
  | '[' :: rest => bracketed rest
  | _ =>
    match name? (decodeBytes (Utf8.encodeChars cs)) with
    | none => .error .invalidName
    | some [] => .error .emptyHost
    | some cs =>
      if endsInNumber cs then
        match numeric4? cs with
        | some n => .ok (.numeric4 n)
        | none => .error .invalidNumeric4
      else .ok (.name cs)

def checkOpaque (cs : List Char) : Except Fault Unit :=
  match cs with
  | '[' :: rest => (bracketed rest).map fun _ => ()
  | _ =>
    if cs.any fun c => c ∈ ['\x00', '\t', '\n', '\r', ' ', '#', '/', ':', '<', '>', '?', '@', '[',
        '\\', ']', '^', '|'] then
      .error .forbiddenCharacter
    else .ok ()

/-!
# Writing hosts
-/

def decimal (n : Nat) : List Char :=
  Nat.toDigits 10 n

def zeroRuns : List Nat → List Nat
  | [] => []
  | n :: rest => (if n = 0 then (zeroRuns rest).headD 0 + 1 else 0) :: zeroRuns rest

def colonSeparated (pieces : List Nat) : List Char :=
  List.intercalate [':'] (pieces.map (Nat.toDigits 16))

/-- The first of the longest runs of at least two zeros becomes a gap. -/
def chars6 (pieces : List Nat) : List Char :=
  let runs := zeroRuns pieces
  let longest := runs.foldl max 0
  if longest < 2 then colonSeparated pieces
  else
    let start := runs.findIdx (· = longest)
    colonSeparated (pieces.take start) ++ [':', ':']
      ++ colonSeparated (pieces.drop (start + longest))

def chars : Host → List Char
  | .name cs => cs
  | .numeric4 n =>
    List.intercalate ['.']
      [decimal (n / 0x1000000), decimal (n / 0x10000 % 256), decimal (n / 256 % 256),
        decimal (n % 256)]
  | .numeric6 pieces => '[' :: chars6 pieces ++ [']']

end Host
end Url
end Gatekeeper
