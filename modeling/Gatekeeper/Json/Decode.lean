import Gatekeeper.Json.Object
import Gatekeeper.Json.Skip

/-!
# Typed reading

Readers for values of a wanted type.  A value of another type is read as far as
it must be to name it.  Containers nest to a fixed depth.
-/

namespace Gatekeeper
namespace Json
namespace Reader

def depthLimit : Nat := 127

/-- Reads a scalar whose first byte is next; nothing where no scalar starts. -/
def scalar (b : UInt8) : Reader (Option Found) :=
  if b = 0x6E then do
    advance 1
    nullTail
    pure (some .null)
  else if b = 0x74 then do
    advance 1
    trueTail
    pure (some (.bool true))
  else if b = 0x66 then do
    advance 1
    falseTail
    pure (some (.bool false))
  else if b = 0x2D then do
    advance 1
    let n ← Numeral.read true
    pure (some (.number n))
  else if Ascii.isDigit b then do
    let n ← Numeral.read false
    pure (some (.number n))
  else if b = 0x22 then do
    advance 1
    let s ← stringTail
    pure (some (.string s))
  else pure none

def mismatch (expected : String) (b : UInt8) : Reader α := do
  match ← scalar b with
  | some found => fail (.wrongType found expected)
  | none =>
    if b = 0x5B then fail (.wrongType .sequence expected)
    else if b = 0x7B then fail (.wrongType .map expected)
    else fail .expectedValue

def onValue (read : UInt8 → Reader α) : Reader α := do
  match ← next with
  | none => fail .endInValue
  | some b => read b

/-!
# Scalars
-/

def string : Reader String :=
  onValue fun b =>
    if b = 0x22 then do
      advance 1
      stringTail
    else mismatch "a string" b

def number (expected : String) : Reader Number :=
  onValue fun b =>
    if b = 0x2D then do
      advance 1
      Numeral.read true
    else if Ascii.isDigit b then Numeral.read false
    else mismatch expected b

def integerWithin (least most : Int) (expected : String) : Reader Int := do
  match ← number expected with
  | .float x => fail (.wrongType (.number (.float x)) expected)
  | .integer n =>
    if least ≤ n ∧ n ≤ most then pure n else fail (.outOfRange n expected)

def int64 : Reader Int :=
  integerWithin Number.leastInt64 Number.mostInt64 "i64"

def uint64 : Reader Nat :=
  Int.toNat <$> integerWithin 0 Number.mostUInt64 "u64"

def optional (reader : Reader α) : Reader (Option α) := do
  match ← next with
  | some 0x6E =>
    advance 1
    nullTail
    pure none
  | _ => some <$> reader

/-!
# Containers
-/

def listBody (element : Reader α) : Reader (List α) := do
  advance 1
  enclosed (elements fun _ => element) closeList

def objectBody (value : Reader Value) : Reader Object := do
  advance 1
  enclosed
    (members (fun o key => do
      let v ← memberValue key value
      pure (o.insert key v)) Object.empty)
    closeObject

def foundValue : Found → Value
  | .null => .null
  | .bool b => .bool b
  | .number n => .number n
  | .string s => .string s
  | .sequence => .array []
  | .map => .object []

def valueOf (list : Reader (List Value)) (object : Reader Object) : Reader Value :=
  onValue fun b => do
    match ← scalar b with
    | some found => pure (foundValue found)
    | none =>
      if b = 0x5B then Value.array <$> list
      else if b = 0x7B then (fun o => Value.object o.members) <$> object
      else fail .expectedValue

/-- Any value, with at most `depth` containers inside each other. -/
def value : (depth : Nat) → Reader Value
  | 0 => valueOf (fail .tooDeep) (fail .tooDeep)
  | depth + 1 => valueOf (listBody (value depth)) (objectBody (value depth))

def descend (depth : Nat) (body : Nat → Reader α) : Reader α :=
  match depth with
  | 0 => fail .tooDeep
  | depth + 1 => body depth

def object (depth : Nat) : Reader Object :=
  onValue fun b =>
    if b = 0x7B then descend depth fun depth => objectBody (value depth)
    else mismatch "a map" b

def list (element : Nat → Reader α) (depth : Nat) : Reader (List α) :=
  onValue fun b =>
    if b = 0x5B then descend depth fun depth => listBody (element depth)
    else mismatch "a sequence" b

def strings (depth : Nat) : Reader (List String) :=
  list (fun _ => string) depth

end Reader

def Found.ofValue : Value → Found
  | .null => .null
  | .bool b => .bool b
  | .number n => .number n
  | .string s => .string s
  | .array _ => .sequence
  | .object _ => .map

def Value.parse (input : List UInt8) : Except Failure Value :=
  (Reader.whole (Reader.value Reader.depthLimit)).outcome input

end Json
end Gatekeeper
