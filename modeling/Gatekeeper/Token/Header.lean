import Gatekeeper.Json.Record
import Gatekeeper.Token.Algorithm
import Gatekeeper.Token.Jwk

/-!
# Token headers

The header of a token names its algorithm.  Its other members are read for
their types only.
-/

namespace Gatekeeper
namespace Header

open Json Reader

def algorithmName : Reader Algorithm := do
  advance 1
  let name ← stringTail
  match Algorithm.ofName? name with
  | some algorithm => pure algorithm
  | none => fail (.unknownName name Algorithm.names)

def algorithmKey : Reader Algorithm := do
  match ← next with
  | none => fail .endInObject
  | some b =>
    if b = 0x22 then algorithmName
    else if b = 0x7D then fail .expectedValue
    else fail .keyNotString

def unit : Reader Unit :=
  onValue fun b =>
    if b = 0x6E then do
      advance 1
      nullTail
    else mismatch "unit" b

def closeName : Reader Unit := do
  match ← next with
  | none => fail .endInObject
  | some b => if b = 0x7D then advance 1 else fail .expectedValue

/-- An algorithm is its name, or an object with the name as its one key and null as the value. -/
def algorithm (depth : Nat) : Reader Algorithm :=
  onValue fun b =>
    if b = 0x7B then
      descend depth fun _ => do
        advance 1
        let algorithm ← algorithmKey
        colon
        unit
        closeName
        pure algorithm
    else if b = 0x22 then algorithmName
    else fail .expectedValue

def checked (name : String) (reader : Nat → Reader α) : Member (Option Algorithm) where
  name := name
  read := fun depth => do
    let _ ← optional (reader depth)
    pure id
  mayLack := true
  mayTrail := false

def text (name : String) : Member (Option Algorithm) :=
  checked name fun _ => string

def record : Record (Option Algorithm) where
  name := "struct Header"
  start := none
  known := [
    text "typ",
    { name := "alg"
      read := fun depth => (fun algorithm _ => some algorithm) <$> algorithm depth
      mayLack := false
      mayTrail := false },
    text "cty",
    text "jku",
    checked "jwk" Jwk.read,
    text "kid",
    text "x5u",
    checked "x5c" strings,
    text "x5t",
    text "x5t#S256"]

def parse (document : List UInt8) : Except Failure Algorithm := do
  let algorithm ← (whole (record.read depthLimit)).outcome document
  match algorithm with
  | some algorithm => pure algorithm
  | none => throw (.here (.missingField "alg"))

end Header
end Gatekeeper
