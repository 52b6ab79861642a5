import Gatekeeper.Json.Decode

/-!
# Keys in headers

A header may hold a key, of which only the form is looked at.  All members of its
object are read before any of them is checked: first those that every key may
have, in their order, and then those that the type of the key asks for.
-/

namespace Gatekeeper
namespace Jwk

open Json Reader

/-!
# Members of all keys
-/

abbrev Check := Value → Except Fault Unit

def text : Check
  | .string _ => .ok ()
  | v => .error (.wrongType (Found.ofValue v) "a string")

def texts : Check
  | .array items => items.forM text
  | v => .error (.wrongType (Found.ofValue v) "a sequence")

def unit : Check
  | .null => .ok ()
  | .object [] => .ok ()
  | v => .error (.wrongType (Found.ofValue v) "unit")

def known (names : List String) (name : String) : Except Fault Unit :=
  if name ∈ names then .ok () else .error (.unknownName name names)

def named (names : List String) : Check
  | .string name => known names name
  | .object [(name, v)] => do
    known names name
    unit v
  | .object _ => .error .notOneKey
  | v => .error (.wrongType (Found.ofValue v) "string or map")

def algorithms : List String :=
  ["HS256", "HS384", "HS512", "ES256", "ES384", "RS256", "RS384", "RS512", "PS256", "PS384",
    "PS512", "EdDSA", "RSA1_5", "RSA-OAEP", "RSA-OAEP-256"]

def common : List (String × Check) :=
  [("use", text), ("key_ops", texts), ("alg", named algorithms), ("kid", text), ("x5u", text),
    ("x5c", texts), ("x5t", text), ("x5t#S256", text)]

def unlessNull (check : Check) : Check
  | .null => .ok ()
  | v => check v

/-- Checks the members that every key may have, each of them once, and leaves the others. -/
def checkCommon (seen : List String) :
    List (String × Value) → Except Fault (List (String × Value))
  | [] => .ok []
  | (key, v) :: rest =>
    match common.lookup key with
    | none => do
      let others ← checkCommon seen rest
      pure ((key, v) :: others)
    | some check => do
      if key ∈ seen then throw (.duplicateField key)
      unlessNull check v
      checkCommon (key :: seen) rest

/-!
# Types of keys
-/

def isText : Value → Bool
  | .string _ => true
  | _ => false

def isName (names : List String) : Value → Bool
  | .string name => name ∈ names
  | .object [(name, .null)] => name ∈ names
  | _ => false

def curves : List String :=
  ["P-256", "P-384", "P-521", "Ed25519"]

def types : List (List (String × (Value → Bool))) :=
  [[("kty", isName ["EC"]), ("crv", isName curves), ("x", isText), ("y", isText)],
    [("kty", isName ["RSA"]), ("n", isText), ("e", isText)],
    [("kty", isName ["oct"]), ("k", isText)],
    [("kty", isName ["OKP"]), ("crv", isName curves), ("x", isText)]]

def hasMember (members : List (String × Value)) (key : String) (test : Value → Bool) : Bool :=
  match members.filter fun member => member.1 = key with
  | [member] => test member.2
  | _ => false

def isOfType (members : List (String × Value)) (type : List (String × (Value → Bool))) : Bool :=
  type.all fun (key, test) => hasMember members key test

/-!
# Keys
-/

def check (members : List (String × Value)) : Except Fault Unit := do
  let others ← checkCommon [] members
  if types.any (isOfType others) then .ok () else .error .noVariant

/-- A member with those before it, which may have the same key. -/
def entry (depth : Nat) (members : List (String × Value)) (key : String) :
    Reader (List (String × Value)) := do
  let v ← memberValue key (value depth)
  pure (members ++ [(key, v)])

def checked (depth : Nat) : Reader Unit := do
  match check (← members (entry depth) []) with
  | .ok _ => pure ()
  | .error fault => fail fault

def read (depth : Nat) : Reader Unit :=
  onValue fun b =>
    if b = 0x7B then
      descend depth fun depth => do
        advance 1
        enclosed (checked depth) closeObject
    else mismatch "struct Jwk" b

end Jwk
end Gatekeeper
