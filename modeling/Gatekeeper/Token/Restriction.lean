import Gatekeeper.Json.Record

/-!
# Restrictions

For whom and by whom a token was issued.  These members of the payload are read
leniently: one that cannot be read restricts nothing, and the reading goes on
from where it stopped.
-/

namespace Gatekeeper

inductive Tried (α : Type) where
  | absent
  | unreadable
  | read (a : α)
deriving DecidableEq, Repr

inductive Names where
  | one (name : String)
  | many (names : List String)
deriving DecidableEq, Repr

namespace Names

def meets (names : Names) (accepted : List String) : Bool :=
  match names with
  | one name => name ∈ accepted
  | many names => names.any (· ∈ accepted)

def strings? : List Json.Value → Option (List String)
  | [] => some []
  | .string s :: rest => (strings? rest).map (s :: ·)
  | _ :: _ => none

def ofValue? : Json.Value → Option Names
  | .string s => some (one s)
  | .array items => (strings? items).map many
  | _ => none

end Names

structure Restriction where
  issuer : Tried Names
  audience : Tried Names
deriving DecidableEq, Repr

namespace Restriction

open Json Reader

def none : Restriction := ⟨.absent, .absent⟩

/-- Never fails: where the reader would, the member is unreadable. -/
def tolerant (reader : Reader (Option α)) : Reader (Tried α) := fun input =>
  match reader input with
  | .ok (some a) rest => .ok (.read a) rest
  | .ok .none rest => .ok .absent rest
  | .error _ rest => .ok .unreadable rest

def names (depth : Nat) : Reader (Tried Names) := fun input =>
  match tolerant (optional (value depth)) input with
  | .ok (.read v) rest => .ok ((Names.ofValue? v).elim .unreadable .read) rest
  | .ok .absent rest => .ok .absent rest
  | .ok .unreadable rest => .ok .unreadable rest
  | .error failure rest => .error failure rest

def passed (name : String) (mayTrail : Bool) (reader : Nat → Reader α) : Member Restriction where
  name := name
  read := fun depth => do
    let _ ← tolerant (optional (reader depth))
    pure id
  mayLack := true
  mayTrail := mayTrail

def named (name : String) (put : Tried Names → Restriction → Restriction) :
    Member Restriction where
  name := name
  read := fun depth => put <$> names depth
  mayLack := true
  mayTrail := false

def record : Record Restriction where
  name := "struct ClaimsForValidation"
  start := none
  known := [
    passed "exp" true value,
    passed "nbf" true value,
    passed "sub" false fun _ => string,
    named "iss" fun v restriction => { restriction with issuer := v },
    named "aud" fun v restriction => { restriction with audience := v }]

def parse (document : List UInt8) : Except Failure Restriction :=
  (whole (record.read depthLimit)).outcome document

/-- Whether a member that was read stands against a list of accepted names.  Without such a list,
or without the member, nothing is refused. -/
def refuses (member : Tried Names) (accepted : Option (List String)) : Bool :=
  match member, accepted with
  | .read names, some accepted => !names.meets accepted
  | _, _ => false

end Restriction
end Gatekeeper
