import Gatekeeper.Login.RequestBody
import Gatekeeper.Provider

/-!
# Decisions

A hook answers an attempt with a value.  A scalar that says no rejects the
attempt, an object accepts it and may replace the request body, the address and
the applications that the token is for.
-/

namespace Gatekeeper

inductive HookFault where
  | failed (message : String)
  | notAnObject (kind : String)
  | invalidField (field expected : String)
  | invalidUrl (fault : ProviderFault)
deriving DecidableEq, Repr

namespace HookFault

def message : HookFault → String
  | .failed message => "Pre-auth hook failed: " ++ message ++ "."
  | .notAnObject kind => "Pre-auth hook must return an object, got " ++ kind ++ "."
  | .invalidField field expected =>
    "Pre-auth hook field `" ++ field ++ "` must be " ++ expected ++ "."
  | .invalidUrl _ => "Pre-auth hook returned an unusable URL."

def causes : HookFault → List String
  | .invalidUrl fault => fault.message :: fault.causes
  | _ => []

end HookFault

/-- What an accepted attempt changes; nothing where a part is absent. -/
structure Decision where
  body : Option RequestBody
  url : Option Url
  applications : Option (List String)

namespace Decision

open Json

def unchanged : Decision := ⟨none, none, none⟩

def isUnchanged (decision : Decision) : Bool :=
  decision.body.isNone && decision.url.isNone && decision.applications.isNone

def isYes : Value → Bool
  | .null => false
  | .bool b => b
  | .number n => !n.isZero
  | .string s => s ≠ ""
  | .array _ => true
  | .object _ => true

def bodyOf : Option Value → Except HookFault (Option RequestBody)
  | none => .ok none
  | some .null => .ok none
  | some (.object members) => .ok (some ⟨Object.ofMembers members⟩)
  | some _ => .error (.invalidField "body" "an object")

def urlOf [Url.International] : Option Value → Except HookFault (Option Url)
  | none => .ok none
  | some .null => .ok none
  | some (.string raw) =>
    match Provider.webUrl raw with
    | .ok url => .ok (some url)
    | .error fault => .error (.invalidUrl fault)
  | some _ => .error (.invalidField "url" "a string")

def invalidApplications : HookFault :=
  .invalidField "allowedApplications" "an array of strings"

def strings : List Value → Except HookFault (List String)
  | [] => .ok []
  | .string s :: rest =>
    match strings rest with
    | .ok ss => .ok (s :: ss)
    | .error fault => .error fault
  | _ :: _ => .error invalidApplications

def applicationsOf : Option Value → Except HookFault (Option (List String))
  | none => .ok none
  | some .null => .ok none
  | some (.array items) =>
    match strings items with
    | .ok names => .ok (some names)
    | .error fault => .error fault
  | some _ => .error invalidApplications

def ofMembers [Url.International] (members : List (String × Value)) :
    Except HookFault Decision := do
  let body ← bodyOf (members.lookup "body")
  let url ← urlOf (members.lookup "url")
  let applications ← applicationsOf (members.lookup "allowedApplications")
  pure ⟨body, url, applications⟩

def ofOutput [Url.International] (output : Value) : Except HookFault (Option Decision) :=
  if !isYes output then .ok none
  else
    match output with
    | .object members => (ofMembers members).map some
    | other => .error (.notAnObject other.kind)

end Decision

structure Hook where
  notes : Attempt → List String
  output : Attempt → Except HookFault Json.Value

namespace Hook

def diagnostic (_ : Hook) : String := "FnHook(..)"

def passThrough : Hook where
  notes := fun _ => []
  output := fun _ => .ok (.object [])

end Hook
end Gatekeeper
