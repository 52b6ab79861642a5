import Gatekeeper.Json.Object
import Gatekeeper.Url.Parse

/-!
# The identity provider

Where logins are sent, and what goes with every one of them.
-/

namespace Gatekeeper

inductive ProviderFault where
  | missingUrl
  | invalidUrl (raw : String) (fault : Url.Fault)
  | unsupportedScheme (raw : String)
  | zeroTimeout
deriving DecidableEq, Repr

namespace ProviderFault

def message : ProviderFault → String
  | .missingUrl => "Missing identity provider URL."
  | .invalidUrl raw _ => "Identity provider URL is invalid: " ++ raw ++ "."
  | .unsupportedScheme raw => "Identity provider URL must use http or https: " ++ raw ++ "."
  | .zeroTimeout => "Identity provider timeout must be positive."

def causes : ProviderFault → List String
  | .invalidUrl _ fault => [fault.message]
  | _ => []

end ProviderFault

structure Provider where
  base : Url
  endpoint : Url
  parameters : Json.Object
  timeout : Option Nat

namespace Provider

def authenticatePath : String := "/authenticate"

def webUrl [Url.International] (raw : String) : Except ProviderFault Url :=
  match Url.parse raw with
  | .error fault => .error (.invalidUrl raw fault)
  | .ok .other => .error (.unsupportedScheme raw)
  | .ok (.web url) => .ok url

def trimSlashes (raw : String) : String :=
  String.ofList ((raw.toList.reverse.dropWhile (· = '/')).reverse)

/-- The path is appended to the text of the base address, which is then read again. -/
def endpointText (raw : String) : String :=
  trimSlashes raw ++ authenticatePath

def build [Url.International] (url : Option String) (parameters : Json.Object)
    (timeout : Option Nat) : Except ProviderFault Provider := do
  let some raw := url | throw .missingUrl
  let base ← webUrl raw
  let endpoint ← webUrl (endpointText raw)
  if timeout = some 0 then throw .zeroTimeout
  pure ⟨base, endpoint, parameters, timeout⟩

end Provider
end Gatekeeper
