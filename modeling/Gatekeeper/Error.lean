import Gatekeeper.Login.Decision
import Gatekeeper.Login.Exchange
import Gatekeeper.Token.Bearer
import Gatekeeper.Token.VerifierSettings

/-!
# Errors

Why a question could not be answered with yes.  Each error has one message, and
the messages of the causes below it.
-/

namespace Gatekeeper

inductive ConfigFault where
  | clientBuild (causes : List String)
  | provider (fault : ProviderFault)
  | verifier (fault : VerifierFault)
  | document (failure : Json.Failure)
deriving DecidableEq, Repr

namespace ConfigFault

def message : ConfigFault → String
  | .clientBuild _ => "HTTP client could not be constructed."
  | .provider fault => fault.message
  | .verifier fault => fault.message
  | .document _ => "Configuration document is malformed."

def causes : ConfigFault → List String
  | .clientBuild causes => causes
  | .provider fault => fault.causes
  | .verifier _ => []
  | .document failure => [failure.message]

end ConfigFault

inductive Error where
  | config (fault : ConfigFault)
  | transport (fault : TransportFault)
  | hook (fault : HookFault)
  | tokenRead (fault : ReadFault)
  | verification (refusal : Refusal)
  | invalidCredentials
  /-- The credentials are right and another factor is asked for. -/
  | incomplete (additional : Json.Object)
  | unexpectedContentType (contentType : String)
  | delegation (status : Nat) (username body : String)
  | malformedResponse (reason : String)

namespace Error

def message : Error → String
  | .config fault => fault.message
  | .transport fault => fault.message
  | .hook fault => fault.message
  | .tokenRead fault => fault.message
  | .verification refusal => refusal.message
  | .invalidCredentials => "Invalid credentials."
  | .incomplete _ => "Additional authentication factor required."
  | .unexpectedContentType contentType =>
    "Unexpected response body content type: " ++ contentType ++ "."
  | .delegation status username body =>
    "Unexpected status code " ++ toString status ++ " for user " ++ username ++ ": " ++ body ++ "."
  | .malformedResponse reason =>
    "Identity provider returned a malformed response: " ++ reason ++ "."

def causes : Error → List String
  | .config fault => fault.causes
  | .transport fault => fault.causes
  | .hook fault => fault.causes
  | .tokenRead fault => fault.causes
  | .verification refusal => refusal.cause.toList
  | _ => []

def isInvalidCredentials : Error → Bool
  | .invalidCredentials => true
  | _ => false

def isIncomplete : Error → Bool
  | .incomplete _ => true
  | _ => false

def additional? : Error → Option Json.Object
  | .incomplete additional => some additional
  | _ => none

end Error
end Gatekeeper
