import Gatekeeper.Json.Outline
import Gatekeeper.Secret

/-!
# Login attempts

A user name and a password, with what the caller knows besides.
-/

namespace Gatekeeper

structure Attempt where
  username : String
  password : Password
  /-- Context for the hook; the provider never sees it. -/
  additional : Json.Object

def Attempt.diagnostic (attempt : Attempt) : String :=
  Diagnostic.record "LoginAttempt" [
    ("username", Diagnostic.quoted attempt.username),
    ("password", attempt.password.diagnostic),
    ("additional_properties", Json.Object.outline attempt.additional)]

end Gatekeeper
