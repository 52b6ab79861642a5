import Gatekeeper.Json.Printer
import Gatekeeper.Login.Attempt
import Gatekeeper.Login.Redaction

/-!
# Request bodies

The object that is sent to the provider with a login.
-/

namespace Gatekeeper

structure RequestBody extends Json.Object

namespace RequestBody

open Json

def usernameKey : String := "username"

def passwordKey : String := "password"

/-- The configured parameters with the credentials of an attempt, which win over parameters of
the same names. -/
def ofParameters (parameters : Object) (attempt : Attempt) : RequestBody :=
  ⟨(parameters.insert usernameKey (.string attempt.username)).insert passwordKey
    (.string attempt.password.value)⟩

def payload (body : RequestBody) : List UInt8 :=
  body.toObject.bytes

def hidePassword (o : Object) : Object :=
  if (o.get? passwordKey).isSome then o.insert passwordKey (.string Redaction.placeholder) else o

/-- The body as it may be logged: without the member named as the password, and without the
password in any string. -/
def redactedObject (body : RequestBody) (password : Password) : Object :=
  Redaction.maskObject password.value (hidePassword body.toObject)

def redacted (body : RequestBody) (password : Password) : String :=
  (body.redactedObject password).text

end RequestBody
end Gatekeeper
