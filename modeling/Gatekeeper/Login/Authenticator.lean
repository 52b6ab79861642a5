import Gatekeeper.Json.Decode
import Gatekeeper.Login.Run

/-!
# Authenticators

An authenticator asks its hook about an attempt, sends the attempt to the
provider once, and interprets the response.
-/

namespace Gatekeeper

/-- A token and the applications that it is for; without a list it is for all of them. -/
structure Outcome where
  token : BearerToken
  applications : Option (List String)

namespace Outcome

def allows (outcome : Outcome) (application : String) : Bool :=
  match outcome.applications with
  | none => true
  | some names => names.contains application

def diagnostic (outcome : Outcome) : String :=
  Diagnostic.record "AuthOutcome" [
    ("jwt", outcome.token.diagnostic),
    ("allowed_applications",
      Diagnostic.optional (outcome.applications.map Diagnostic.quotedList))]

end Outcome

structure Authenticator where
  provider : Provider
  hook : Option Hook

namespace Authenticator

def diagnostic (authenticator : Authenticator) : String :=
  Diagnostic.record "Authenticator" [
    ("endpoint", Diagnostic.quoted authenticator.provider.endpoint.text),
    ("hook_set", Diagnostic.flag authenticator.hook.isSome)]

/-!
# Events
-/

def event (level : Level) (message : String) : Observation :=
  .event ⟨level, "gateway_auth::delegate", message, []⟩

def hookNote (message : String) : Observation :=
  .event ⟨.debug, "gateway_auth::hook", message, []⟩

def rejected (username : String) : Observation :=
  .event ⟨.info, "gateway_auth::delegate", "pre-auth hook rejected attempt",
    [("username", .text username)]⟩

def changes (decision : Decision) (password : Password) : Journal :=
  (decision.body.map fun body =>
      event .debug ("hook mapped authentication request to: " ++ body.redacted password)).toList
    ++ (decision.url.map fun url =>
      event .debug ("hook set request URL to: " ++ url.text)).toList
    ++ (decision.applications.map fun names =>
      event .debug ("token will be restricted to apps: " ++ Diagnostic.quotedList names)).toList

def departure (username : String) (body : RequestBody) (password : Password) : Journal :=
  [event .info ("authenticating user " ++ username),
    event .debug ("authentication request: " ++ body.redacted password)]

/-!
# Interpreting responses
-/

def incomplete (response : Response) : Error :=
  let contentType := response.contentType.getD ""
  if contentTypeJson.toList.isPrefixOf contentType.toList then
    match (Json.Reader.object Json.Reader.depthLimit).outcome response.body with
    | .ok additional => .incomplete additional
    | .error failure => .malformedResponse failure.message
  else .unexpectedContentType contentType

def interpret (username : String) (response : Response) : Run BearerToken :=
  if response.status = 403 then do
    Run.note [event .warn
      ("invalid credentials for user " ++ username ++ ": " ++ response.bodyText)]
    Run.fail .invalidCredentials
  else if 400 ≤ response.status then do
    let error := Error.delegation response.status username response.bodyText
    Run.note [event .error error.message]
    Run.fail error
  else if response.status = 202 then do
    Run.note [event .info ("user " ++ username
      ++ " has given correct credentials, but additional authentication factor is required")]
    Run.fail (incomplete response)
  else
    match Utf8.decode response.body with
    | .ok token => Run.yield ⟨token⟩
    | .error fault => Run.fail (.malformedResponse fault.message)

/-!
# Logins
-/

def consult [Url.International] (authenticator : Authenticator) (attempt : Attempt) :
    Run Decision :=
  match authenticator.hook with
  | none => pure .unchanged
  | some hook => do
    Run.note ((hook.notes attempt).map hookNote)
    let output ← Run.ofExcept ((hook.output attempt).mapError .hook)
    match ← Run.ofExcept ((Decision.ofOutput output).mapError .hook) with
    | some decision =>
      Run.note (changes decision attempt.password)
      pure decision
    | none =>
      Run.note [rejected attempt.username]
      Run.fail .invalidCredentials

def requestBody (authenticator : Authenticator) (decision : Decision) (attempt : Attempt) :
    RequestBody :=
  decision.body.getD (RequestBody.ofParameters authenticator.provider.parameters attempt)

def requestUrl (authenticator : Authenticator) (decision : Decision) : Url :=
  decision.url.getD authenticator.provider.endpoint

def delegate [Url.International] (authenticator : Authenticator) (transport : Transport)
    (attempt : Attempt) : Run Outcome := do
  let decision ← authenticator.consult attempt
  let body := authenticator.requestBody decision attempt
  Run.note (departure attempt.username body attempt.password)
  let response ←
    Run.send transport (Request.post (authenticator.requestUrl decision) body.payload)
  let token ← interpret attempt.username response
  pure ⟨token, decision.applications⟩

/-- Rejected credentials and a missing factor are answers; all other errors are failures. -/
def flowOutcome : Except Error Outcome → FlowOutcome
  | .ok _ => .success
  | .error .invalidCredentials => .denied
  | .error (.incomplete _) => .denied
  | .error _ => .failure

def authenticate [Url.International] (authenticator : Authenticator) (transport : Transport)
    (attempt : Attempt) : Run Outcome :=
  let run := authenticator.delegate transport attempt
  { run with
    journal :=
      [.span .authenticate "authenticate", .count (.flow .authenticate .attempt)]
        ++ run.journal ++ [.count (.flow .authenticate (flowOutcome run.result))] }

end Authenticator
end Gatekeeper
