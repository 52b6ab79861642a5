import Gatekeeper.Login.Authenticator
import Gatekeeper.Proofs.Json.Compact
import Gatekeeper.Proofs.Login.Bodies
import Gatekeeper.Proofs.Login.Decisions
import Gatekeeper.Proofs.Text.Mending

/-!
# Delegation of a login

Where the hook refuses an attempt nothing is sent; otherwise one request is, with
what the hook decides in place of what is configured.
-/

namespace Gatekeeper

namespace Run

/-- Nothing was sent, and the run ends in the error. -/
structure Refuses (run : Run α) (error : Error) : Prop where
  requests : run.requests = []
  result : run.result = .error error

theorem bind_of_ok {run : Run α} {a : α} (hresult : run.result = .ok a) (next : α → Run β) :
    run >>= next =
      ⟨(next a).result, run.journal ++ (next a).journal, run.requests ++ (next a).requests⟩ := by
  simp only [bind, andThen, hresult]

theorem bind_of_error {run : Run α} {error : Error} (hresult : run.result = .error error)
    (next : α → Run β) : run >>= next = ⟨.error error, run.journal, run.requests⟩ := by
  simp only [bind, andThen, hresult]

@[simp] theorem pure_eq (a : α) : (pure a : Run α) = yield a := rfl

@[simp] theorem ok_bind (a : α) (journal : Journal) (requests : List Request)
    (next : α → Run β) :
    (⟨.ok a, journal, requests⟩ : Run α) >>= next =
      ⟨(next a).result, journal ++ (next a).journal, requests ++ (next a).requests⟩ := rfl

@[simp] theorem error_bind (error : Error) (journal : Journal) (requests : List Request)
    (next : α → Run β) :
    (⟨.error error, journal, requests⟩ : Run α) >>= next = ⟨.error error, journal, requests⟩ := rfl

@[simp] theorem note_bind (journal : Journal) (next : Unit → Run α) :
    note journal >>= next =
      ⟨(next ()).result, journal ++ (next ()).journal, (next ()).requests⟩ := rfl

@[simp] theorem ofExcept_ok_bind (a : α) (next : α → Run β) :
    ofExcept (.ok a) >>= next = next a := rfl

@[simp] theorem ofExcept_error_bind (error : Error) (next : α → Run β) :
    ofExcept (.error error) >>= next = fail error := rfl

end Run

namespace Authenticator

open Json

/-!
# What the hook decides
-/

inductive Permits [Url.International] (authenticator : Authenticator) (attempt : Attempt) :
    Decision -> Prop
  | unasked (hhook : authenticator.hook = none) :
      Permits authenticator attempt .unchanged
  | accepted {hook : Hook} {members : List (String × Value)} {decision : Decision}
      (hhook : authenticator.hook = some hook)
      (houtput : hook.output attempt = .ok (.object members))
      (hdescribes : Decision.Describes members decision) :
      Permits authenticator attempt decision

section

variable [Url.International]

theorem consult_of_failed {authenticator : Authenticator} {attempt : Attempt} {hook : Hook}
    {fault : HookFault} (hhook : authenticator.hook = some hook)
    (houtput : hook.output attempt = .error fault) :
    (authenticator.consult attempt).Refuses (.hook fault) := by
  unfold consult
  rw [hhook]
  simp only [houtput]
  exact ⟨rfl, rfl⟩

def settled : Except HookFault (Option Decision) → Except Error Decision
  | .ok (some decision) => .ok decision
  | .ok none => .error .invalidCredentials
  | .error fault => .error (.hook fault)

theorem consult_of_output {authenticator : Authenticator} {attempt : Attempt} {hook : Hook}
    {output : Value} (hhook : authenticator.hook = some hook)
    (houtput : hook.output attempt = .ok output) :
    (authenticator.consult attempt).requests = [] ∧
      (authenticator.consult attempt).result = settled (Decision.ofOutput output) := by
  cases hread : Decision.ofOutput output with
  | error fault => simp [consult, hhook, houtput, hread, settled, Run.fail]
  | ok found =>
      cases found <;> simp [consult, hhook, houtput, hread, settled, Run.yield, Run.fail]

theorem consult_refuses {authenticator : Authenticator} {attempt : Attempt} {hook : Hook}
    {output : Value} {error : Error} (hhook : authenticator.hook = some hook)
    (houtput : hook.output attempt = .ok output)
    (hsettled : settled (Decision.ofOutput output) = .error error) :
    (authenticator.consult attempt).Refuses error := by
  rcases consult_of_output hhook houtput with ⟨hrequests, hresult⟩
  exact ⟨hrequests, hresult.trans hsettled⟩

theorem consult_of_permits {authenticator : Authenticator} {attempt : Attempt}
    {decision : Decision} (hpermits : Permits authenticator attempt decision) :
    (authenticator.consult attempt).result = .ok decision ∧
      (authenticator.consult attempt).requests = [] := by
  cases hpermits with
  | unasked hhook =>
      unfold consult
      rw [hhook]
      exact ⟨rfl, rfl⟩
  | accepted hhook houtput hdescribes =>
      rcases consult_of_output hhook houtput with ⟨hrequests, hresult⟩
      rw [(Decision.ofOutput_eq_some_iff _ decision).mpr ⟨_, rfl, hdescribes⟩] at hresult
      exact ⟨hresult, hrequests⟩

end

/-- A hook sees the whole attempt; nothing else sees more than its credentials. -/
def Overlooks (authenticator : Authenticator) (one other : Attempt) : Prop :=
  forall hook, authenticator.hook = some hook ->
    hook.output one = hook.output other ∧ hook.notes one = hook.notes other

theorem consult_eq_of_overlooks [Url.International] {authenticator : Authenticator}
    {attempt : Attempt} {additional : Object}
    (hoverlooks : authenticator.Overlooks { attempt with additional := additional } attempt) :
    authenticator.consult { attempt with additional := additional } =
      authenticator.consult attempt := by
  unfold consult
  cases hhook : authenticator.hook with
  | none => rfl
  | some hook =>
      rcases hoverlooks hook hhook with ⟨houtput, hnotes⟩
      simp only [houtput, hnotes]

/-!
# What is sent
-/

/-- The body is the compact text of an object, in UTF-8. -/
def Posts (request : Request) (o : Object) : Prop :=
  exists text, Prints (.object o.members) text ∧ request.body = text.flatMap String.utf8EncodeChar

/-- An object that carries the credentials is the only one that does, so the order of what is sent
is told as well. -/
structure Departs (authenticator : Authenticator) (attempt : Attempt) (decision : Decision)
    (request : Request) : Prop where
  headers : request.accept = acceptJwt ∧ request.contentType = contentTypeJson
  givenUrl : forall url, decision.url = some url -> request.url = url
  ownUrl : decision.url = none -> request.url = authenticator.provider.endpoint
  givenBody : forall body, decision.body = some body -> Posts request body.toObject
  ownBody : decision.body = none -> exists o,
    RequestBody.Carries authenticator.provider.parameters attempt o ∧ Posts request o
  onlyBody : decision.body = none -> forall o,
    RequestBody.Carries authenticator.provider.parameters attempt o -> Posts request o

theorem posts_payload (url : Url) (body : RequestBody) :
    Posts (.post url body.payload) body.toObject :=
  ⟨_, prints_chars _, rfl⟩

def requestFor (authenticator : Authenticator) (attempt : Attempt) (decision : Decision) :
    Request :=
  Request.post (authenticator.requestUrl decision)
    (authenticator.requestBody decision attempt).payload

theorem requestFor_departs (authenticator : Authenticator) (attempt : Attempt)
    (decision : Decision) :
    Departs authenticator attempt decision (authenticator.requestFor attempt decision) := by
  have hurl : (authenticator.requestFor attempt decision).url =
      decision.url.getD authenticator.provider.endpoint := rfl
  have hposts : Posts (authenticator.requestFor attempt decision)
      (authenticator.requestBody decision attempt).toObject := posts_payload _ _
  constructor
  · exact ⟨rfl, rfl⟩
  · intro url hgiven
    rw [hurl, hgiven]
    rfl
  · intro hnone
    rw [hurl, hnone]
    rfl
  · intro body hgiven
    simpa [requestBody, hgiven] using hposts
  · intro hnone
    refine ⟨_, RequestBody.carries_ofParameters _ attempt, ?_⟩
    simpa [requestBody, hnone] using hposts
  · intro hnone o hcarries
    have hown := RequestBody.carries_ofParameters authenticator.provider.parameters attempt
    rw [hcarries.unique hown]
    simpa [requestBody, hnone] using hposts

/-!
# What comes of it
-/

theorem allows_iff (outcome : Outcome) (application : String) :
    outcome.allows application = true <->
      forall names, outcome.applications = some names -> application ∈ names := by
  unfold Outcome.allows
  cases outcome.applications with
  | none => simp
  | some names => simp

structure Settles (transport : Transport) (attempt : Attempt) (decision : Decision)
    (request : Request) (result : Except Error Outcome) : Prop where
  lost : forall fault, transport request = .error fault -> result = .error (.transport fault)
  refused : forall response error, transport request = .ok response ->
    (interpret attempt.username response).result = .error error -> result = .error error
  granted : forall response token, transport request = .ok response ->
    (interpret attempt.username response).result = .ok token ->
      result = .ok ⟨token, decision.applications⟩
  applications : forall outcome, result = .ok outcome ->
    outcome.applications = decision.applications ∧
      forall application, outcome.allows application = true <->
        forall names, decision.applications = some names -> application ∈ names

@[simp] theorem interpret_requests (username : String) (response : Response) :
    (interpret username response).requests = [] := by
  unfold interpret
  split
  · rfl
  · split
    · rfl
    · split
      · rfl
      · split <;> rfl

theorem delegate_of_refuses [Url.International] {authenticator : Authenticator}
    {attempt : Attempt} {error : Error} (transport : Transport)
    (hrefuses : (authenticator.consult attempt).Refuses error) :
    (authenticator.delegate transport attempt).Refuses error := by
  unfold delegate
  rw [Run.bind_of_error hrefuses.result]
  exact ⟨hrefuses.requests, rfl⟩

def conclude (decision : Decision) (username : String) (response : Response) :
    Except Error Outcome :=
  (interpret username response).result.map fun token => ⟨token, decision.applications⟩

theorem delegate_of_permits [Url.International] {authenticator : Authenticator} {attempt : Attempt}
    {decision : Decision} (transport : Transport)
    (hpermits : Permits authenticator attempt decision) :
    (authenticator.delegate transport attempt).requests =
        [authenticator.requestFor attempt decision] ∧
      (authenticator.delegate transport attempt).result =
        ((transport (authenticator.requestFor attempt decision)).mapError .transport).bind
          (conclude decision attempt.username) := by
  rcases consult_of_permits hpermits with ⟨hresult, hrequests⟩
  unfold delegate requestFor
  rw [Run.bind_of_ok hresult, hrequests]
  cases hsent : transport (Request.post (authenticator.requestUrl decision)
      (authenticator.requestBody decision attempt).payload) with
  | error fault => simp [Run.send, hsent, Except.bind]
  | ok response =>
      cases hinterpret : (interpret attempt.username response).result with
      | error error =>
          simp [Run.send, hsent, Run.bind_of_error hinterpret, Except.bind, conclude, hinterpret,
            Except.map]
      | ok token =>
          simp [Run.send, hsent, Run.bind_of_ok hinterpret, Run.yield, Except.bind, conclude,
            hinterpret, Except.map]

theorem settles_of_result {transport : Transport} {attempt : Attempt} {decision : Decision}
    {request : Request} {result : Except Error Outcome}
    (hresult : result = ((transport request).mapError .transport).bind
      (conclude decision attempt.username)) :
    Settles transport attempt decision request result := by
  subst hresult
  constructor
  · intro fault hsent
    rw [hsent]
    rfl
  · intro response error hsent hinterpret
    simp [hsent, Except.bind, conclude, hinterpret, Except.map]
  · intro response token hsent hinterpret
    simp [hsent, Except.bind, conclude, hinterpret, Except.map]
  · intro outcome houtcome
    have happlications : outcome.applications = decision.applications := by
      cases hsent : transport request with
      | error fault =>
          rw [hsent] at houtcome
          cases houtcome
      | ok response =>
          rw [hsent] at houtcome
          simp only [mapError_ok, Except.bind, conclude] at houtcome
          cases hinterpret : (interpret attempt.username response).result with
          | error error =>
              rw [hinterpret] at houtcome
              cases houtcome
          | ok token =>
              rw [hinterpret] at houtcome
              cases houtcome
              rfl
    refine ⟨happlications, fun application => ?_⟩
    rw [← happlications]
    exact allows_iff outcome application

/-!
# Logins
-/

structure Delegates [Url.International] (authenticator : Authenticator) (transport : Transport)
    (attempt : Attempt) (run : Run Outcome) : Prop where
  failed : forall hook fault, authenticator.hook = some hook ->
    hook.output attempt = .error fault -> run.Refuses (.hook fault)
  broken : forall hook output, authenticator.hook = some hook ->
    hook.output attempt = .ok output -> Decision.BreaksContract output ->
      exists fault, Decision.ofOutput output = .error fault ∧ run.Refuses (.hook fault)
  rejected : forall hook output, authenticator.hook = some hook ->
    hook.output attempt = .ok output -> Decision.SaysNo output ->
      run.Refuses .invalidCredentials
  sent : forall decision, Permits authenticator attempt decision ->
    exists request, run.requests = [request] ∧
      Departs authenticator attempt decision request ∧
      Settles transport attempt decision request run.result

theorem authenticate_of_refuses [Url.International] {authenticator : Authenticator}
    {attempt : Attempt} {error : Error} (transport : Transport)
    (hrefuses : (authenticator.consult attempt).Refuses error) :
    (authenticator.authenticate transport attempt).Refuses error := by
  have h := delegate_of_refuses transport hrefuses
  exact ⟨h.requests, h.result⟩

/-- A login on which the hook fails, breaks its contract or says no sends nothing; any other sends
one request, to the address and with the body that the hook or the provider gives, and ends as its
answer tells, for the applications of the hook.  What an attempt has beside its credentials reaches
nothing but the hook. -/
theorem authenticate_delegates [Url.International] (authenticator : Authenticator)
    (transport : Transport) (attempt : Attempt) :
    Delegates authenticator transport attempt (authenticator.authenticate transport attempt) ∧
      forall additional,
        authenticator.Overlooks { attempt with additional := additional } attempt ->
          authenticator.authenticate transport { attempt with additional := additional } =
            authenticator.authenticate transport attempt := by
  constructor
  · constructor
    · intro hook fault hhook houtput
      exact authenticate_of_refuses transport (consult_of_failed hhook houtput)
    · intro hook output hhook houtput hbreaks
      rcases (Decision.ofOutput_eq_error_iff output).mpr hbreaks with ⟨fault, hread⟩
      refine ⟨fault, hread, ?_⟩
      exact authenticate_of_refuses transport
        (consult_refuses hhook houtput (congrArg settled hread))
    · intro hook output hhook houtput hno
      have hread := (Decision.ofOutput_eq_none_iff output).mpr hno
      exact authenticate_of_refuses transport
        (consult_refuses hhook houtput (congrArg settled hread))
    · intro decision hpermits
      rcases delegate_of_permits transport hpermits with ⟨hrequests, hresult⟩
      refine ⟨authenticator.requestFor attempt decision, hrequests, ?_, ?_⟩
      · exact requestFor_departs authenticator attempt decision
      · exact settles_of_result hresult
  · intro additional hoverlooks
    have hconsult := consult_eq_of_overlooks hoverlooks
    unfold authenticate delegate
    simp only [hconsult]
    rfl

/-!
Parameters with a user name of their own, which the one of the attempt replaces, and a hook that
gives a body instead.  What else the attempt has is not sent.
-/

attribute [local instance] Url.International.bookshop

def acmeProvider : Provider where
  base := ⟨.http, [], [], .name "idp.local".toList, none, [[]], none, none⟩
  endpoint := ⟨.http, [], [], .name "idp.local".toList, none, ["authenticate".toList], none, none⟩
  parameters := .ofMembers [
    ("username", .string "nobody"),
    ("rate", .number (.float ⟨0x3FF8000000000000⟩)),
    ("scopes", .array [.string "a\"b", .null, .bool true, .number (.integer (-7))])]
  timeout := none

def mapping : Hook where
  notes := fun _ => []
  output := fun attempt => .ok (.object [("body", .object [("login", .string attempt.username)])])

def accepting : Transport :=
  fun _ => .ok ⟨200, none, Utf8.encode "abc.def.ghi"⟩

def fromHome : Attempt :=
  ⟨"alice", ⟨"s3cret\n"⟩, .ofMembers [("ip", .string "::1")]⟩

def ownText : String :=
  "\x7b\"password\":\"s3cret\\n\",\"rate\":1.5,\"scopes\":[\"a\\\"b\",null,true,-7]," ++
    "\"username\":\"alice\"\x7d"

theorem authenticate_delegates_bodies :
    (exists request, (authenticate ⟨acmeProvider, none⟩ accepting fromHome).requests = [request] ∧
      request.url = acmeProvider.endpoint ∧ request.body = ownText.toUTF8.toList ∧
      (authenticate ⟨acmeProvider, none⟩ accepting fromHome).result =
        .ok ⟨⟨"abc.def.ghi"⟩, none⟩ ∧
      authenticate ⟨acmeProvider, none⟩ accepting { fromHome with additional := .empty } =
        authenticate ⟨acmeProvider, none⟩ accepting fromHome) ∧
    exists request,
      (authenticate ⟨acmeProvider, some mapping⟩ accepting fromHome).requests = [request] ∧
      request.url = acmeProvider.endpoint ∧
      request.body = "\x7b\"login\":\"alice\"\x7d".toUTF8.toList := by
  constructor
  · have hdelegates := authenticate_delegates ⟨acmeProvider, none⟩ accepting fromHome
    rcases hdelegates.left.sent .unchanged (.unasked rfl) with
      ⟨request, hsent, hdeparts, hsettles⟩
    have hbody : (authenticate ⟨acmeProvider, none⟩ accepting fromHome).requests.map Request.body =
        [ownText.toUTF8.toList] := by
      decide +kernel
    rw [hsent] at hbody
    refine ⟨request, hsent, hdeparts.ownUrl rfl, (List.cons.inj hbody).left, ?_, ?_⟩
    · have hdecode : Utf8.decode (Utf8.encode "abc.def.ghi") = .ok "abc.def.ghi" :=
        Utf8.decode_eq_ok.mpr rfl
      exact hsettles.granted _ ⟨"abc.def.ghi"⟩ rfl (by simp [interpret, hdecode, Run.yield])
    · exact hdelegates.right .empty fun _ hhook => by cases hhook
  · have hdescribes : Decision.Describes
        [("body", .object [("login", .string "alice")])]
        ⟨some ⟨.ofMembers [("login", .string "alice")]⟩, none, none⟩ :=
      ⟨.given ⟨_, rfl, Object.collects_ofMembers _⟩, .absent, .absent⟩
    rcases (authenticate_delegates ⟨acmeProvider, some mapping⟩ accepting fromHome).left.sent _
      (.accepted rfl rfl hdescribes) with ⟨request, hsent, hdeparts, _⟩
    have hbody :
        (authenticate ⟨acmeProvider, some mapping⟩ accepting fromHome).requests.map Request.body =
          ["\x7b\"login\":\"alice\"\x7d".toUTF8.toList] := by
      decide +kernel
    rw [hsent] at hbody
    exact ⟨request, hsent, hdeparts.ownUrl rfl, (List.cons.inj hbody).left⟩

example (provider : Provider) (transport : Transport) (attempt : Attempt) :
    (authenticate ⟨provider, some ⟨fun _ => [], fun _ => .ok (.string "")⟩⟩ transport
      attempt).requests = [] := rfl

end Authenticator
end Gatekeeper
