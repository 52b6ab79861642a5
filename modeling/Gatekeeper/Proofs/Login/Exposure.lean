import Gatekeeper.Proofs.Login.Journals
import Gatekeeper.Proofs.Login.Redactions

/-!
# Where a password shows in the log

A login writes lines of its own, lines about what the hook decides, and one line about
a response that refuses the login.  The lines of its own show no password that is
foreign to them.  The line about a refusal carries the body of the response as it came,
so a provider that repeats the password puts it in the log.
-/

namespace Gatekeeper

open Json Redaction

namespace Redaction

variable {secret text : String}

theorem Occurs.before (hoccurs : Occurs secret text) (more : String) :
    Occurs secret (text ++ more) := by
  unfold Occurs at *
  rw [String.toList_append]
  exact hoccurs.trans (List.prefix_append _ _).isInfix

theorem Occurs.after (hoccurs : Occurs secret text) (more : String) :
    Occurs secret (more ++ text) := by
  unfold Occurs at *
  rw [String.toList_append]
  exact hoccurs.trans (List.suffix_append _ _).isInfix

def Shows (lines : List String) (secret : String) : Prop :=
  exists line, line ∈ lines ∧ Occurs secret line

@[simp] theorem shows_append {lines others : List String} :
    Shows (lines ++ others) secret <-> Shows lines secret ∨ Shows others secret := by
  simp only [Shows, List.mem_append, or_and_right, exists_or]

@[simp] theorem shows_singleton : Shows [text] secret <-> Occurs secret text := by
  simp only [Shows, List.mem_singleton, exists_eq_left]

@[simp] theorem not_shows_nil : ¬Shows [] secret := by
  intro h
  rcases h with ⟨line, hmem, _⟩
  cases hmem

end Redaction

/-!
# What the log shows
-/

def FieldValue.shown : FieldValue → String
  | .text s => s
  | .number n => toString n

namespace Observation

/-- What an observation shows in the log.  A counter shows nothing there. -/
def texts : Observation → List String
  | .span flow stage => [Journal.spanName, "flow", flow.label, "stage", stage]
  | .event logged =>
    logged.level.label :: logged.target :: logged.message ::
      logged.fields.flatMap fun field => [field.1, field.2.shown]
  | .count _ => []

def isHookNote : Observation → Bool
  | .event logged => logged.target = "gateway_auth::hook"
  | _ => false

end Observation

namespace Journal

def ownTexts (journal : Journal) : List String :=
  (journal.filter fun observation => !observation.isHookNote).flatMap Observation.texts

@[simp] theorem ownTexts_append (journal others : Journal) :
    ownTexts (journal ++ others) = ownTexts journal ++ ownTexts others := by
  unfold ownTexts
  rw [List.filter_append, List.flatMap_append]

end Journal

namespace Authenticator

/-!
# Lines
-/

/-- The texts of a login that stand in the log whatever the password is. -/
def fixedTexts (provider : Provider) (username : String) : List String :=
  ["authenticating user " ++ username,
    "authentication request: " ++ Object.text (RequestBody.shown provider.parameters username),
    "user " ++ username
      ++ " has given correct credentials, but additional authentication factor is required",
    "pre-auth hook rejected attempt", "username", username, Journal.spanName, "flow",
    Flow.authenticate.label, "stage", "authenticate", "gateway_auth::delegate", Level.error.label,
    Level.warn.label, Level.info.label, Level.debug.label]

/-- The password stands neither in the user name, in a string of the parameters or in the
placeholder, nor in a text that is made of these. -/
structure Foreign (provider : Provider) (username : String) (password : Password) : Prop where
  given : forall text, text ∈ username :: placeholder :: provider.parameters.texts ->
    ¬Occurs password.value text
  fixed : forall text, text ∈ fixedTexts provider username -> ¬Occurs password.value text

def decisionLines (decision : Decision) (password : Password) : List String :=
  (decision.body.map fun body =>
      "hook mapped authentication request to: " ++ body.redacted password).toList
    ++ (decision.url.map fun url => "hook set request URL to: " ++ url.text).toList
    ++ (decision.applications.map fun names =>
      "token will be restricted to apps: " ++ Diagnostic.quotedList names).toList
    ++ (decision.body.map fun body =>
      "authentication request: " ++ body.redacted password).toList

def refusalLines (username : String) (response : Response) : List String :=
  if response.status = 403 then
    ["invalid credentials for user " ++ username ++ ": " ++ response.bodyText]
  else if 400 ≤ response.status then
    [(Error.delegation response.status username response.bodyText).message]
  else []

variable {provider : Provider} {username : String} {password : Password}

theorem Foreign.unseen (hforeign : Foreign provider username password) :
    RequestBody.Unseen provider.parameters username password :=
  Or.inr hforeign.given

theorem Foreign.not_shows (hforeign : Foreign provider username password) {lines : List String}
    (hfixed : forall line, line ∈ lines -> line ∈ fixedTexts provider username) :
    ¬Shows lines password.value := by
  intro hshows
  rcases hshows with ⟨line, hmem, hoccurs⟩
  exact hforeign.fixed line (hfixed line hmem) hoccurs

theorem label_mem_fixedTexts (provider : Provider) (username : String) (level : Level) :
    level.label ∈ fixedTexts provider username := by
  cases level <;> simp [fixedTexts]

theorem ownTexts_event (level : Level) (message : String) :
    Journal.ownTexts [event level message] =
      [level.label, "gateway_auth::delegate"] ++ [message] := rfl

theorem shows_event_of_occurs {secret message : String} (level : Level)
    (hoccurs : Occurs secret message) :
    Shows (Journal.ownTexts [event level message]) secret := by
  rw [ownTexts_event, shows_append, shows_singleton]
  exact Or.inr hoccurs

theorem shows_event (hforeign : Foreign provider username password) (level : Level)
    (message : String) :
    Shows (Journal.ownTexts [event level message]) password.value <->
      Occurs password.value message := by
  have hfixed : ¬Shows [level.label, "gateway_auth::delegate"] password.value := by
    refine hforeign.not_shows ?_
    intro line hmem
    rcases List.mem_cons.mp hmem with rfl | hmem
    · exact label_mem_fixedTexts provider username level
    · rw [List.mem_singleton.mp hmem]
      simp [fixedTexts]
  constructor
  · intro h
    rw [ownTexts_event, shows_append, shows_singleton] at h
    exact h.resolve_left hfixed
  · intro h
    exact shows_event_of_occurs level h

theorem shows_optional (hforeign : Foreign provider username password) (level : Level)
    (found : Option α) (line : α → String) :
    Shows (Journal.ownTexts (found.map fun a => event level (line a)).toList) password.value <->
      Shows (found.map line).toList password.value := by
  cases found with
  | none => exact Iff.rfl
  | some a => exact (shows_event hforeign level (line a)).trans shows_singleton.symm

/-!
# Parts of a journal
-/

variable {authenticator : Authenticator} {attempt : Attempt} {decision : Decision}

@[simp] theorem ownTexts_hookNotes (authenticator : Authenticator) (attempt : Attempt) :
    (authenticator.hookNotes attempt).ownTexts = [] := by
  unfold hookNotes
  cases authenticator.hook with
  | none => rfl
  | some hook =>
      show Journal.ownTexts ((hook.notes attempt).map hookNote) = []
      generalize hook.notes attempt = notes
      induction notes with
      | nil => rfl
      | cons note rest ih => exact ih

theorem shows_changes (hforeign : Foreign provider username password) (decision : Decision) :
    Shows (Journal.ownTexts (changes decision password)) password.value <->
      Shows (decision.body.map fun body =>
          "hook mapped authentication request to: " ++ body.redacted password).toList
          password.value ∨
        Shows (decision.url.map fun url => "hook set request URL to: " ++ url.text).toList
          password.value ∨
        Shows (decision.applications.map fun names =>
          "token will be restricted to apps: " ++ Diagnostic.quotedList names).toList
          password.value := by
  unfold changes
  rw [Journal.ownTexts_append, Journal.ownTexts_append, shows_append, shows_append,
    shows_optional hforeign, shows_optional hforeign, shows_optional hforeign, or_assoc]

theorem shows_departure
    (hforeign : Foreign authenticator.provider attempt.username attempt.password)
    (decision : Decision) :
    Shows (Journal.ownTexts (departure attempt.username
        (authenticator.requestBody decision attempt) attempt.password)) attempt.password.value <->
      Shows (decision.body.map fun body =>
        "authentication request: " ++ body.redacted attempt.password).toList
        attempt.password.value := by
  have hgreeting := hforeign.fixed ("authenticating user " ++ attempt.username)
    (by simp [fixedTexts])
  have hsplit : forall first second : Observation, Journal.ownTexts [first, second] =
      Journal.ownTexts [first] ++ Journal.ownTexts [second] :=
    fun first second => Journal.ownTexts_append [first] [second]
  unfold departure
  rw [hsplit, shows_append, shows_event hforeign, shows_event hforeign]
  cases hbody : decision.body with
  -- The redacted body of the parameters is the one for all passwords, and that one is fixed.
  | none =>
      have hown : (authenticator.requestBody decision attempt).redacted attempt.password =
          Object.text (RequestBody.shown authenticator.provider.parameters attempt.username) := by
        unfold requestBody
        rw [hbody]
        exact RequestBody.redacted_ofParameters hforeign.unseen
      have hrequest := hforeign.fixed
        ("authentication request: " ++
          Object.text (RequestBody.shown authenticator.provider.parameters attempt.username))
        (by simp [fixedTexts])
      simp [hown, hgreeting, hrequest]
  | some body =>
      have hown : authenticator.requestBody decision attempt = body := by
        unfold requestBody
        rw [hbody]
        rfl
      simp [hown, hgreeting]

theorem shows_interpret (hforeign : Foreign provider username password) (response : Response) :
    Shows (interpret username response).journal.ownTexts password.value <->
      Shows (refusalLines username response) password.value := by
  unfold interpret refusalLines
  by_cases hforbidden : response.status = 403
  · simp [hforbidden, Run.fail, shows_event hforeign]
  · rw [if_neg hforbidden, if_neg hforbidden]
    by_cases hrefused : 400 ≤ response.status
    · simp [hrefused, Run.fail, shows_event hforeign]
    · rw [if_neg hrefused, if_neg hrefused]
      by_cases haccepted : response.status = 202
      · have hline := hforeign.fixed ("user " ++ username
          ++ " has given correct credentials, but additional authentication factor is required")
          (by simp [fixedTexts])
        simp [haccepted, Run.fail, shows_event hforeign, hline]
      · rw [if_neg haccepted]
        cases Utf8.decode response.body with
        | ok token => exact Iff.rfl
        | error fault => exact Iff.rfl

def replyLines (username : String) : Except TransportFault Response → List String
  | .ok response => refusalLines username response
  | .error _ => []

theorem shows_reply (hforeign : Foreign provider username password)
    (answer : Except TransportFault Response) :
    Shows (Journal.ownTexts (reply username answer)) password.value <->
      Shows (replyLines username answer) password.value := by
  cases answer with
  | error fault => exact Iff.rfl
  | ok response => exact shows_interpret hforeign response

theorem not_shows_rejected (hforeign : Foreign provider username password) :
    ¬Shows (Journal.ownTexts [rejected username]) password.value := by
  refine hforeign.not_shows ?_
  have htexts : Journal.ownTexts [rejected username] =
      [Level.info.label, "gateway_auth::delegate", "pre-auth hook rejected attempt", "username",
        username] := rfl
  rw [htexts]
  simp [fixedTexts]

theorem shows_of_interpret {response : Response} {secret : String}
    (hrefused : 400 ≤ response.status) (hrepeats : Occurs secret response.bodyText) :
    Shows (interpret username response).journal.ownTexts secret := by
  unfold interpret
  by_cases hforbidden : response.status = 403
  · rw [if_pos hforbidden]
    exact shows_event_of_occurs .warn (hrepeats.after _)
  · rw [if_neg hforbidden, if_pos hrefused]
    exact shows_event_of_occurs .error ((hrepeats.after _).before _)

section

variable [Url.International]

theorem ownTexts_authenticate (authenticator : Authenticator) (transport : Transport)
    (attempt : Attempt) :
    (authenticator.authenticate transport attempt).journal.ownTexts =
      [Journal.spanName, "flow", Flow.authenticate.label, "stage", "authenticate"] ++
        (authenticator.delegate transport attempt).journal.ownTexts := by
  unfold authenticate
  simp only [Journal.ownTexts_append]
  exact List.append_nil _

theorem shows_authenticate (transport : Transport)
    (hforeign : Foreign authenticator.provider attempt.username attempt.password) :
    Shows (authenticator.authenticate transport attempt).journal.ownTexts
        attempt.password.value <->
      Shows (authenticator.delegate transport attempt).journal.ownTexts
        attempt.password.value := by
  have hspan : ¬Shows [Journal.spanName, "flow", Flow.authenticate.label, "stage", "authenticate"]
      attempt.password.value := by
    refine hforeign.not_shows ?_
    simp [fixedTexts]
  rw [ownTexts_authenticate, shows_append, or_iff_right hspan]

/-!
# Logins
-/

theorem shows_of_permits (transport : Transport)
    (hforeign : Foreign authenticator.provider attempt.username attempt.password)
    (hpermits : Permits authenticator attempt decision) :
    Shows (authenticator.authenticate transport attempt).journal.ownTexts
        attempt.password.value <->
      Shows (decisionLines decision attempt.password) attempt.password.value ∨
        Shows (replyLines attempt.username (transport (authenticator.requestFor attempt decision)))
          attempt.password.value := by
  rw [shows_authenticate transport hforeign, delegate_journal_of_permits transport hpermits]
  simp [departed, decisionLines, shows_changes hforeign, shows_departure hforeign,
    shows_reply hforeign, or_assoc]

theorem not_shows_of_not_permits (transport : Transport)
    (hforeign : Foreign authenticator.provider attempt.username attempt.password)
    (hpermits : forall decision, ¬Permits authenticator attempt decision) :
    ¬Shows (authenticator.authenticate transport attempt).journal.ownTexts
        attempt.password.value := by
  rcases permits_or_refuses authenticator attempt with ⟨decision, h⟩ | ⟨_, error, own, hrefuses,
    hjournal, hown⟩
  · exact absurd h (hpermits decision)
  rw [shows_authenticate transport hforeign, delegate_journal_of_refuses transport hrefuses,
    hjournal]
  rcases hown with rfl | rfl <;> simp [not_shows_rejected hforeign]

theorem shows_of_refusal {response : Response} {secret : String} (transport : Transport)
    (hpermits : Permits authenticator attempt decision)
    (hanswer : transport (authenticator.requestFor attempt decision) = .ok response)
    (hrefused : 400 ≤ response.status) (hrepeats : Occurs secret response.bodyText) :
    Shows (authenticator.authenticate transport attempt).journal.ownTexts secret := by
  have hreply : Shows (Journal.ownTexts (reply attempt.username (.ok response))) secret :=
    shows_of_interpret hrefused hrepeats
  have hdeparted : Shows (authenticator.departed transport attempt decision).ownTexts secret := by
    simp [departed, hanswer, hreply]
  rw [ownTexts_authenticate, shows_append, delegate_journal_of_permits transport hpermits]
  exact Or.inr (by simp [hdeparted])

/-- A refusal that repeats the password always shows it in the log.  And these are all the ways in
which a login shows a password that is foreign to its lines: in a line about what the hook
decides, or in the line about a response that refuses the login.  Without a hook, and without a
refusal, the password shows nowhere. -/
theorem authenticate_shows_iff (authenticator : Authenticator) (transport : Transport)
    (attempt : Attempt) :
    (forall decision response, Permits authenticator attempt decision ->
      transport (authenticator.requestFor attempt decision) = .ok response ->
      400 ≤ response.status -> Occurs attempt.password.value response.bodyText ->
        Shows (authenticator.authenticate transport attempt).journal.ownTexts
          attempt.password.value) ∧
    (Foreign authenticator.provider attempt.username attempt.password ->
      (Shows (authenticator.authenticate transport attempt).journal.ownTexts
          attempt.password.value <->
        exists decision, Permits authenticator attempt decision ∧
          (Shows (decisionLines decision attempt.password) attempt.password.value ∨
            exists response,
              transport (authenticator.requestFor attempt decision) = .ok response ∧
              Shows (refusalLines attempt.username response) attempt.password.value)) ∧
      (authenticator.hook = none ->
        (forall response, transport (authenticator.requestFor attempt .unchanged) = .ok response ->
          response.status < 400) ->
        ¬Shows (authenticator.authenticate transport attempt).journal.ownTexts
          attempt.password.value)) := by
  have hreply : forall answer, Shows (replyLines attempt.username answer) attempt.password.value <->
      exists response, answer = .ok response ∧
        Shows (refusalLines attempt.username response) attempt.password.value := by
    intro answer
    cases answer with
    | error fault => simp [replyLines]
    | ok response => simp [replyLines]
  constructor
  · intro decision response hpermits hanswer hrefused hrepeats
    exact shows_of_refusal transport hpermits hanswer hrefused hrepeats
  intro hforeign
  constructor
  · constructor
    · intro hshows
      rcases permits_or_refuses authenticator attempt with ⟨decision, hpermits⟩ | ⟨hnone, _⟩
      · refine ⟨decision, hpermits, ?_⟩
        exact ((shows_of_permits transport hforeign hpermits).mp hshows).imp_right (hreply _).mp
      · exact absurd hshows (not_shows_of_not_permits transport hforeign hnone)
    · intro h
      rcases h with ⟨decision, hpermits, hlines⟩
      exact (shows_of_permits transport hforeign hpermits).mpr
        (hlines.imp_right (hreply _).mpr)
  · intro hhook hgranted hshows
    have hlines := (shows_of_permits transport hforeign (.unasked hhook)).mp hshows
    rcases hlines with hdecision | hanswer
    · exact not_shows_nil hdecision
    · rcases (hreply _).mp hanswer with ⟨response, hresponse, hrefusal⟩
      have hstatus := hgranted response hresponse
      unfold refusalLines at hrefusal
      rw [if_neg (by omega), if_neg (by omega)] at hrefusal
      exact not_shows_nil hrefusal

end

/-!
One provider that refuses a login and repeats its password, and one that grants it.
-/

attribute [local instance] Url.International.bookshop

def idpProvider : Provider where
  base := ⟨.http, [], [], .name "idp.local".toList, none, [[]], none, none⟩
  endpoint := ⟨.http, [], [], .name "idp.local".toList, none, ["authenticate".toList], none, none⟩
  parameters := Object.empty
  timeout := none

def repeating : Transport :=
  fun _ => .ok ⟨403, none, Utf8.encode "bad password s3cret-pw"⟩

def granting : Transport :=
  fun _ => .ok ⟨200, none, Utf8.encode "abc.def.ghi"⟩

theorem foreign_idpProvider : Foreign idpProvider "alice" ⟨"s3cret-pw"⟩ where
  given := by decide +kernel
  fixed := by decide +kernel

theorem authenticate_shows_iff_repeated :
    Shows ((Authenticator.mk idpProvider none).authenticate repeating
        ⟨"alice", ⟨"s3cret-pw"⟩, Object.empty⟩).journal.ownTexts "s3cret-pw" ∧
      ¬Shows ((Authenticator.mk idpProvider none).authenticate granting
        ⟨"alice", ⟨"s3cret-pw"⟩, Object.empty⟩).journal.ownTexts "s3cret-pw" := by
  constructor
  · have hrepeats : Occurs "s3cret-pw" (Utf8.lenient (Utf8.encode "bad password s3cret-pw")) := by
      decide +kernel
    exact (authenticate_shows_iff ⟨idpProvider, none⟩ repeating
      ⟨"alice", ⟨"s3cret-pw"⟩, Object.empty⟩).left .unchanged _ (.unasked rfl) rfl (by decide)
        hrepeats
  · have hgranted := ((authenticate_shows_iff ⟨idpProvider, none⟩ granting
      ⟨"alice", ⟨"s3cret-pw"⟩, Object.empty⟩).right foreign_idpProvider).right rfl
    refine hgranted ?_
    intro response hresponse
    cases hresponse
    decide

end Authenticator
end Gatekeeper
