import Gatekeeper.Proofs.Login.Journals
import Gatekeeper.Proofs.Login.Redactions

/-!
# Logins do not show which password they carry

Without a hook, two logins of one user that differ in their passwords report the
same and end the same, as long as the provider answers them alike.  Only the
member for the password in the body of the request tells them apart.
-/

namespace Gatekeeper

namespace RequestBody

open Json

def SameButPassword (one other : Object) : Prop :=
  forall key, key ≠ "password" -> one.get? key = other.get? key

theorem sameButPassword_ofParameters (parameters : Object) {one other : Attempt}
    (husername : one.username = other.username) :
    SameButPassword (ofParameters parameters one).toObject
      (ofParameters parameters other).toObject := by
  have hone := carries_ofParameters parameters one
  have hother := carries_ofParameters parameters other
  intro key hpassword
  by_cases hkey : key = "username"
  · rw [hkey, hone.username, hother.username, husername]
  · rw [hone.others key hkey hpassword, hother.others key hkey hpassword]

end RequestBody

namespace Authenticator

open Json RequestBody

def plainRequest (provider : Provider) (attempt : Attempt) : Request :=
  Request.post provider.endpoint (ofParameters provider.parameters attempt).payload

def plainJournal (provider : Provider) (username : String)
    (answer : Except TransportFault Response) : Journal :=
  [event .info ("authenticating user " ++ username),
    event .debug ("authentication request: " ++
      Object.text (shown provider.parameters username))] ++ reply username answer

theorem delegate_of_unseen [Url.International] {provider : Provider} {attempt : Attempt}
    (transport : Transport)
    (hunseen : Unseen provider.parameters attempt.username attempt.password) :
    (Authenticator.mk provider none).delegate transport attempt =
      ⟨((transport (plainRequest provider attempt)).mapError .transport).bind
          (conclude .unchanged attempt.username),
        plainJournal provider attempt.username (transport (plainRequest provider attempt)),
        [plainRequest provider attempt]⟩ := by
  have hpermits : Permits ⟨provider, none⟩ attempt .unchanged := .unasked rfl
  rcases delegate_of_permits transport hpermits with ⟨hrequests, hresult⟩
  have hjournal := delegate_journal_of_permits transport hpermits
  have hshown : departure attempt.username (ofParameters provider.parameters attempt)
      attempt.password =
        [event .info ("authenticating user " ++ attempt.username),
          event .debug ("authentication request: " ++
            Object.text (shown provider.parameters attempt.username))] := by
    unfold departure
    rw [redacted_ofParameters hunseen]
  have hown : (Authenticator.mk provider none).departed transport attempt .unchanged =
      plainJournal provider attempt.username (transport (plainRequest provider attempt)) :=
    congrArg (· ++ reply attempt.username (transport (plainRequest provider attempt))) hshown
  rw [hown] at hjournal
  -- The three parts of the run are known; only then is it a run with these parts.
  generalize (Authenticator.mk provider none).delegate transport attempt = run at *
  rcases run with ⟨result, journal, requests⟩
  simp only at hrequests hresult hjournal
  rw [hrequests, hresult, hjournal]
  rfl

/-- The runs of logins with two passwords do not show which is which: they report the same and end
the same.  The one request that each sends differs in its body only, where each carries its
password. -/
structure Alike (one other : Password) (run run' : Run Outcome) : Prop where
  result : run.result = run'.result
  journal : run.journal = run'.journal
  requests : exists (request : Request) (o o' : Object),
    run.requests = [{ request with body := Object.bytes o }] ∧
      run'.requests = [{ request with body := Object.bytes o' }] ∧
      o.get? "password" = some (.string one.value) ∧
      o'.get? "password" = some (.string other.value) ∧
      SameButPassword o o'

/-- Without a hook, the runs of a user with two passwords that go unseen are alike, if the answers
to their requests are. -/
theorem authenticate_alike [Url.International] (provider : Provider) (transport : Transport)
    (username : String) (one other : Password) (additional : Object)
    (hone : Unseen provider.parameters username one)
    (hother : Unseen provider.parameters username other)
    (hanswers : forall request request',
      request ∈ ((Authenticator.mk provider none).authenticate transport
        ⟨username, one, additional⟩).requests ->
      request' ∈ ((Authenticator.mk provider none).authenticate transport
        ⟨username, other, additional⟩).requests ->
      transport request = transport request') :
    Alike one other
      ((Authenticator.mk provider none).authenticate transport ⟨username, one, additional⟩)
      ((Authenticator.mk provider none).authenticate transport ⟨username, other, additional⟩) := by
  unfold authenticate at *
  rw [delegate_of_unseen transport hone, delegate_of_unseen transport hother] at hanswers ⊢
  have hanswer := hanswers _ _ (List.mem_singleton_self _) (List.mem_singleton_self _)
  constructor
  · simp only [hanswer]
  · simp only [hanswer]
  · exact ⟨plainRequest provider ⟨username, one, additional⟩, _, _, rfl, rfl,
      (carries_ofParameters provider.parameters ⟨username, one, additional⟩).password,
      (carries_ofParameters provider.parameters ⟨username, other, additional⟩).password,
      sameButPassword_ofParameters provider.parameters rfl⟩

/-!
A provider that refuses a user, with a parameter that has a string inside.
-/

attribute [local instance] Url.International.bookshop

def staffProvider : Provider where
  base := ⟨.http, [], [], .name "idp.local".toList, none, [[]], none, none⟩
  endpoint := ⟨.http, [], [], .name "idp.local".toList, none, ["authenticate".toList], none, none⟩
  parameters := .ofMembers [("groups", .array [.string "staff"])]
  timeout := none

def refusing : Transport :=
  fun _ => .ok ⟨403, none, []⟩

theorem unseen_staffProvider : Unseen staffProvider.parameters "alice" ⟨"s3cret-pw"⟩ := by
  refine Or.inr ?_
  decide +kernel

theorem authenticate_alike_refused :
    Alike ⟨"s3cret-pw"⟩ ⟨""⟩
      ((Authenticator.mk staffProvider none).authenticate refusing
        ⟨"alice", ⟨"s3cret-pw"⟩, Object.empty⟩)
      ((Authenticator.mk staffProvider none).authenticate refusing
        ⟨"alice", ⟨""⟩, Object.empty⟩) :=
  authenticate_alike staffProvider refusing "alice" ⟨"s3cret-pw"⟩ ⟨""⟩ Object.empty
    unseen_staffProvider (Or.inl rfl) fun _ _ _ _ => rfl

end Authenticator
end Gatekeeper
