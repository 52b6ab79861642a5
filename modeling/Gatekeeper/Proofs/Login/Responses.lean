import Gatekeeper.Login.Authenticator
import Gatekeeper.Proofs.Json.Tameness
import Gatekeeper.Proofs.Text.Mending

/-!
# What a response says

Each response of the provider has one meaning, which its status, its content type
and its body tell.  A token is issued only where the status is no failure and asks
for nothing more, and it is the body.
-/

namespace Gatekeeper

namespace Response

/-- The content type of a response; without one it is empty. -/
def ReportsType (response : Response) (contentType : String) : Prop :=
  response.contentType = some contentType ∨ (response.contentType = none ∧ contentType = "")

/-- A response with a content type that says JSON, whatever comes after that. -/
def SaysJson (response : Response) : Prop :=
  exists contentType, response.ReportsType contentType ∧
    "application/json".toList <+: contentType.toList

def Gives (response : Response) (o : Json.Object) : Prop :=
  exists rest, Json.Reader.value Json.Reader.depthLimit response.body = .ok (.object o.members) rest

end Response

namespace Authenticator

variable {username : String} {response : Response}

inductive Means (username : String) (response : Response) : Except Error BearerToken -> Prop
  | forbidden (hstatus : response.status = 403) :
      Means username response (.error .invalidCredentials)
  | failed {body : String} (hstatus : 400 ≤ response.status ∧ response.status ≠ 403)
      (hbody : Utf8.Mends response.body body.toList) :
      Means username response (.error (.delegation response.status username body))
  | untyped {contentType : String} (hstatus : response.status = 202)
      (htype : response.ReportsType contentType) (hjson : ¬response.SaysJson) :
      Means username response (.error (.unexpectedContentType contentType))
  | partly {o : Json.Object} (hstatus : response.status = 202) (hjson : response.SaysJson)
      (hgives : response.Gives o) : Means username response (.error (.incomplete o))
  | garbled {reason : String} (hstatus : response.status = 202) (hjson : response.SaysJson)
      (hgives : forall o, ¬response.Gives o) :
      Means username response (.error (.malformedResponse reason))
  | undecodable {reason : String} (hstatus : response.status < 400 ∧ response.status ≠ 202)
      (hbody : forall text, response.body ≠ Utf8.encode text) :
      Means username response (.error (.malformedResponse reason))
  | issued {token : BearerToken} (hstatus : response.status < 400 ∧ response.status ≠ 202)
      (hbody : response.body = Utf8.encode token.value) : Means username response (.ok token)

theorem reportsType_iff {contentType : String} :
    response.ReportsType contentType <-> contentType = response.contentType.getD "" := by
  unfold Response.ReportsType
  cases response.contentType with
  | none => simp
  | some found => simp [eq_comm]

theorem saysJson_iff :
    response.SaysJson <->
      contentTypeJson.toList.isPrefixOf (response.contentType.getD "").toList = true := by
  unfold Response.SaysJson
  simp only [reportsType_iff, exists_eq_left, List.isPrefixOf_iff_prefix]
  exact Iff.rfl

theorem means_incomplete (hstatus : response.status = 202) :
    Means username response (.error (incomplete response)) := by
  unfold incomplete
  by_cases hjson : response.SaysJson
  · simp only [saysJson_iff.mp hjson, if_true]
    split
    · rename_i o hread
      rcases Json.Reader.outcome_eq_ok.mp hread with ⟨rest, hobject⟩
      exact Means.partly hstatus hjson ⟨rest, Json.Reader.object_eq_ok_iff.mp hobject⟩
    · rename_i failure hread
      refine Means.garbled hstatus hjson fun o hgives => ?_
      rcases hgives with ⟨rest, hvalue⟩
      have hobject := Json.Reader.object_eq_ok_iff.mpr hvalue
      rw [Json.Reader.outcome_eq_ok.mpr ⟨rest, hobject⟩] at hread
      cases hread
  · simp only [if_neg fun hprefix => hjson (saysJson_iff.mpr hprefix)]
    exact Means.untyped hstatus (reportsType_iff.mpr rfl) hjson

theorem means_interpret (username : String) (response : Response) :
    Means username response (interpret username response).result := by
  unfold interpret
  by_cases hforbidden : response.status = 403
  · rw [if_pos hforbidden]
    exact Means.forbidden hforbidden
  rw [if_neg hforbidden]
  by_cases hfailed : 400 ≤ response.status
  · rw [if_pos hfailed]
    exact Means.failed ⟨hfailed, hforbidden⟩ (Utf8.lenient_eq_iff.mp rfl)
  rw [if_neg hfailed]
  by_cases hpartial : response.status = 202
  · rw [if_pos hpartial]
    exact means_incomplete hpartial
  rw [if_neg hpartial]
  have hstatus : response.status < 400 ∧ response.status ≠ 202 :=
    ⟨Nat.lt_of_not_le hfailed, hpartial⟩
  split
  · rename_i text hdecode
    exact Means.issued hstatus (Utf8.decode_eq_ok.mp hdecode)
  · rename_i fault hdecode
    refine Means.undecodable hstatus fun text hbody => ?_
    rw [Utf8.decode_eq_ok.mpr hbody] at hdecode
    cases hdecode

theorem mended_unique {one other : String} (hone : Utf8.Mends response.body one.toList)
    (hother : Utf8.Mends response.body other.toList) : one = other :=
  (Utf8.lenient_eq_iff.mpr hone).symm.trans (Utf8.lenient_eq_iff.mpr hother)

theorem gives_unique {o other : Json.Object} (hgives : response.Gives o)
    (hother : response.Gives other) : o = other := by
  rcases hgives with ⟨rest, hread⟩
  rcases hother with ⟨rest', hread'⟩
  rw [hread] at hread'
  injection hread' with hvalue
  injection hvalue with hmembers
  exact Json.Object.ext hmembers

def BothMalformed (one other : Except Error BearerToken) : Prop :=
  exists reason because, one = .error (.malformedResponse reason) ∧
    other = .error (.malformedResponse because)

theorem Means.unique {one other : Except Error BearerToken} (hone : Means username response one)
    (hother : Means username response other) : one = other ∨ BothMalformed one other := by
  cases hone with
  | forbidden hstatus =>
      cases hother with
      | forbidden => exact Or.inl rfl
      | _ => omega
  | failed hstatus hbody =>
      cases hother with
      | failed _ hbody' =>
          rw [mended_unique hbody hbody']
          exact Or.inl rfl
      | _ => omega
  | untyped hstatus htype hjson =>
      cases hother with
      | untyped _ htype' =>
          rw [reportsType_iff.mp htype, reportsType_iff.mp htype']
          exact Or.inl rfl
      | partly _ hsays => exact absurd hsays hjson
      | garbled _ hsays => exact absurd hsays hjson
      | _ => omega
  | partly hstatus hjson hgives =>
      cases hother with
      | untyped _ _ hnot => exact absurd hjson hnot
      | partly _ _ hgives' =>
          rw [gives_unique hgives hgives']
          exact Or.inl rfl
      | garbled _ _ hnone => exact absurd hgives (hnone _)
      | _ => omega
  | garbled hstatus hjson hnone =>
      cases hother with
      | untyped _ _ hnot => exact absurd hjson hnot
      | partly _ _ hgives => exact absurd hgives (hnone _)
      | garbled => exact Or.inr ⟨_, _, rfl, rfl⟩
      | _ => omega
  | undecodable hstatus hnone =>
      cases hother with
      | undecodable => exact Or.inr ⟨_, _, rfl, rfl⟩
      | issued _ hbody => exact absurd hbody (hnone _)
      | _ => omega
  | @issued token hstatus hbody =>
      cases hother with
      | undecodable _ hnone => exact absurd hbody (hnone _)
      | @issued other _ hbody' =>
          have hsame : token.value = other.value := Utf8.encode_injective (hbody ▸ hbody')
          cases token
          cases other
          cases hsame
          exact Or.inl rfl
      | _ => omega

theorem interpret_eq_iff {result : Except Error BearerToken}
    (hclear : forall reason, result ≠ .error (.malformedResponse reason)) :
    (interpret username response).result = result <-> Means username response result := by
  constructor
  · rintro rfl
    exact means_interpret username response
  · intro hmeans
    rcases (means_interpret username response).unique hmeans with hsame | ⟨_, reason, _, hreason⟩
    · exact hsame
    · exact absurd hreason (hclear reason)

theorem malformed_iff :
    (exists reason, (interpret username response).result = .error (.malformedResponse reason)) <->
      exists reason, Means username response (.error (.malformedResponse reason)) := by
  have hmeans := means_interpret username response
  constructor
  · rintro ⟨reason, hresult⟩
    exact ⟨reason, hresult ▸ hmeans⟩
  · rintro ⟨reason, hother⟩
    rcases hmeans.unique hother with hsame | ⟨because, _, hbecause, _⟩
    · exact ⟨reason, hsame⟩
    · exact ⟨because, hbecause⟩

/-- A response means what its status, its content type and its body say, and nothing else. -/
theorem interpret_by_response (username : String) (response : Response) :
    ((interpret username response).result = .error .invalidCredentials <->
        response.status = 403) ∧
      (forall status name body,
        (interpret username response).result = .error (.delegation status name body) <->
          (400 ≤ response.status ∧ response.status ≠ 403) ∧ status = response.status ∧
            name = username ∧ Utf8.Mends response.body body.toList) ∧
      (forall contentType,
        (interpret username response).result = .error (.unexpectedContentType contentType) <->
          response.status = 202 ∧ response.ReportsType contentType ∧ ¬response.SaysJson) ∧
      (forall o, (interpret username response).result = .error (.incomplete o) <->
        response.status = 202 ∧ response.SaysJson ∧ response.Gives o) ∧
      ((exists reason, (interpret username response).result = .error (.malformedResponse reason)) <->
        (response.status = 202 ∧ response.SaysJson ∧ forall o, ¬response.Gives o) ∨
          ((response.status < 400 ∧ response.status ≠ 202) ∧
            forall text, response.body ≠ Utf8.encode text)) ∧
      forall token, (interpret username response).result = .ok token <->
        (response.status < 400 ∧ response.status ≠ 202) ∧
          response.body = Utf8.encode token.value := by
  refine ⟨?_, fun status name body => ?_, fun contentType => ?_, fun o => ?_, ?_, fun token => ?_⟩
  · rw [interpret_eq_iff (by simp)]
    constructor
    · intro hmeans
      cases hmeans with
      | forbidden hstatus => exact hstatus
    · exact Means.forbidden
  · rw [interpret_eq_iff (by simp)]
    constructor
    · intro hmeans
      cases hmeans with
      | failed hstatus hbody => exact ⟨hstatus, rfl, rfl, hbody⟩
    · rintro ⟨hstatus, rfl, rfl, hbody⟩
      exact Means.failed hstatus hbody
  · rw [interpret_eq_iff (by simp)]
    constructor
    · intro hmeans
      cases hmeans with
      | untyped hstatus htype hjson => exact ⟨hstatus, htype, hjson⟩
    · rintro ⟨hstatus, htype, hjson⟩
      exact Means.untyped hstatus htype hjson
  · rw [interpret_eq_iff (by simp)]
    constructor
    · intro hmeans
      cases hmeans with
      | partly hstatus hjson hgives => exact ⟨hstatus, hjson, hgives⟩
    · rintro ⟨hstatus, hjson, hgives⟩
      exact Means.partly hstatus hjson hgives
  · rw [malformed_iff]
    constructor
    · rintro ⟨reason, hmeans⟩
      cases hmeans with
      | garbled hstatus hjson hgives => exact Or.inl ⟨hstatus, hjson, hgives⟩
      | undecodable hstatus hbody => exact Or.inr ⟨hstatus, hbody⟩
    · rintro (⟨hstatus, hjson, hgives⟩ | ⟨hstatus, hbody⟩)
      · exact ⟨"", Means.garbled hstatus hjson hgives⟩
      · exact ⟨"", Means.undecodable hstatus hbody⟩
  · rw [interpret_eq_iff (by simp)]
    constructor
    · intro hmeans
      cases hmeans with
      | issued hstatus hbody => exact ⟨hstatus, hbody⟩
    · rintro ⟨hstatus, hbody⟩
      exact Means.issued hstatus hbody

end Authenticator
end Gatekeeper
