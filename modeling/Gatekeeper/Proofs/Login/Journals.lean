import Gatekeeper.Proofs.Login.Delegation

/-!
# Journals of logins

What a login reports, in order: what the hook notes and changes, the departure of
the request, and what the provider answers.  None of it is a counter but for the two of
the login itself.
-/

namespace Gatekeeper

namespace Journal

@[simp] theorem counters_nil : counters [] = [] := rfl

@[simp] theorem counters_span (flow : Flow) (stage : String) (journal : Journal) :
    counters (.span flow stage :: journal) = journal.counters := rfl

@[simp] theorem counters_event (logged : Event) (journal : Journal) :
    counters (.event logged :: journal) = journal.counters := rfl

@[simp] theorem counters_count (counter : Counter) (journal : Journal) :
    counters (.count counter :: journal) = counter :: journal.counters := rfl

@[simp] theorem counters_append (journal more : Journal) :
    counters (journal ++ more) = journal.counters ++ more.counters := by
  unfold counters
  rw [List.filterMap_append]

theorem counters_eq_nil {journal : Journal}
    (hevents : forall observation, observation ∈ journal ->
      exists event, observation = .event event) : journal.counters = [] := by
  unfold counters
  apply List.filterMap_eq_nil_iff.mpr
  intro observation hmem
  rcases hevents observation hmem with ⟨event, rfl⟩
  rfl

end Journal

namespace Authenticator

open Json

variable {authenticator : Authenticator} {attempt : Attempt} {decision : Decision}

def hookNotes (authenticator : Authenticator) (attempt : Attempt) : Journal :=
  (authenticator.hook.map fun hook => (hook.notes attempt).map hookNote).getD []

def reply (username : String) : Except TransportFault Response → Journal
  | .ok response => (interpret username response).journal
  | .error _ => []

section

variable [Url.International]

theorem consult_of_unasked (hhook : authenticator.hook = none) :
    authenticator.consult attempt = ⟨.ok .unchanged, [], []⟩ := by
  unfold consult
  rw [hhook]
  rfl

def outcomeNotes (attempt : Attempt) : Except HookFault (Option Decision) → Journal
  | .ok (some decision) => changes decision attempt.password
  | .ok none => [rejected attempt.username]
  | .error _ => []

theorem consult_journal_of_output {hook : Hook} {output : Value}
    (hhook : authenticator.hook = some hook) (houtput : hook.output attempt = .ok output) :
    (authenticator.consult attempt).journal =
      authenticator.hookNotes attempt ++ outcomeNotes attempt (Decision.ofOutput output) := by
  cases hread : Decision.ofOutput output with
  | error fault => simp [consult, hookNotes, hhook, houtput, hread, outcomeNotes, Run.fail]
  | ok found =>
      cases found <;>
        simp [consult, hookNotes, hhook, houtput, hread, outcomeNotes, Run.yield, Run.fail]

theorem consult_journal_of_permits (hpermits : Permits authenticator attempt decision) :
    (authenticator.consult attempt).journal =
      authenticator.hookNotes attempt ++ changes decision attempt.password := by
  cases hpermits with
  | unasked hhook =>
      rw [consult_of_unasked hhook]
      unfold hookNotes
      rw [hhook]
      rfl
  | accepted hhook houtput hdescribes =>
      rw [consult_journal_of_output hhook houtput,
        (Decision.ofOutput_eq_some_iff _ decision).mpr ⟨_, rfl, hdescribes⟩]
      rfl

theorem permits_iff {hook : Hook} (hhook : authenticator.hook = some hook) :
    Permits authenticator attempt decision <->
      exists output, hook.output attempt = .ok output ∧
        Decision.ofOutput output = .ok (some decision) := by
  constructor
  · intro hpermits
    cases hpermits with
    | unasked hnone =>
        rw [hhook] at hnone
        cases hnone
    | accepted hsome houtput hdescribes =>
        rw [hhook] at hsome
        cases hsome
        exact ⟨_, houtput, (Decision.ofOutput_eq_some_iff _ decision).mpr ⟨_, rfl, hdescribes⟩⟩
  · intro h
    rcases h with ⟨output, houtput, hread⟩
    rcases (Decision.ofOutput_eq_some_iff output decision).mp hread with ⟨members, rfl, hdescribes⟩
    exact .accepted hhook houtput hdescribes

theorem not_permits_of_output {hook : Hook} {output : Value}
    (hhook : authenticator.hook = some hook) (houtput : hook.output attempt = .ok output)
    (hread : Decision.ofOutput output ≠ .ok (some decision)) :
    ¬Permits authenticator attempt decision := by
  intro hpermits
  rcases (permits_iff hhook).mp hpermits with ⟨other, hother, hsome⟩
  rw [houtput] at hother
  cases hother
  exact hread hsome

/-- A login that is not permitted ends with the hook, and at most the refusal is reported. -/
theorem permits_or_refuses (authenticator : Authenticator) (attempt : Attempt) :
    (exists decision, Permits authenticator attempt decision) ∨
      (forall decision, ¬Permits authenticator attempt decision) ∧
      exists error own, (authenticator.consult attempt).Refuses error ∧
        (authenticator.consult attempt).journal = authenticator.hookNotes attempt ++ own ∧
        (own = [] ∨ own = [rejected attempt.username]) := by
  cases hhook : authenticator.hook with
  | none => exact Or.inl ⟨.unchanged, .unasked hhook⟩
  | some hook =>
      cases houtput : hook.output attempt with
      | error fault =>
          refine Or.inr ⟨?_, .hook fault, [], consult_of_failed hhook houtput, ?_, Or.inl rfl⟩
          · intro decision hpermits
            rcases (permits_iff hhook).mp hpermits with ⟨output, hok, _⟩
            rw [houtput] at hok
            cases hok
          · unfold consult hookNotes
            rw [hhook]
            simp only [houtput]
            rfl
      | ok output =>
          have hjournal := consult_journal_of_output hhook houtput
          cases hread : Decision.ofOutput output with
          | error fault =>
              rw [hread] at hjournal
              exact Or.inr ⟨fun _ => not_permits_of_output hhook houtput (by simp [hread]),
                .hook fault, _, consult_refuses hhook houtput (congrArg settled hread), hjournal,
                Or.inl rfl⟩
          | ok found =>
              cases found with
              | some decision =>
                  exact Or.inl ⟨decision, (permits_iff hhook).mpr ⟨output, houtput, hread⟩⟩
              | none =>
                  rw [hread] at hjournal
                  exact Or.inr ⟨fun _ => not_permits_of_output hhook houtput (by simp [hread]),
                    .invalidCredentials, _,
                    consult_refuses hhook houtput (congrArg settled hread), hjournal, Or.inr rfl⟩

end

/-!
# Whole logins
-/

def departed (authenticator : Authenticator) (transport : Transport) (attempt : Attempt)
    (decision : Decision) : Journal :=
  departure attempt.username (authenticator.requestBody decision attempt) attempt.password
    ++ reply attempt.username (transport (authenticator.requestFor attempt decision))

section

variable [Url.International]

theorem delegate_journal_of_permits (transport : Transport)
    (hpermits : Permits authenticator attempt decision) :
    (authenticator.delegate transport attempt).journal =
      authenticator.hookNotes attempt ++ changes decision attempt.password
        ++ authenticator.departed transport attempt decision := by
  rw [← consult_journal_of_permits hpermits]
  unfold delegate departed requestFor
  rw [Run.bind_of_ok (consult_of_permits hpermits).left]
  cases hsent : transport (Request.post (authenticator.requestUrl decision)
      (authenticator.requestBody decision attempt).payload) with
  | error fault => simp [Run.send, hsent, reply]
  | ok response =>
      cases hinterpret : (interpret attempt.username response).result with
      | error error => simp [Run.send, hsent, reply, Run.bind_of_error hinterpret]
      | ok token => simp [Run.send, hsent, reply, Run.bind_of_ok hinterpret, Run.yield]

theorem delegate_journal_of_refuses {error : Error} (transport : Transport)
    (hrefuses : (authenticator.consult attempt).Refuses error) :
    (authenticator.delegate transport attempt).journal =
      (authenticator.consult attempt).journal := by
  unfold delegate
  rw [Run.bind_of_error hrefuses.result]

end

/-!
# Counters of a login
-/

@[simp] theorem counters_hookNotes (authenticator : Authenticator) (attempt : Attempt) :
    (authenticator.hookNotes attempt).counters = [] := by
  apply Journal.counters_eq_nil
  intro observation hmem
  unfold hookNotes at hmem
  cases hhook : authenticator.hook with
  | none =>
      rw [hhook] at hmem
      cases hmem
  | some hook =>
      rw [hhook, Option.map_some, Option.getD_some, List.mem_map] at hmem
      rcases hmem with ⟨message, _, rfl⟩
      exact ⟨_, rfl⟩

@[simp] theorem counters_changes (decision : Decision) (password : Password) :
    (changes decision password).counters = [] := by
  unfold changes
  cases decision.body <;> cases decision.url <;> cases decision.applications <;> rfl

@[simp] theorem counters_interpret (username : String) (response : Response) :
    (interpret username response).journal.counters = [] := by
  unfold interpret
  split
  · rfl
  split
  · rfl
  split
  · rfl
  split
  · rfl
  · rfl

@[simp] theorem counters_reply (username : String) (received : Except TransportFault Response) :
    (reply username received).counters = [] := by
  cases received with
  | error fault => rfl
  | ok response => exact counters_interpret username response

theorem counters_delegate [Url.International] (authenticator : Authenticator)
    (transport : Transport) (attempt : Attempt) :
    (authenticator.delegate transport attempt).journal.counters = [] := by
  rcases permits_or_refuses authenticator attempt with
    ⟨decision, hpermits⟩ | ⟨_, error, own, hrefuses, hjournal, hown⟩
  · rw [delegate_journal_of_permits transport hpermits]
    simp [departed, departure, event]
  · rw [delegate_journal_of_refuses transport hrefuses, hjournal]
    rcases hown with rfl | rfl <;> simp [rejected]

@[simp] theorem counters_authenticate [Url.International] (authenticator : Authenticator)
    (transport : Transport) (attempt : Attempt) :
    (authenticator.authenticate transport attempt).journal.counters =
      [.flow .authenticate .attempt,
        .flow .authenticate
          (flowOutcome (authenticator.authenticate transport attempt).result)] := by
  simp [authenticate, counters_delegate]

end Authenticator
end Gatekeeper
