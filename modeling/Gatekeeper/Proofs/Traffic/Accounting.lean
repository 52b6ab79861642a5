import Gatekeeper.Proofs.Cache.Checks
import Gatekeeper.Proofs.Login.Journals
import Gatekeeper.Proofs.Traffic.Occurrences

/-!
# The counters are right

Whatever happens to a gateway, its counters say how many calls there were and how they
ended, what the look-ups found, and how often the verifiers were asked.  Each call
raises counters of its own, and what its verifier does in between is balanced by
itself; so the sum over a run is.
-/

namespace Gatekeeper

/-!
# Kinds of calls
-/

namespace Receipt

def flow : Receipt → Flow
  | login _ => .authenticate
  | check .. => .tokenCheck

def isGranted : Receipt → Bool
  | login (.ok _) => true
  | check _ _ (.ok (some _)) => true
  | _ => false

def error? : Receipt → Option Error
  | login (.error error) => some error
  | check _ _ (.error error) => some error
  | _ => none

def isDenied : Receipt → Bool
  | check _ _ (.ok none) => true
  | receipt => receipt.error?.any fun error => error.isInvalidCredentials || error.isIncomplete

def isFailed (receipt : Receipt) : Bool :=
  receipt.error?.any fun error => !(error.isInvalidCredentials || error.isIncomplete)

def isRead : Receipt → Bool
  | login _ => false
  | check read _ _ => read.isOk

/-- The first look-up that was counted between the beginning and the end of a check. -/
def lookup? : Receipt → Option Lookup
  | login _ => none
  | check _ report _ => report.counters.findSome? fun
    | .lookup result => some result
    | .flow .. => none

structure Ends (receipt : Receipt) (outcome : FlowOutcome) : Prop where
  granted : receipt.isGranted = decide (outcome = .success)
  denied : receipt.isDenied = decide (outcome = .denied)
  failed : receipt.isFailed = decide (outcome = .failure)
  ended : outcome ≠ .attempt

theorem ends_login (result : Except Error Outcome) :
    (login result).Ends (Authenticator.flowOutcome result) := by
  cases result with
  | ok outcome => exact ⟨rfl, rfl, rfl, nofun⟩
  | error error =>
      cases error with
      | invalidCredentials => exact ⟨rfl, rfl, rfl, nofun⟩
      | incomplete additional => exact ⟨rfl, rfl, rfl, nofun⟩
      | _ => exact ⟨rfl, rfl, rfl, nofun⟩

theorem ends_check (read : Except ReadFault BearerToken) (report : Journal) {answer : Answer}
    (hfailure : forall error, answer = .error error ->
      (exists fault, error = .tokenRead fault) ∨ exists refusal, error = .verification refusal) :
    (check read report answer).Ends (Check.flowOutcome answer) := by
  cases answer with
  | ok found =>
      cases found with
      | some token => exact ⟨rfl, rfl, rfl, nofun⟩
      | none => exact ⟨rfl, rfl, rfl, nofun⟩
  | error error =>
      rcases hfailure error rfl with ⟨fault, rfl⟩ | ⟨refusal, rfl⟩
      · exact ⟨rfl, rfl, rfl, nofun⟩
      · exact ⟨rfl, rfl, rfl, nofun⟩

end Receipt

/-!
# Balance
-/

def Tallies (counters : List Counter) (receipts : List Receipt) (counter : Counter)
    (fits : Receipt → Bool) : Prop :=
  counters.count counter = receipts.countP fits

theorem Tallies.append {counters more : List Counter} {receipts others : List Receipt}
    {counter : Counter} {fits : Receipt → Bool} (htallies : Tallies counters receipts counter fits)
    (hmore : Tallies more others counter fits) :
    Tallies (counters ++ more) (receipts ++ others) counter fits := by
  unfold Tallies at *
  rw [List.count_append, List.countP_append, htallies, hmore]

theorem Tallies.perm {counters more : List Counter} {receipts others : List Receipt}
    {counter : Counter} {fits : Receipt → Bool} (htallies : Tallies counters receipts counter fits)
    (hcounters : counters.Perm more) (hreceipts : receipts.Perm others) :
    Tallies more others counter fits := by
  unfold Tallies at *
  rw [← hcounters.count_eq, ← hreceipts.countP_eq, htallies]

/-- The counters that were raised in a run fit the calls that came to their end in it, and the
number of questions to verifiers. -/
structure Balance (counters : List Counter) (receipts : List Receipt) (asked : Nat) : Prop where
  attempts : forall flow, Tallies counters receipts (.flow flow .attempt) fun receipt =>
    receipt.flow = flow
  successes : forall flow, Tallies counters receipts (.flow flow .success) fun receipt =>
    receipt.flow = flow ∧ receipt.isGranted
  denials : forall flow, Tallies counters receipts (.flow flow .denied) fun receipt =>
    receipt.flow = flow ∧ receipt.isDenied
  failures : forall flow, Tallies counters receipts (.flow flow .failure) fun receipt =>
    receipt.flow = flow ∧ receipt.isFailed
  outcomes : forall flow, counters.count (.flow flow .attempt) =
    counters.count (.flow flow .success) + counters.count (.flow flow .denied) +
      counters.count (.flow flow .failure)
  lookups : forall result, Tallies counters receipts (.lookup result) fun receipt =>
    receipt.lookup? = some result
  reads : counters.count (.lookup .hit) + counters.count (.lookup .miss) +
    counters.count (.lookup .stale) = receipts.countP fun receipt => receipt.isRead
  questions : counters.count (.lookup .miss) + counters.count (.lookup .stale) = asked
  hits : forall receipt, receipt ∈ receipts -> receipt.lookup? = some .hit ->
    exists token report, receipt = .check (.ok token) report (.ok (some token))

namespace Balance

variable {counters more : List Counter} {receipts others : List Receipt} {asked again : Nat}

theorem nil : Balance [] [] 0 where
  attempts := fun _ => rfl
  successes := fun _ => rfl
  denials := fun _ => rfl
  failures := fun _ => rfl
  outcomes := fun _ => rfl
  lookups := fun _ => rfl
  reads := rfl
  questions := rfl
  hits := nofun

theorem append (hbalance : Balance counters receipts asked) (hmore : Balance more others again) :
    Balance (counters ++ more) (receipts ++ others) (asked + again) where
  attempts := fun flow => (hbalance.attempts flow).append (hmore.attempts flow)
  successes := fun flow => (hbalance.successes flow).append (hmore.successes flow)
  denials := fun flow => (hbalance.denials flow).append (hmore.denials flow)
  failures := fun flow => (hbalance.failures flow).append (hmore.failures flow)
  outcomes := by
    intro flow
    have hfirst := hbalance.outcomes flow
    have hsecond := hmore.outcomes flow
    simp only [List.count_append]
    omega
  lookups := fun result => (hbalance.lookups result).append (hmore.lookups result)
  reads := by
    have hfirst := hbalance.reads
    have hsecond := hmore.reads
    simp only [List.count_append, List.countP_append]
    omega
  questions := by
    have hfirst := hbalance.questions
    have hsecond := hmore.questions
    simp only [List.count_append]
    omega
  hits := by
    intro receipt hmem
    rcases List.mem_append.mp hmem with hfirst | hsecond
    · exact hbalance.hits receipt hfirst
    · exact hmore.hits receipt hsecond

theorem perm (hbalance : Balance counters receipts asked) (hcounters : counters.Perm more)
    (hreceipts : receipts.Perm others) : Balance more others asked where
  attempts := fun flow => (hbalance.attempts flow).perm hcounters hreceipts
  successes := fun flow => (hbalance.successes flow).perm hcounters hreceipts
  denials := fun flow => (hbalance.denials flow).perm hcounters hreceipts
  failures := fun flow => (hbalance.failures flow).perm hcounters hreceipts
  outcomes := by
    intro flow
    simp only [← hcounters.count_eq, hbalance.outcomes]
  lookups := fun result => (hbalance.lookups result).perm hcounters hreceipts
  reads := by
    simp only [← hcounters.count_eq, ← hreceipts.countP_eq, hbalance.reads]
  questions := by
    simp only [← hcounters.count_eq, hbalance.questions]
  hits := fun receipt hmem => hbalance.hits receipt (hreceipts.mem_iff.mpr hmem)

end Balance

/-!
# One call
-/

namespace Receipt

def counters (receipt : Receipt) (looked : Option Lookup) (outcome : FlowOutcome) :
    List Counter :=
  .flow receipt.flow .attempt :: (looked.map Counter.lookup).toList ++
    [.flow receipt.flow outcome]

def questions : Option Lookup → Nat
  | some .miss | some .stale => 1
  | some .hit | none => 0

theorem balance {receipt : Receipt} {looked : Option Lookup} {outcome : FlowOutcome}
    (hends : receipt.Ends outcome) (hlooked : receipt.lookup? = looked)
    (hread : receipt.isRead = looked.isSome)
    (hhit : looked = some .hit ->
      exists token report, receipt = .check (.ok token) report (.ok (some token))) :
    Balance (receipt.counters looked outcome) [receipt] (questions looked) where
  attempts := by
    intro flow
    cases looked <;> simp [Tallies, counters, List.count_cons, hends.ended]
  successes := by
    intro flow
    cases looked <;> simp [Tallies, counters, List.count_cons, hends.granted]
  denials := by
    intro flow
    cases looked <;> simp [Tallies, counters, List.count_cons, hends.denied]
  failures := by
    intro flow
    cases looked <;> simp [Tallies, counters, List.count_cons, hends.failed]
  outcomes := by
    intro flow
    have hended := hends.ended
    cases looked <;> cases outcome <;> simp [counters, List.count_cons] at hended ⊢
  lookups := by
    intro result
    cases looked <;> simp [Tallies, counters, List.count_cons, hlooked]
  reads := by
    cases looked with
    | none => simp [counters, hread]
    | some result => cases result <;> simp [counters, hread]
  questions := by
    cases looked with
    | none => simp [counters, questions]
    | some result => cases result <;> simp [counters, questions]
  hits := by
    intro other hmem hother
    rw [List.mem_singleton.mp hmem] at hother ⊢
    exact hhit (hlooked.symm.trans hother)

end Receipt

namespace Occurrence

/-!
# What is added to a world
-/

structure Adds (before after : World Ledger) (journal : Journal) (receipts : List Receipt)
    (asked : List BearerToken) : Prop where
  journal : after.journal = before.journal ++ journal
  receipts : after.outside.receipts = before.outside.receipts ++ receipts
  asked : after.outside.asked = before.outside.asked ++ asked

theorem Adds.noted {before after : World Ledger} {journal : Journal}
    (hjournal : after.journal = before.journal ++ journal)
    (houtside : after.outside = before.outside) : Adds before after journal [] [] where
  journal := hjournal
  receipts := by rw [houtside, List.append_nil]
  asked := by rw [houtside, List.append_nil]

theorem Adds.trans {before middle after : World Ledger} {journal more : Journal}
    {receipts others : List Receipt} {asked again : List BearerToken}
    (hfirst : Adds before middle journal receipts asked)
    (hsecond : Adds middle after more others again) :
    Adds before after (journal ++ more) (receipts ++ others) (asked ++ again) where
  journal := by rw [hsecond.journal, hfirst.journal, List.append_assoc]
  receipts := by rw [hsecond.receipts, hfirst.receipts, List.append_assoc]
  asked := by rw [hsecond.asked, hfirst.asked, List.append_assoc]

def Balanced (before after : World Ledger) : Prop :=
  exists journal receipts asked, Adds before after journal receipts asked ∧
    Balance journal.counters receipts asked.length

theorem Balanced.of_same {before after : World Ledger} (hjournal : after.journal = before.journal)
    (houtside : after.outside = before.outside) : Balanced before after := by
  refine ⟨[], [], [], .noted ?_ houtside, .nil⟩
  rw [hjournal, List.append_nil]

theorem Balanced.trans {before middle after : World Ledger} (hfirst : Balanced before middle)
    (hsecond : Balanced middle after) : Balanced before after := by
  rcases hfirst with ⟨journal, receipts, asked, hadds, hbalance⟩
  rcases hsecond with ⟨more, others, again, hmore, hagain⟩
  refine ⟨_, _, _, hadds.trans hmore, ?_⟩
  simpa using hbalance.append hagain

theorem balanced_attend [Url.International] (authenticator : Authenticator)
    (transport : Transport) (attempt : Attempt) (world : World Ledger) :
    Balanced world ((attend authenticator transport attempt).run world).2 := by
  let result := (authenticator.authenticate transport attempt).result
  refine ⟨(authenticator.authenticate transport attempt).journal, [.login result], [],
    ⟨rfl, rfl, (List.append_nil _).symm⟩, ?_⟩
  rw [Authenticator.counters_authenticate]
  exact Receipt.balance (Receipt.ends_login result) rfl rfl nofun

/-!
# Checks
-/

/-- What a check of a request comes to, between its opening and its outcome: it looked its token up,
or read none, and everything else that was counted is the inner part. -/
structure Comes (read : Except ReadFault BearerToken) (answer : Answer) (looked : Option Lookup)
    (journal : Journal) (inner : List Counter) : Prop where
  counters : journal.counters = (looked.map Counter.lookup).toList ++ inner
  reads : read.isOk = looked.isSome
  unread : looked = none -> inner = []
  hit : looked = some .hit -> exists token, read = .ok token ∧ answer = .ok (some token)
  failure : forall error, answer = .error error ->
    (exists fault, error = .tokenRead fault) ∨ exists refusal, error = .verification refusal

theorem exists_adds_settle (token : BearerToken) (now : Int) (answer : Except Refusal Claims)
    (world : World Ledger) :
    exists noted, Journal.counters noted = [] ∧
      Adds world ((Check.settle token now answer).run world).2 noted [] [] ∧
      forall error, ((Check.settle token now answer).run world).1 = .error error ->
        exists refusal, error = .verification refusal := by
  have hsettles := Check.settles token now answer world
  generalize (Check.settle token now answer).run world = outcome at hsettles
  cases hsettles with
  | kept hentry => exact ⟨_, rfl, .noted rfl rfl, nofun⟩
  | late hentry => exact ⟨[], rfl, .noted (List.append_nil _).symm rfl, nofun⟩
  | refused hacceptable => exact ⟨_, rfl, .noted rfl rfl, nofun⟩
  | @failed refusal hfailure =>
      refine ⟨[], rfl, .noted (List.append_nil _).symm rfl, ?_⟩
      intro error herror
      cases herror
      exact ⟨refusal, rfl⟩

theorem exists_adds_consult {during : StateM (World Ledger) Unit}
    (hduring : forall world, Balanced world (during.run world).2) (token : BearerToken) (now : Int)
    (answer : Except Refusal Claims) (world : World Ledger) :
    exists journal receipts asked,
      Adds world ((Check.consult (conducted during answer) token now).run world).2
        journal receipts (token :: asked) ∧
      Balance journal.counters receipts asked.length ∧
      forall error, ((Check.consult (conducted during answer) token now).run world).1 =
        .error error -> exists refusal, error = .verification refusal := by
  let questioned := ((Ledger.ask token).run world).2
  have hrun : (Check.consult (conducted during answer) token now).run world =
      (Check.settle token now answer).run (during.run questioned).2 := rfl
  have hquestioned : Adds world questioned [] [] [token] :=
    ⟨(List.append_nil _).symm, (List.append_nil _).symm, rfl⟩
  rcases hduring questioned with ⟨journal, receipts, asked, hadds, hbalance⟩
  rcases exists_adds_settle token now answer (during.run questioned).2 with
    ⟨noted, hsilent, hsettled, hfailure⟩
  rw [← hrun] at hsettled hfailure
  have htotal := (hquestioned.trans hadds).trans hsettled
  simp only [List.nil_append, List.append_nil, List.singleton_append] at htotal
  refine ⟨_, _, _, htotal, ?_, hfailure⟩
  simpa [hsilent] using hbalance

theorem exists_comes {during : StateM (World Ledger) Unit}
    (hduring : forall world, Balanced world (during.run world).2) {reader : TokenReader}
    {headers : Headers} {verified : Except Refusal Claims} {world after : World Ledger}
    {answer : Answer}
    (hrun : (Check.checkRequest reader (conducted during verified) headers).run world =
      (answer, after)) :
    exists looked journal inner receipts asked again,
      Comes (reader headers) answer looked journal inner ∧
      Adds world after journal receipts asked ∧
      Balance inner receipts again ∧ asked.length = Receipt.questions looked + again := by
  cases hread : reader headers with
  | error fault =>
      by_cases hnone : fault = .noToken
      · rw [hnone] at hread
        rw [Check.checkRequest_of_noToken _ hread] at hrun
        cases hrun
        exact ⟨none, [], [], [], [], 0, ⟨rfl, rfl, fun _ => rfl, nofun, nofun⟩,
          .noted (List.append_nil _).symm rfl, .nil, rfl⟩
      · rw [Check.checkRequest_of_error _ hread hnone] at hrun
        cases hrun
        refine ⟨none, _, [], [], [], 0, ⟨rfl, rfl, fun _ => rfl, nofun, ?_⟩, .noted rfl rfl, .nil,
          rfl⟩
        intro error herror
        cases herror
        exact Or.inl ⟨fault, rfl⟩
  | ok token =>
      rw [Check.checkRequest_of_ok _ hread, Check.checkToken_run] at hrun
      have hlooked : Adds world (Check.lookedUp token world) (Check.lookupNotes token
          (Check.lookup world.store world.clocks.eviction token world.clocks.wall)) [] [] :=
        .noted rfl rfl
      generalize Check.lookup world.store world.clocks.eviction token world.clocks.wall = result
        at hrun hlooked
      by_cases hhit : result = .hit
      · rw [if_pos hhit] at hrun
        cases hrun
        refine ⟨some result, _, [], [], [], 0, ⟨?_, rfl, nofun, fun _ => ⟨token, rfl, rfl⟩, nofun⟩,
          hlooked, .nil, ?_⟩
        · simp
        · rw [hhit]
          rfl
      · rw [if_neg hhit] at hrun
        rcases exists_adds_consult hduring token world.clocks.wall verified
          (Check.lookedUp token world) with
          ⟨journal, receipts, asked, hconsulted, hbalance, hfailure⟩
        rw [hrun] at hconsulted hfailure
        refine ⟨some result, _, journal.counters, _, _, asked.length, ⟨?_, rfl, nofun, ?_, ?_⟩,
          hlooked.trans hconsulted, hbalance, ?_⟩
        · simp
        · intro hsome
          exact absurd (Option.some.inj hsome) hhit
        · intro error herror
          exact Or.inr (hfailure error herror)
        · have hquestion : Receipt.questions (some result) = 1 := by
            cases result with
            | hit => exact absurd rfl hhit
            | miss => rfl
            | stale => rfl
          rw [hquestion, List.nil_append, List.length_cons, Nat.add_comm]

def framed (journal : Journal) (answer : Answer) : Journal :=
  [.span .tokenCheck "is_authenticated", .count (.flow .tokenCheck .attempt)] ++ journal ++
    [.count (.flow .tokenCheck (Check.flowOutcome answer))]

@[simp] theorem counters_framed (journal : Journal) (answer : Answer) :
    (framed journal answer).counters =
      .flow .tokenCheck .attempt :: journal.counters ++
        [.flow .tokenCheck (Check.flowOutcome answer)] := by
  simp [framed]

theorem Comes.lookup? {read : Except ReadFault BearerToken} {answer : Answer}
    {looked : Option Lookup} {journal : Journal} {inner : List Counter}
    (hcomes : Comes read answer looked journal inner) :
    (Receipt.check read (framed journal answer) answer).lookup? = looked := by
  simp only [Receipt.lookup?, counters_framed, hcomes.counters]
  cases looked with
  | some result => rfl
  | none =>
      rw [hcomes.unread rfl]
      rfl

theorem Comes.balance {read : Except ReadFault BearerToken} {answer : Answer}
    {looked : Option Lookup} {journal : Journal} {inner : List Counter}
    {receipts : List Receipt} {again : Nat} (hcomes : Comes read answer looked journal inner)
    (hinner : Balance inner receipts again) :
    Balance (framed journal answer).counters
      (receipts ++ [.check read (framed journal answer) answer])
      (Receipt.questions looked + again) := by
  let receipt : Receipt := .check read (framed journal answer) answer
  have hhit : looked = some .hit ->
      exists token report, receipt = .check (.ok token) report (.ok (some token)) := by
    intro hlooked
    rcases hcomes.hit hlooked with ⟨token, rfl, rfl⟩
    exact ⟨token, _, rfl⟩
  have hown := Receipt.balance (Receipt.ends_check read (framed journal answer) hcomes.failure)
    hcomes.lookup? hcomes.reads hhit
  refine (hown.append hinner).perm ?_ List.perm_append_comm
  -- The counters in between come before the outcome of the check, its own ones around them.
  rw [counters_framed, hcomes.counters]
  simp only [Receipt.counters, Receipt.flow, List.cons_append, List.append_assoc, List.nil_append]
  exact ((List.perm_append_singleton _ _).symm.append_left _).cons _

theorem balanced_examine {during : StateM (World Ledger) Unit}
    (hduring : forall world, Balanced world (during.run world).2) (reader : TokenReader)
    (headers : Headers) (verified : Except Refusal Claims) (world : World Ledger) :
    Balanced world ((examine reader headers (conducted during verified)).run world).2 := by
  rcases hrun : (Check.isAuthenticated reader (conducted during verified) headers).run world with
    ⟨answer, after⟩
  rcases Check.exists_checkRequest_run hrun with ⟨checked, hchecked, hafter⟩
  rcases exists_comes hduring hchecked with
    ⟨looked, journal, inner, receipts, asked, again, hcomes, hadds, hbalance, hasked⟩
  have hreport : after.journal = world.journal ++ framed journal answer := by
    rw [hafter]
    simp only [hadds.journal, Check.opened, framed, List.append_assoc]
  refine ⟨framed journal answer,
    receipts ++ [.check (reader headers) (framed journal answer) answer], asked, ?_, ?_⟩
  · rw [examine_of_run hrun, hreport, List.drop_left]
    refine ⟨hreport, ?_, ?_⟩
    · have hreceipts : after.outside.receipts = world.outside.receipts ++ receipts := by
        rw [hafter]
        exact hadds.receipts
      rw [← List.append_assoc, ← hreceipts]
      rfl
    · have hquestions : after.outside.asked = world.outside.asked ++ asked := by
        rw [hafter]
        exact hadds.asked
      exact hquestions
  · rw [hasked]
    exact hcomes.balance hbalance

/-!
# Whole runs
-/

mutual

theorem balanced_run [Url.International] (occurrence : Occurrence) (world : World Ledger) :
    Balanced world (occurrence.run.run world).2 := by
  cases occurrence with
  | login authenticator transport attempt =>
      exact balanced_attend authenticator transport attempt world
  | check reader headers during answer =>
      exact balanced_examine (balanced_runAll during) reader headers answer world
  | setClocks clocks => exact .of_same rfl rfl
  | sweep => exact .of_same rfl rfl
  | restock store => exact .of_same rfl rfl

theorem balanced_runAll [Url.International] (occurrences : List Occurrence)
    (world : World Ledger) :
    Balanced world ((runAll occurrences).run world).2 := by
  cases occurrences with
  | nil => exact .of_same rfl rfl
  | cons occurrence rest =>
      exact (balanced_run occurrence world).trans (balanced_runAll rest _)

end

/-- After any run of logins and checks, with checks inside each other, the counters are those of
the calls: each call is counted once as an attempt and once as a success, a denial or a failure
by what it answered; the look-ups are those of the checks that read a token; the verifiers were
asked about a token for each look-up without a hit, and each check with a hit answered with its
token. -/
theorem counters_balance [Url.International] (occurrences : List Occurrence) (store : Store)
    (clocks : Clocks) :
    let after := ((runAll occurrences).run ⟨store, clocks, [], .blank⟩).2
    Balance after.journal.counters after.outside.receipts after.outside.asked.length := by
  rcases balanced_runAll occurrences ⟨store, clocks, [], .blank⟩ with
    ⟨journal, receipts, asked, hadds, hbalance⟩
  intro after
  have hjournal : after.journal = journal := hadds.journal
  have hreceipts : after.outside.receipts = receipts := hadds.receipts
  have hasked : after.outside.asked = asked := hadds.asked
  rw [hjournal, hreceipts, hasked]
  exact hbalance

/-!
A check whose verifier checks the same token itself: the inner check is counted between the look-up
and the outcome of the outer one.
-/

def nestedChecks : List Occurrence :=
  let inner : Occurrence := .check (fun _ => .ok ⟨"t"⟩) [] [] (.ok Claims.none)
  [.check (fun _ => .ok ⟨"t"⟩) [] [inner] (.ok Claims.none)]

example [Url.International] :
    ((runAll nestedChecks).run ⟨.empty none, ⟨0, 0⟩, [], .blank⟩).2.journal.counters =
      [.flow .tokenCheck .attempt, .lookup .miss, .flow .tokenCheck .attempt, .lookup .miss,
        .flow .tokenCheck .success, .flow .tokenCheck .success] := by
  rfl

end Occurrence
end Gatekeeper
