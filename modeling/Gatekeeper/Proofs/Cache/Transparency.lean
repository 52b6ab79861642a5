import Gatekeeper.Proofs.Cache.Checks
import Gatekeeper.Proofs.Cache.EntryLemmas
import Gatekeeper.Proofs.Cache.StoreLemmas
import Gatekeeper.Proofs.Token.Decoding

/-!
# The store does not show in the answers

Checks with a verifier of signed tokens, one after the other, answer as if there
were no store.  An entry is only ever kept for a token that the verifier
decodes, and decoding does not depend on the time; as long as the entry is valid
the verifier would not find the token too old.
-/

namespace Gatekeeper
namespace Check

def verified (verifier : Verifier) (now : Int) (token : BearerToken) : Answer :=
  match verifier.verify now token.value with
  | .error refusal =>
    if refusal.kind = .expired ∨ refusal.kind = .signatureInvalid then .ok none
    else .error (.verification refusal)
  | .ok claims =>
    match claims.expiresAt with
    | none => .ok (some token)
    | some expiry => if now < expiry then .ok (some token) else .ok none

/-- The answer for a request at a time without a store. -/
def storeless (reader : TokenReader) (verifier : Verifier) (now : Int) (headers : Headers) :
    Answer :=
  match reader headers with
  | .error .noToken => .ok none
  | .error fault => .error (.tokenRead fault)
  | .ok token => verified verifier now token

/-!
# Visits

What may happen to the store between the checks and while the verifier works,
apart from checks: time passes on the clock of evictions, and entries go.
-/

inductive Disturbance where
  | pass (seconds : Nat)
  | sweep
  | evict (token : BearerToken)

def Disturbance.apply (world : World σ) : Disturbance → World σ
  | pass seconds => { world with clocks := world.clocks.advance 0 seconds }
  | sweep => { world with store := world.store.sweep world.clocks.eviction }
  | evict token => { world with store := world.store.erase token }

def disturb (disturbances : List Disturbance) (world : World σ) : World σ :=
  disturbances.foldl Disturbance.apply world

def disturbed (verifier : Verifier) (during : List Disturbance) : TokenVerifier σ := fun token => do
  modify (disturb during)
  verifier.asTokenVerifier token

/-- A request and the second in which it is checked, on a clock that may stand anywhere after the
epoch. -/
structure Visit where
  before : List Disturbance
  now : Nat
  headers : Headers
  during : List Disturbance

def Visit.check (reader : TokenReader) (verifier : Verifier) (visit : Visit) :
    StateM (World σ) Answer := do
  modify fun world =>
    disturb visit.before { world with clocks := { world.clocks with wall := visit.now } }
  isAuthenticated reader (disturbed verifier visit.during) visit.headers

def answers (reader : TokenReader) (verifier : Verifier) :
    List Visit → StateM (World σ) (List Answer)
  | [] => pure []
  | visit :: rest => do
    let answer ← visit.check reader verifier
    let others ← answers reader verifier rest
    pure (answer :: others)

@[simp] theorem disturbed_nil (verifier : Verifier) :
    (disturbed verifier [] : TokenVerifier σ) = verifier.asTokenVerifier := rfl

/-!
# Faithful stores
-/

/-- Each entry is the one for claims of its token, at some time. -/
def Faithful (verifier : Verifier) (store : Store) : Prop :=
  forall token slot, (token, slot) ∈ store.slots ->
    exists claims earlier,
      verifier.decode token.value = .ok claims ∧ Entry.Grants claims earlier slot.entry

theorem Faithful.of_subset {verifier : Verifier} {store smaller : Store}
    (hstore : Faithful verifier store)
    (hsub : forall slot, slot ∈ smaller.slots -> slot ∈ store.slots) :
    Faithful verifier smaller := by
  intro token slot hmem
  exact hstore token slot (hsub (token, slot) hmem)

theorem Faithful.erase {verifier : Verifier} {store : Store} (hstore : Faithful verifier store)
    (token : BearerToken) : Faithful verifier (store.erase token) := by
  apply hstore.of_subset
  intro slot hmem
  exact (Store.mem_erase.mp hmem).left

theorem Faithful.insert {verifier : Verifier} {store : Store} (hstore : Faithful verifier store)
    {token : BearerToken} {claims : Claims} {now : Int} {entry : Entry} (clock : Nat)
    (hdecode : verifier.decode token.value = .ok claims)
    (hentry : Entry.ofClaims claims now = some entry) :
    Faithful verifier (store.insert clock token entry) := by
  intro other slot hmem
  cases Store.mem_insert hmem with
  | inl hwritten =>
      rw [hwritten.left, hwritten.right]
      exact ⟨claims, now, hdecode, Entry.grants_of_ofClaims hentry⟩
  | inr hold => exact hstore other slot hold

theorem faithful_disturb {verifier : Verifier} (disturbances : List Disturbance)
    {world : World σ} (hstore : Faithful verifier world.store) :
    Faithful verifier (disturb disturbances world).store ∧
      (disturb disturbances world).clocks.wall = world.clocks.wall := by
  induction disturbances generalizing world with
  | nil => exact ⟨hstore, rfl⟩
  | cons disturbance rest ih =>
      have hstep : Faithful verifier (disturbance.apply world).store ∧
          (disturbance.apply world).clocks.wall = world.clocks.wall := by
        cases disturbance with
        | pass seconds => exact ⟨hstore, by simp [Disturbance.apply, Clocks.advance]⟩
        | sweep =>
            refine ⟨hstore.of_subset ?_, rfl⟩
            intro slot hmem
            exact Store.mem_of_mem_sweep hmem
        | evict token => exact ⟨hstore.erase token, rfl⟩
      have hrest := ih hstep.left
      exact ⟨hrest.left, hrest.right.trans hstep.right⟩

/-!
# A time after the epoch
-/

theorem verify_of_outlasts {verifier : Verifier} {token : String} {claims : Claims} {now : Int}
    (hnow : 0 ≤ now) (hdecode : verifier.decode token = .ok claims)
    (houtlasts : claims.Outlasts now) : verifier.verify now token = .ok claims := by
  rw [Verifier.verify_eq_ok_iff]
  refine ⟨hdecode, Verifier.checkAge_eq_ok_iff.mpr ?_⟩
  intro expiry hexpiry
  have hlater := houtlasts expiry hexpiry
  unfold Verifier.earliestExpiry Verifier.leastTime Verifier.mostTime
  omega

theorem exists_entry_of_outlasts {claims : Claims} {now : Int} (hnow : 0 ≤ now)
    (htimed : claims.IsTimed) (houtlasts : claims.Outlasts now) :
    exists entry, Entry.ofClaims claims now = some entry := by
  unfold Entry.ofClaims
  cases hexpiry : claims.expiresAt with
  | none => exact ⟨Entry.neverExpiring, rfl⟩
  | some expiry =>
      have hlater := houtlasts expiry hexpiry
      have hmost := (htimed expiry (Or.inl (Claims.exp_eq_of_expiresAt hexpiry))).right
      unfold Json.Number.mostInt64 at hmost
      refine ⟨⟨expiry, some (expiry - now).toNat⟩, Entry.expiringAt_eq_some_iff.mpr ⟨?_, ?_, rfl⟩⟩
      · omega
      · unfold Verifier.mostTime
        omega

theorem verified_of_outlasts {verifier : Verifier} {now : Int} {token : BearerToken}
    {claims : Claims} (hverify : verifier.verify now token.value = .ok claims)
    (houtlasts : claims.Outlasts now) : verified verifier now token = .ok (some token) := by
  simp only [verified, hverify]
  cases hexpiry : claims.expiresAt with
  | none => rfl
  | some expiry => simp [houtlasts expiry hexpiry]

theorem verified_of_not_outlasts {verifier : Verifier} {now : Int} {token : BearerToken}
    {claims : Claims} (hverify : verifier.verify now token.value = .ok claims)
    (houtlasts : ¬claims.Outlasts now) : verified verifier now token = .ok none := by
  simp only [verified, hverify]
  cases hexpiry : claims.expiresAt with
  | none =>
      apply absurd _ houtlasts
      intro expiry h
      rw [hexpiry] at h
      cases h
  | some expiry =>
      by_cases hlater : now < expiry
      · apply absurd _ houtlasts
        intro other h
        rw [hexpiry] at h
        injection h with h
        rw [← h]
        exact hlater
      · simp [hlater]

/-!
# Checks answer as without a store
-/

/-- The outcome of an operation is as it would be without a store, and a faithful store stays
faithful. -/
structure Transparent (verifier : Verifier) (expected : Answer) (outcome : Answer × World σ) :
    Prop where
  answer : outcome.1 = expected
  store : Faithful verifier outcome.2.store

theorem transparent_settle {verifier : Verifier} {token : BearerToken} {world : World σ}
    {now : Int} (hnow : 0 ≤ now) (hstore : Faithful verifier world.store) :
    Transparent verifier (verified verifier now token)
      ((settle token now (verifier.verify now token.value)).run world) := by
  cases hverify : verifier.verify now token.value with
  | error refusal =>
      by_cases hacceptable : refusal.isAcceptable = true
      · have hkind := Refusal.isAcceptable_iff.mp hacceptable
        simp only [settle, verdict, if_pos hacceptable]
        exact ⟨by simp only [verified, hverify, if_pos hkind]; rfl, hstore⟩
      · have hkind := fun h => hacceptable (Refusal.isAcceptable_iff.mpr h)
        simp only [settle, verdict, if_neg hacceptable]
        exact ⟨by simp only [verified, hverify, if_neg hkind]; rfl, hstore⟩
  | ok claims =>
      have hdecode := (Verifier.verify_eq_ok_iff.mp hverify).left
      cases hentry : Entry.ofClaims claims now with
      | some entry =>
          have houtlasts := (Entry.grants_of_ofClaims hentry).outlasts
          simp only [settle, verdict, hentry]
          exact ⟨(verified_of_outlasts hverify houtlasts).symm,
            hstore.insert world.clocks.eviction hdecode hentry⟩
      | none =>
          have houtlasts : ¬claims.Outlasts now := by
            intro h
            rcases exists_entry_of_outlasts hnow (Verifier.isTimed_of_decode hdecode) h with
              ⟨entry, hsome⟩
            rw [hentry] at hsome
            cases hsome
          simp only [settle, verdict, hentry]
          exact ⟨(verified_of_not_outlasts hverify houtlasts).symm, hstore⟩

theorem transparent_consult {verifier : Verifier} {token : BearerToken} {world : World σ}
    {now : Int} (during : List Disturbance) (hnow : 0 ≤ now) (hwall : world.clocks.wall = now)
    (hstore : Faithful verifier world.store) :
    Transparent verifier (verified verifier now token)
      ((consult (disturbed verifier during) token now).run world) := by
  rcases faithful_disturb during hstore with ⟨hdisturbed, hsame⟩
  have hrun : (consult (disturbed verifier during) token now).run world =
      (settle token now (verifier.verify (disturb during world).clocks.wall
        token.value)).run (disturb during world) := rfl
  rw [hrun, hsame, hwall]
  exact transparent_settle hnow hdisturbed

theorem verified_of_hit {verifier : Verifier} {token : BearerToken} {store : Store}
    {clock : Nat} {now : Int} (hnow : 0 ≤ now) (hstore : Faithful verifier store)
    (hlookup : lookup store clock token now = .hit) :
    verified verifier now token = .ok (some token) := by
  rcases exists_mem_of_lookup_eq_hit hlookup with ⟨slot, hmem, hvalid⟩
  rcases hstore token slot hmem with ⟨claims, earlier, hdecode, hgrants⟩
  have houtlasts := hgrants.outlasts_of_isValidAt hvalid
  exact verified_of_outlasts (verify_of_outlasts hnow hdecode houtlasts) houtlasts

theorem transparent_checkToken {verifier : Verifier} {token : BearerToken} {world : World σ}
    (during : List Disturbance) (hnow : 0 ≤ world.clocks.wall)
    (hstore : Faithful verifier world.store) :
    Transparent verifier (verified verifier world.clocks.wall token)
      ((checkToken (disturbed verifier during) token).run world) := by
  cases hlookup : lookup world.store world.clocks.eviction token world.clocks.wall with
  | hit =>
      rw [checkToken_of_hit _ hlookup]
      exact ⟨(verified_of_hit hnow hstore hlookup).symm, hstore⟩
  | miss =>
      rw [checkToken_of_miss _ hlookup]
      exact transparent_consult during hnow rfl hstore
  | stale =>
      rw [checkToken_of_stale _ hlookup]
      exact transparent_consult during hnow rfl (hstore.erase token)

theorem transparent_checkRequest {verifier : Verifier} {world : World σ} (reader : TokenReader)
    (headers : Headers) (during : List Disturbance) (hnow : 0 ≤ world.clocks.wall)
    (hstore : Faithful verifier world.store) :
    Transparent verifier (storeless reader verifier world.clocks.wall headers)
      ((checkRequest reader (disturbed verifier during) headers).run world) := by
  cases hread : reader headers with
  | ok token =>
      simp only [storeless, hread, checkRequest_of_ok _ hread]
      exact transparent_checkToken during hnow hstore
  | error fault =>
      by_cases hfault : fault = .noToken
      · rw [hfault] at hread
        simp only [storeless, hread, checkRequest_of_noToken _ hread]
        exact ⟨rfl, hstore⟩
      · rw [checkRequest_of_error _ hread hfault]
        refine ⟨?_, hstore⟩
        cases fault with
        | noToken => exact absurd rfl hfault
        | malformed reason => simp only [storeless, hread]
        | backend cause => simp only [storeless, hread]

theorem transparent_check {verifier : Verifier} {world : World σ} (reader : TokenReader)
    (visit : Visit) (hstore : Faithful verifier world.store) :
    Transparent verifier (storeless reader verifier visit.now visit.headers)
      ((visit.check reader verifier).run world) := by
  let start : World σ :=
    disturb visit.before { world with clocks := { world.clocks with wall := visit.now } }
  have hbefore : Faithful verifier start.store ∧ start.clocks.wall = visit.now :=
    faithful_disturb visit.before hstore
  have hrun : (visit.check reader verifier).run world =
      (isAuthenticated reader (disturbed verifier visit.during) visit.headers).run start := rfl
  rw [hrun, isAuthenticated_run, ← hbefore.right]
  let counted : World σ :=
    { start with journal := start.journal ++
      [.span .tokenCheck "is_authenticated", .count (.flow .tokenCheck .attempt)] }
  have hfaithful : Faithful verifier counted.store := hbefore.left
  have htime : 0 ≤ counted.clocks.wall := by
    rw [hbefore.right]
    omega
  have hchecked := transparent_checkRequest reader visit.headers visit.during htime hfaithful
  exact ⟨hchecked.answer, hchecked.store⟩

theorem answers_cons_run (reader : TokenReader) (verifier : Verifier) (visit : Visit)
    (rest : List Visit) (world : World σ) :
    ((answers reader verifier (visit :: rest)).run world).1 =
      ((visit.check reader verifier).run world).1 ::
        ((answers reader verifier rest).run ((visit.check reader verifier).run world).2).1 := rfl

theorem answers_of_faithful (reader : TokenReader) (verifier : Verifier) (visits : List Visit)
    {world : World σ} (hstore : Faithful verifier world.store) :
    ((answers reader verifier visits).run world).1 =
      visits.map fun visit => storeless reader verifier visit.now visit.headers := by
  induction visits generalizing world with
  | nil => rfl
  | cons visit rest ih =>
      have hfirst := transparent_check reader visit hstore
      rw [answers_cons_run, hfirst.answer, ih hfirst.store, List.map_cons]

/-- The answers of checks that come one after the other, with any capacity, any evictions and any
moves of the day between them, are those without a store. -/
theorem answers_eq_storeless (reader : TokenReader) (verifier : Verifier)
    (capacity : Option Nat) (world : World σ) (visits : List Visit) :
    ((answers reader verifier visits).run { world with store := Store.empty capacity }).1 =
      visits.map fun visit => storeless reader verifier visit.now visit.headers := by
  apply answers_of_faithful
  intro token slot hmem
  cases hmem

end Check
end Gatekeeper
