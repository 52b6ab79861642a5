import Gatekeeper.Cache.Check
import Gatekeeper.Proofs.Cache.StoreLemmas

/-!
# One check

What a check of a token does in each case, as an equation: with its answer and
with the world that it leaves.
-/

namespace Gatekeeper
namespace Check

theorem checkRequest_of_ok {reader : TokenReader} {headers : Headers} {token : BearerToken}
    (verify : TokenVerifier σ) (hread : reader headers = .ok token) :
    checkRequest reader verify headers = checkToken verify token := by
  unfold checkRequest
  rw [hread]

theorem checkRequest_of_noToken {reader : TokenReader} {headers : Headers}
    (verify : TokenVerifier σ) (hread : reader headers = .error .noToken) (world : World σ) :
    (checkRequest reader verify headers).run world = (.ok none, world) := by
  unfold checkRequest
  rw [hread]
  rfl

theorem checkRequest_of_error {reader : TokenReader} {headers : Headers} {fault : ReadFault}
    (verify : TokenVerifier σ) (hread : reader headers = .error fault)
    (hfault : fault ≠ .noToken) (world : World σ) :
    (checkRequest reader verify headers).run world =
      (.error (.tokenRead fault),
        { world with journal := world.journal ++ [unreadable fault] }) := by
  unfold checkRequest
  rw [hread]
  cases fault with
  | noToken => exact absurd rfl hfault
  | malformed reason => rfl
  | backend cause => rfl

theorem exists_checkRequest_of_error {reader : TokenReader} {headers : Headers}
    {fault : ReadFault} (hread : reader headers = .error fault) (world : World σ) :
    exists answer noted, forall verify : TokenVerifier σ,
      (checkRequest reader verify headers).run world =
        (answer, { world with journal := world.journal ++ noted }) := by
  cases fault with
  | noToken =>
      refine ⟨.ok none, [], ?_⟩
      intro verify
      rw [checkRequest_of_noToken verify hread, List.append_nil]
  | malformed reason =>
      refine ⟨.error (.tokenRead (.malformed reason)), [unreadable (.malformed reason)], ?_⟩
      intro verify
      exact checkRequest_of_error verify hread nofun world
  | backend cause =>
      refine ⟨.error (.tokenRead (.backend cause)), [unreadable (.backend cause)], ?_⟩
      intro verify
      exact checkRequest_of_error verify hread nofun world

theorem exists_mem_of_lookup_eq_hit {store : Store} {clock : Nat} {token : BearerToken}
    {now : Int} (hhit : lookup store clock token now = .hit) :
    exists slot, (token, slot) ∈ store.slots ∧ slot.entry.isValidAt now = true := by
  unfold lookup at hhit
  cases hget : store.get? clock token with
  | none =>
      rw [hget] at hhit
      cases hhit
  | some entry =>
      simp only [hget] at hhit
      by_cases hvalid : entry.isValidAt now = true
      · rcases Store.mem_of_get?_eq_some hget with ⟨slot, hmem, hentry⟩
        exact ⟨slot, hmem, by rw [hentry]; exact hvalid⟩
      · rw [if_neg hvalid] at hhit
        cases hhit

theorem lookUp_run (token : BearerToken) (now : Int) (world : World σ) :
    lookUp token now world =
      (lookup world.store world.clocks.eviction token now,
        { world with journal := world.journal ++
            [.count (.lookup (lookup world.store world.clocks.eviction token now))] }) := rfl

def consult (verify : TokenVerifier σ) (token : BearerToken) (now : Int) :
    StateM (World σ) Answer := do
  settle token now (← verify token)

theorem checkToken_of_hit {token : BearerToken} {world : World σ} (verify : TokenVerifier σ)
    (hlookup : lookup world.store world.clocks.eviction token world.clocks.wall = .hit) :
    (checkToken verify token).run world =
      (.ok (some token),
        { world with journal := world.journal ++ [.count (.lookup .hit)] }) := by
  have hrun := lookUp_run token world.clocks.wall world
  rw [hlookup] at hrun
  simp only [checkToken, bind, StateT.bind, StateT.run, getThe, MonadStateOf.get, get, StateT.get,
    pure, hrun]
  rfl

theorem checkToken_of_miss {token : BearerToken} {world : World σ} (verify : TokenVerifier σ)
    (hlookup : lookup world.store world.clocks.eviction token world.clocks.wall = .miss) :
    (checkToken verify token).run world =
      (consult verify token world.clocks.wall).run
        { world with journal := world.journal ++ [.count (.lookup .miss)] } := by
  have hrun := lookUp_run token world.clocks.wall world
  rw [hlookup] at hrun
  simp only [checkToken, bind, StateT.bind, StateT.run, getThe, MonadStateOf.get, get, StateT.get,
    pure, hrun]
  rfl

theorem checkToken_of_stale {token : BearerToken} {world : World σ} (verify : TokenVerifier σ)
    (hlookup : lookup world.store world.clocks.eviction token world.clocks.wall = .stale) :
    (checkToken verify token).run world =
      (consult verify token world.clocks.wall).run
        { world with
          store := world.store.erase token
          journal := world.journal ++ [.count (.lookup .stale)] ++ [evicting token] } := by
  have hrun := lookUp_run token world.clocks.wall world
  rw [hlookup] at hrun
  simp only [checkToken, bind, StateT.bind, StateT.run, getThe, MonadStateOf.get, get, StateT.get,
    pure, hrun]
  rfl

theorem exists_checkToken_of_ne_hit {token : BearerToken} {world : World σ}
    (hasked : lookup world.store world.clocks.eviction token world.clocks.wall ≠ .hit) :
    exists store noted, (store = world.store ∨ store = world.store.erase token) ∧
      forall verify : TokenVerifier σ,
        (checkToken verify token).run world =
          (consult verify token world.clocks.wall).run
            { world with store := store, journal := world.journal ++ noted } := by
  cases hlookup : lookup world.store world.clocks.eviction token world.clocks.wall with
  | hit => exact absurd hlookup hasked
  | miss =>
      refine ⟨world.store, [.count (.lookup .miss)], Or.inl rfl, ?_⟩
      intro verify
      exact checkToken_of_miss verify hlookup
  | stale =>
      refine ⟨world.store.erase token, [.count (.lookup .stale), evicting token], Or.inr rfl, ?_⟩
      intro verify
      rw [checkToken_of_stale verify hlookup, List.append_assoc, List.singleton_append]

/-!
# From the look-up to the answer

A check of a token is its look-up, and where that does not find a valid entry,
the question to the verifier and what comes of its answer.
-/

def lookupNotes (token : BearerToken) : Lookup → Journal
  | .stale => [.count (.lookup .stale), evicting token]
  | result => [.count (.lookup result)]

@[simp] theorem counters_lookupNotes (token : BearerToken) (result : Lookup) :
    (lookupNotes token result).counters = [.lookup result] := by
  cases result <;> rfl

def lookedUp (token : BearerToken) (world : World σ) : World σ :=
  let result := lookup world.store world.clocks.eviction token world.clocks.wall
  { world with
    store := if result = .stale then world.store.erase token else world.store
    journal := world.journal ++ lookupNotes token result }

theorem checkToken_run (verify : TokenVerifier σ) (token : BearerToken) (world : World σ) :
    (checkToken verify token).run world =
      if lookup world.store world.clocks.eviction token world.clocks.wall = .hit then
        (.ok (some token), lookedUp token world)
      else (consult verify token world.clocks.wall).run (lookedUp token world) := by
  unfold lookedUp
  cases hlookup : lookup world.store world.clocks.eviction token world.clocks.wall with
  | hit => exact checkToken_of_hit verify hlookup
  | miss => exact checkToken_of_miss verify hlookup
  | stale =>
      rw [checkToken_of_stale verify hlookup, List.append_assoc]
      rfl

/-- What comes of the answer of the verifier to a check that read `now`, with the world after
it. -/
inductive Settles (token : BearerToken) (now : Int) (world : World σ) :
    Except Refusal Claims -> Answer × World σ -> Prop
  | kept {claims : Claims} {entry : Entry} (hentry : Entry.ofClaims claims now = some entry) :
      Settles token now world (.ok claims) (.ok (some token),
        { world with
          store := world.store.insert world.clocks.eviction token entry
          journal := world.journal ++ [caching token entry] })
  | late {claims : Claims} (hentry : Entry.ofClaims claims now = none) :
      Settles token now world (.ok claims) (.ok none, world)
  | refused {refusal : Refusal} (hacceptable : refusal.isAcceptable = true) :
      Settles token now world (.error refusal) (.ok none,
        { world with journal := world.journal ++ [refused token refusal] })
  | failed {refusal : Refusal} (hfailure : refusal.isAcceptable = false) :
      Settles token now world (.error refusal) (.error (.verification refusal), world)

theorem settles (token : BearerToken) (now : Int) (answer : Except Refusal Claims)
    (world : World σ) : Settles token now world answer ((settle token now answer).run world) := by
  cases answer with
  | error refusal =>
      cases hacceptable : refusal.isAcceptable with
      | true =>
          simp only [settle, verdict, if_pos hacceptable]
          exact .refused hacceptable
      | false =>
          simp only [settle, verdict, hacceptable]
          exact .failed hacceptable
  | ok claims =>
      cases hentry : Entry.ofClaims claims now with
      | some entry =>
          simp only [settle, verdict, hentry]
          exact .kept hentry
      | none =>
          simp only [settle, verdict, hentry]
          exact .late hentry

theorem isAuthenticated_run (reader : TokenReader) (verify : TokenVerifier σ)
    (headers : Headers) (world : World σ) :
    (isAuthenticated reader verify headers).run world =
      (let opening : World σ :=
        { world with journal := world.journal ++
            [.span .tokenCheck "is_authenticated", .count (.flow .tokenCheck .attempt)] }
      let (answer, after) := (checkRequest reader verify headers).run opening
      (answer, { after with journal := after.journal ++
            [.count (.flow .tokenCheck (flowOutcome answer))] })) := rfl

def opened (world : World σ) : World σ :=
  { world with journal := world.journal ++
      [.span .tokenCheck "is_authenticated", .count (.flow .tokenCheck .attempt)] }

theorem isAuthenticated_of_run {reader : TokenReader} {verify : TokenVerifier σ}
    {headers : Headers} {world after : World σ} {answer : Answer}
    (hrun : (checkRequest reader verify headers).run (opened world) = (answer, after)) :
    (isAuthenticated reader verify headers).run world =
      (answer, { after with journal := after.journal ++
        [.count (.flow .tokenCheck (flowOutcome answer))] }) := by
  unfold opened at hrun
  simp only [isAuthenticated_run, hrun]

theorem exists_checkRequest_run {reader : TokenReader} {verify : TokenVerifier σ}
    {headers : Headers} {world after : World σ} {answer : Answer}
    (hrun : (isAuthenticated reader verify headers).run world = (answer, after)) :
    exists checked, (checkRequest reader verify headers).run (opened world) = (answer, checked) ∧
      after = { checked with journal := checked.journal ++
        [.count (.flow .tokenCheck (flowOutcome answer))] } := by
  rcases hchecked : (checkRequest reader verify headers).run (opened world) with ⟨found, checked⟩
  rw [isAuthenticated_of_run hchecked] at hrun
  cases hrun
  exact ⟨checked, rfl, rfl⟩

theorem isAuthenticated_answer (reader : TokenReader) (verify : TokenVerifier σ)
    (headers : Headers) (world : World σ) :
    ((isAuthenticated reader verify headers).run world).1 =
      ((checkRequest reader verify headers).run (opened world)).1 := rfl

theorem isAuthenticated_store (reader : TokenReader) (verify : TokenVerifier σ)
    (headers : Headers) (world : World σ) :
    ((isAuthenticated reader verify headers).run world).2.store =
      ((checkRequest reader verify headers).run (opened world)).2.store := rfl

end Check
end Gatekeeper
