import Gatekeeper.Cache.Store
import Gatekeeper.Error
import Gatekeeper.Journal

/-!
# Token checks

A check finds the token of a request, looks it up, and asks the verifier where
the store does not vouch for it.  It touches the store in single steps: the
look-up, the removal of a stale entry, and the writing of a new one.  Between
the look-up and the writing the verifier runs, which may take any time and see
other checks come and go.
-/

namespace Gatekeeper

structure Clocks where
  wall : Int
  eviction : Nat
deriving DecidableEq, Repr

def Clocks.advance (clocks : Clocks) (wall : Int) (eviction : Nat) : Clocks :=
  ⟨clocks.wall + wall, clocks.eviction + eviction⟩

/-- What a check works on; `outside` belongs to the verifier. -/
structure World (σ : Type) where
  store : Store
  clocks : Clocks
  journal : Journal
  outside : σ

abbrev TokenVerifier (σ : Type) :=
  BearerToken → StateM (World σ) (Except Refusal Claims)

abbrev Answer := Except Error (Option BearerToken)

namespace Check

/-!
# Events
-/

def event (level : Level) (message : String) (fields : List (String × FieldValue)) : Observation :=
  .event ⟨level, "gateway_auth::token::cache", message, fields⟩

def tokenField (token : BearerToken) : String × FieldValue :=
  ("token", .text token.fingerprint)

def unreadable (fault : ReadFault) : Observation :=
  event .warn ("error while reading token from request: " ++ fault.message) []

def evicting (token : BearerToken) : Observation :=
  event .debug "evicting stale token cache entry" [tokenField token]

def refused (token : BearerToken) (refusal : Refusal) : Observation :=
  event .debug "token rejected" [("kind", .text refusal.kind.label), tokenField token]

def caching (token : BearerToken) (entry : Entry) : Observation :=
  event .debug "caching verified token"
    [("expires_at", .number entry.expiresAt), tokenField token]

/-!
# Verdicts
-/

inductive Verdict where
  | keep (entry : Entry)
  | tooLate
  | refuse (refusal : Refusal)
  | fail (refusal : Refusal)

def verdict (now : Int) : Except Refusal Claims → Verdict
  | .error refusal => if refusal.isAcceptable then .refuse refusal else .fail refusal
  | .ok claims =>
    match Entry.ofClaims claims now with
    | some entry => .keep entry
    | none => .tooLate

/-- The result of a look-up at a reading of the eviction clock, for a check that read `now`. -/
def lookup (store : Store) (clock : Nat) (token : BearerToken) (now : Int) : Lookup :=
  match store.get? clock token with
  | none => .miss
  | some entry => if entry.isValidAt now then .hit else .stale

/-!
# Steps
-/

def note (journal : Journal) : StateM (World σ) Unit :=
  modify fun world => { world with journal := world.journal ++ journal }

def lookUp (token : BearerToken) (now : Int) : StateM (World σ) Lookup := do
  let world ← get
  let result := lookup world.store world.clocks.eviction token now
  note [.count (.lookup result)]
  pure result

def discard (token : BearerToken) : StateM (World σ) Unit := do
  note [evicting token]
  modify fun world => { world with store := world.store.erase token }

def keep (token : BearerToken) (entry : Entry) : StateM (World σ) Unit := do
  note [caching token entry]
  modify fun world =>
    { world with store := world.store.insert world.clocks.eviction token entry }

def settle (token : BearerToken) (now : Int) (answer : Except Refusal Claims) :
    StateM (World σ) Answer :=
  match verdict now answer with
  | .keep entry => do
    keep token entry
    pure (.ok (some token))
  | .tooLate => pure (.ok none)
  | .refuse refusal => do
    note [refused token refusal]
    pure (.ok none)
  | .fail refusal => pure (.error (.verification refusal))

def checkToken (verify : TokenVerifier σ) (token : BearerToken) : StateM (World σ) Answer := do
  let now := (← get).clocks.wall
  match ← lookUp token now with
  | .hit => pure (.ok (some token))
  | .stale => do
    discard token
    settle token now (← verify token)
  | .miss => settle token now (← verify token)

def checkRequest (reader : TokenReader) (verify : TokenVerifier σ) (headers : Headers) :
    StateM (World σ) Answer :=
  match reader headers with
  | .ok token => checkToken verify token
  | .error .noToken => pure (.ok none)
  | .error fault => do
    note [unreadable fault]
    pure (.error (.tokenRead fault))

def flowOutcome : Answer → FlowOutcome
  | .ok (some _) => .success
  | .ok none => .denied
  | .error _ => .failure

def isAuthenticated (reader : TokenReader) (verify : TokenVerifier σ) (headers : Headers) :
    StateM (World σ) Answer := do
  note [.span .tokenCheck "is_authenticated", .count (.flow .tokenCheck .attempt)]
  let answer ← checkRequest reader verify headers
  note [.count (.flow .tokenCheck (flowOutcome answer))]
  pure answer

end Check

/-- A verifier reads the time of day when it is asked. -/
def Verifier.asTokenVerifier (verifier : Verifier) : TokenVerifier σ := fun token => do
  pure (verifier.verify (← get).clocks.wall token.value)

end Gatekeeper
