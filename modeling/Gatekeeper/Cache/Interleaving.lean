import Gatekeeper.Cache.Check

/-!
# Interleaved checks

Any number of checks that work on one store at a time.  Each stands at a stage
between two of its operations, and its next operation may come at any later
moment: other checks, the clocks, sweeps and evictions come in between.  A store
that takes an entry beyond its capacity for a while is one without a capacity
from which entries are evicted.
-/

namespace Gatekeeper
namespace Check

inductive Stage where
  | reading (reader : TokenReader) (headers : Headers)
  | timing (token : BearerToken)
  | lookingUp (token : BearerToken) (now : Int)
  | discarding (token : BearerToken) (now : Int)
  | asking (token : BearerToken) (now : Int)
  | keeping (token : BearerToken) (entry : Entry)
  | done (answer : Answer)

namespace Stage

def advance : Stage → StateM (World σ) Stage
  | reading reader headers =>
    match reader headers with
    | .ok token => pure (timing token)
    | .error .noToken => pure (done (.ok none))
    | .error fault => do
      note [unreadable fault]
      pure (done (.error (.tokenRead fault)))
  | timing token => do pure (lookingUp token (← get).clocks.wall)
  | lookingUp token now => do
    match ← lookUp token now with
    | .hit => pure (done (.ok (some token)))
    | .stale => pure (discarding token now)
    | .miss => pure (asking token now)
  | discarding token now => do
    discard token
    pure (asking token now)
  | asking token now => pure (asking token now)
  | keeping token entry => do
    keep token entry
    pure (done (.ok (some token)))
  | done answer => pure (done answer)

def receive (token : BearerToken) (now : Int) (answer : Except Refusal Claims) :
    StateM (World σ) Stage :=
  match verdict now answer with
  | .keep entry => pure (keeping token entry)
  | .tooLate => pure (done (.ok none))
  | .refuse refusal => do
    note [refused token refusal]
    pure (done (.ok none))
  | .fail refusal => pure (done (.error (.verification refusal)))

def isAsking : Stage → Bool
  | asking .. => true
  | _ => false

/-- What is left to do for a check that nothing else comes between. -/
def remaining (verify : TokenVerifier σ) : Stage → StateM (World σ) Answer
  | reading reader headers => checkRequest reader verify headers
  | timing token => checkToken verify token
  | lookingUp token now => do
    match ← lookUp token now with
    | .hit => pure (.ok (some token))
    | .stale => do
      discard token
      settle token now (← verify token)
    | .miss => settle token now (← verify token)
  | discarding token now => do
    discard token
    settle token now (← verify token)
  | asking token now => do settle token now (← verify token)
  | keeping token entry => do
    keep token entry
    pure (.ok (some token))
  | done answer => pure answer

end Stage

/-!
# Runs

What happens to the checks is recorded in its order.  Checks are named by the
order in which they began.
-/

inductive Happening where
  | began (check : Nat) (reader : TokenReader) (headers : Headers)
  | timed (check : Nat) (now : Int)
  | verified (check : Nat) (token : BearerToken) (answer : Except Refusal Claims)
  | kept (check : Nat) (token : BearerToken) (entry : Entry)
  | answered (check : Nat) (answer : Answer)

def Stage.happenings (check : Nat) : (before after : Stage) → List Happening
  | timing _, lookingUp _ now => [.timed check now]
  | keeping token entry, done answer => [.kept check token entry, .answered check answer]
  | done _, _ => []
  | _, done answer => [.answered check answer]
  | _, _ => []

inductive Move where
  | start (reader : TokenReader) (headers : Headers)
  | advance (check : Nat)
  | answer (check : Nat) (answer : Except Refusal Claims)
  | setClocks (clocks : Clocks)
  | sweep
  | evict (token : BearerToken)

structure Crowd (σ : Type) where
  world : World σ
  checks : List Stage
  history : List Happening

namespace Crowd

def empty (world : World σ) (capacity : Option Nat) : Crowd σ :=
  ⟨{ world with store := Store.empty capacity }, [], []⟩

def proceed (crowd : Crowd σ) (check : Nat) (operation : StateM (World σ) Stage)
    (happenings : Stage → List Happening) : Crowd σ :=
  let (stage, world) := operation.run crowd.world
  ⟨world, crowd.checks.set check stage, crowd.history ++ happenings stage⟩

def step (crowd : Crowd σ) : Move → Crowd σ
  | .start reader headers =>
    { crowd with
      checks := crowd.checks ++ [.reading reader headers]
      history := crowd.history ++ [.began crowd.checks.length reader headers] }
  | .advance check =>
    match crowd.checks[check]? with
    | some stage => crowd.proceed check stage.advance (stage.happenings check)
    | none => crowd
  | .answer check answer =>
    match crowd.checks[check]? with
    | some (.asking token now) =>
      crowd.proceed check (Stage.receive token now answer) fun stage =>
        .verified check token answer :: (Stage.asking token now).happenings check stage
    | _ => crowd
  | .setClocks clocks => { crowd with world := { crowd.world with clocks := clocks } }
  | .sweep =>
    { crowd with
      world := { crowd.world with
        store := crowd.world.store.sweep crowd.world.clocks.eviction } }
  | .evict token =>
    { crowd with world := { crowd.world with store := crowd.world.store.erase token } }

def run (crowd : Crowd σ) (moves : List Move) : Crowd σ :=
  moves.foldl step crowd

end Crowd
end Check
end Gatekeeper
