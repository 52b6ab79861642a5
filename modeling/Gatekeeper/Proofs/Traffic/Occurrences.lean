import Gatekeeper.Cache.Check
import Gatekeeper.Login.Authenticator

/-!
# Traffic

Logins and checks of requests, one after the other and inside each other: while a
verifier is asked, it may check requests itself.  Beside what is reported, a ledger
tells which calls came to their end, with what, and which tokens the verifiers were
asked about.
-/

namespace Gatekeeper

/-- A call that came to its end: a login with its result, or a check with what it read, what was
reported from its beginning to its end, and its answer. -/
inductive Receipt where
  | login (result : Except Error Outcome)
  | check (read : Except ReadFault BearerToken) (report : Journal) (answer : Answer)

structure Ledger where
  receipts : List Receipt
  asked : List BearerToken

namespace Ledger

def blank : Ledger := ⟨[], []⟩

def file (receipt : Receipt) : StateM (World Ledger) Unit :=
  modify fun world => { world with
    outside := { world.outside with receipts := world.outside.receipts ++ [receipt] } }

def ask (token : BearerToken) : StateM (World Ledger) Unit :=
  modify fun world => { world with
    outside := { world.outside with asked := world.outside.asked ++ [token] } }

end Ledger

/-- What may happen.  A check comes with what its verifier does while it is asked and then answers,
if it is asked at all; so a run has verifiers that go by what they saw, and also those that always
do the same. -/
inductive Occurrence where
  | login (authenticator : Authenticator) (transport : Transport) (attempt : Attempt)
  | check (reader : TokenReader) (headers : Headers) (during : List Occurrence)
      (answer : Except Refusal Claims)
  | setClocks (clocks : Clocks)
  | sweep
  | restock (store : Store)

namespace Occurrence

def conducted (during : StateM (World Ledger) Unit) (answer : Except Refusal Claims) :
    TokenVerifier Ledger := fun token => do
  Ledger.ask token
  during
  pure answer

def attend [Url.International] (authenticator : Authenticator) (transport : Transport)
    (attempt : Attempt) : StateM (World Ledger) Unit := do
  let run := authenticator.authenticate transport attempt
  Check.note run.journal
  Ledger.file (.login run.result)

def examine (reader : TokenReader) (headers : Headers) (verify : TokenVerifier Ledger) :
    StateM (World Ledger) Unit := do
  let before ← get
  let answer ← Check.isAuthenticated reader verify headers
  let after ← get
  Ledger.file
    (.check (reader headers) (after.journal.drop before.journal.length) answer)

theorem examine_of_run {reader : TokenReader} {headers : Headers} {verify : TokenVerifier Ledger}
    {world after : World Ledger} {answer : Answer}
    (hrun : (Check.isAuthenticated reader verify headers).run world = (answer, after)) :
    (examine reader headers verify).run world =
      (Ledger.file (.check (reader headers)
        (after.journal.drop world.journal.length) answer)).run after := by
  have hfiled : (examine reader headers verify).run world =
      (Ledger.file (.check (reader headers)
        (((Check.isAuthenticated reader verify headers).run world).2.journal.drop
          world.journal.length)
        ((Check.isAuthenticated reader verify headers).run world).1)).run
        ((Check.isAuthenticated reader verify headers).run world).2 := rfl
  rw [hfiled, hrun]

mutual

def run [Url.International] : Occurrence → StateM (World Ledger) Unit
  | login authenticator transport attempt => attend authenticator transport attempt
  | check reader headers during answer =>
    examine reader headers (conducted (runAll during) answer)
  | setClocks clocks => modify fun world => { world with clocks := clocks }
  | sweep => modify fun world => { world with store := world.store.sweep world.clocks.eviction }
  | restock store => modify fun world => { world with store := store }

def runAll [Url.International] : List Occurrence → StateM (World Ledger) Unit
  | [] => pure ()
  | occurrence :: rest => do
    run occurrence
    runAll rest

end

end Occurrence
end Gatekeeper
