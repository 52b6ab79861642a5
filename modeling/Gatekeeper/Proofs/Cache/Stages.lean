import Gatekeeper.Cache.Interleaving
import Gatekeeper.Proofs.Cache.Checks

/-!
# Stages and whole checks

The operations of the stages, one after the other with nothing between them, are
the check of a request.  So a run of many checks is made of the operations of
the checks themselves, and of nothing else.
-/

namespace Gatekeeper
namespace Check
namespace Stage

@[simp] theorem remaining_reading (verify : TokenVerifier σ) (reader : TokenReader) (headers : Headers) :
    remaining verify (reading reader headers) = checkRequest reader verify headers := rfl

@[simp] theorem remaining_done (verify : TokenVerifier σ) (answer : Answer) :
    remaining verify (done answer) = pure answer := rfl

theorem advance_lookingUp_run {token : BearerToken} {now : Int} {world : World σ}
    {result : Lookup}
    (hlookup : lookup world.store world.clocks.eviction token now = result) :
    (advance (lookingUp token now)).run world =
      (match result with
        | .hit => done (.ok (some token))
        | .stale => discarding token now
        | .miss => asking token now,
        { world with journal := world.journal ++ [.count (.lookup result)] }) := by
  have hrun := lookUp_run token now world
  rw [hlookup] at hrun
  cases result <;> simp only [advance, bind, StateT.bind, StateT.run, hrun] <;> rfl

/-- The next operation of a check comes first in what is left to do. -/
theorem advance_bind_remaining (verify : TokenVerifier σ) {stage : Stage}
    (hasking : stage.isAsking = false) :
    (do remaining verify (← stage.advance)) = remaining verify stage := by
  funext world
  cases stage with
  | reading reader headers =>
      show remaining verify (advance (reading reader headers) world).1
          (advance (reading reader headers) world).2 =
        checkRequest reader verify headers world
      cases hread : reader headers with
      | ok token =>
          simp only [advance, checkRequest, hread]
          rfl
      | error fault =>
          cases fault <;> simp only [advance, checkRequest, hread] <;> rfl
  | timing token => rfl
  | lookingUp token now =>
      have hrun := lookUp_run token now world
      cases hlookup : lookup world.store world.clocks.eviction token now <;>
        rw [hlookup] at hrun <;>
        simp only [advance, remaining, bind, StateT.bind, hrun] <;> rfl
  | discarding token now => rfl
  | asking token now => cases hasking
  | keeping token entry => rfl
  | done answer => rfl

theorem receive_bind_remaining (verify : TokenVerifier σ) (token : BearerToken) (now : Int) :
    (do remaining verify (← receive token now (← verify token))) =
      remaining verify (asking token now) := by
  funext world
  show (remaining verify =<< receive token now (verify token world).1) (verify token world).2 =
    settle token now (verify token world).1 (verify token world).2
  unfold receive settle
  cases verdict now (verify token world).1 <;> rfl

end Stage
end Check
end Gatekeeper
