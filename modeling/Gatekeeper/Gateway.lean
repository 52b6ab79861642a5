import Gatekeeper.Cache.Check
import Gatekeeper.Login.Authenticator
import Gatekeeper.Settings

/-!
# The gateway

Both questions together: whether credentials are right, and whether a request
carries a valid token.
-/

namespace Gatekeeper

structure Gateway where
  authenticator : Authenticator
  verifier : Verifier
  store : Store

namespace Gateway

def build [Url.International] (settings : Settings) : Except ConfigFault Gateway := do
  let provider ← settings.provider.build.mapError .provider
  let verifier ← settings.verifier.build.mapError .verifier
  pure ⟨⟨provider, none⟩, verifier, Store.empty settings.cache.capacity⟩

def withHook (gateway : Gateway) (hook : Hook) : Gateway :=
  { gateway with authenticator := { gateway.authenticator with hook := some hook } }

def authenticate [Url.International] (gateway : Gateway) (transport : Transport)
    (attempt : Attempt) : Run Outcome :=
  gateway.authenticator.authenticate transport attempt

/-- A check of a request, with the gateway after it and the journal of the check. -/
def isAuthenticated (gateway : Gateway) (clocks : Clocks) (headers : Headers) :
    Answer × Gateway × Journal :=
  let (answer, world) :=
    (Check.isAuthenticated Bearer.read gateway.verifier.asTokenVerifier headers).run
      ⟨gateway.store, clocks, [], ()⟩
  (answer, { gateway with store := world.store }, world.journal)

def diagnostic (gateway : Gateway) (clock : Nat) : String :=
  Diagnostic.record "AuthenticationHandler" [
    ("authenticator", gateway.authenticator.diagnostic),
    ("tokens", gateway.store.diagnostic clock)]

end Gateway
end Gatekeeper
