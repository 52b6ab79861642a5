import Gatekeeper.Proofs.Cache.Effects
import Gatekeeper.Proofs.Token.Signing

/-!
# Times before which a token is not to be used

The claims of a token may name such a time.  It is read with the other claims and given
to whoever has the token verified, and nothing else comes of it: what a verifier says to
an authentic token depends on the expiry alone, and a check keeps the token long before
its time.
-/

namespace Gatekeeper

/-!
# Checks of tokens that are accepted
-/

namespace Check

theorem checkToken_of_verify {verifier : Verifier} {token : BearerToken} {claims : Claims}
    {world : World σ} (hunbounded : world.store.capacity = none) (hnow : 0 ≤ world.clocks.wall)
    (htimed : claims.IsTimed) (houtlasts : claims.Outlasts world.clocks.wall)
    (hverify : verifier.verify world.clocks.wall token.value = .ok claims) :
    exists after, (checkToken verifier.asTokenVerifier token).run world =
        (.ok (some token), after) ∧
      exists entry, after.store.get? after.clocks.eviction token = some entry ∧
        entry.isValidAt world.clocks.wall = true := by
  by_cases hhit : lookup world.store world.clocks.eviction token world.clocks.wall = .hit
  · exact ⟨_, checkToken_of_hit _ hhit, lookup_eq_hit_iff.mp hhit⟩
  · have hleaves := leaves_checkToken (Oracle.ofVerifier verifier) hunbounded hhit
    rw [asTokenVerifier_ofVerifier] at hleaves
    have hanswer := hleaves.accepted claims hverify htimed houtlasts hnow
    rcases hleaves.written hanswer with ⟨_, entry, _, _, hvalid, _, hget⟩
    exact ⟨_, Prod.ext hanswer rfl, entry, hget, hvalid⟩

end Check

/-!
# Authentic tokens
-/

namespace Verifier

def Authentic (verifier : Verifier) (token : String) (claims : Claims) : Prop :=
  exists parts restriction, verifier.signed token.toList = .ok parts ∧
    Tells parts.payload claims restriction ∧ verifier.Meets restriction

variable {verifier : Verifier} {token : String} {claims : Claims}

theorem authentic_iff_decode :
    verifier.Authentic token claims <-> verifier.decode token = .ok claims := by
  unfold Authentic
  simp only [decode_eq_ok_iff, payload_iff_tells, permits_iff_meets]

theorem verify_of_decode_ok (hdecode : verifier.decode token = .ok claims) (now : Int) :
    verifier.verify now token = (verifier.checkAge claims now).map fun _ => claims := by
  cases hage : verifier.checkAge claims now with
  | ok _ => exact verify_eq_ok_iff.mpr ⟨hdecode, hage⟩
  | error refusal => exact verify_of_checkAge_error hdecode hage

theorem verify_of_decode_notBefore {other : String} {notBefore : Option Int}
    (hdecode : verifier.decode token = .ok claims)
    (hother : verifier.decode other = .ok { claims with nbf := notBefore }) (now : Int) :
    verifier.verify now other =
      (verifier.verify now token).map fun claims => { claims with nbf := notBefore } := by
  have hage : verifier.checkAge { claims with nbf := notBefore } now =
      verifier.checkAge claims now := rfl
  rw [verify_of_decode_ok hother, verify_of_decode_ok hdecode, hage]
  cases verifier.checkAge claims now <;> rfl

/-- The time before which an authentic token is not to be used does not matter to a verifier, with
whatever leeway.  The token is accepted while it is current by its expiry, and else refused as
expired; a token that differs in that time only gets the same answer.  A check of the token in a
store without a capacity answers with it, whatever the store holds, and there is an entry for it
afterwards. -/
theorem verify_ignores_notBefore {token : BearerToken}
    (hauthentic : verifier.Authentic token.value claims) :
    (forall now, (verifier.verify now token.value = .ok claims <->
        claims.IsCurrent verifier.leeway now) ∧
      forall refusal, verifier.verify now token.value = .error refusal ->
        refusal.kind = .expired) ∧
    (forall other notBefore, verifier.Authentic other { claims with nbf := notBefore } ->
      forall now, verifier.verify now other =
        (verifier.verify now token.value).map fun claims => { claims with nbf := notBefore }) ∧
    forall {σ : Type} (world : World σ) (reader : TokenReader) (headers : Headers),
      world.store.capacity = none -> reader headers = .ok token -> 0 ≤ world.clocks.wall ->
      claims.Outlasts world.clocks.wall ->
        exists after, (Check.isAuthenticated reader verifier.asTokenVerifier headers).run world =
            (.ok (some token), after) ∧
          exists entry, after.store.get? after.clocks.eviction token = some entry ∧
            entry.isValidAt world.clocks.wall = true := by
  have hdecode := authentic_iff_decode.mp hauthentic
  have htimed := isTimed_of_decode hdecode
  refine ⟨?_, ?_, ?_⟩
  · intro now
    constructor
    · rw [verify_eq_ok_iff, checkAge_iff_isCurrent htimed]
      exact and_iff_right hdecode
    · intro refusal hrefused
      by_cases hcurrent : claims.IsCurrent verifier.leeway now
      · rw [verify_of_isCurrent hdecode hcurrent] at hrefused
        cases hrefused
      · rcases verify_of_not_isCurrent hdecode hcurrent with ⟨expiry, hexpired⟩
        rw [hexpired] at hrefused
        cases hrefused
        rfl
  · intro other notBefore hother
    exact verify_of_decode_notBefore hdecode (authentic_iff_decode.mp hother)
  · intro σ world reader headers hunbounded hread hnow houtlasts
    have hopened : (Check.opened world).store.capacity = none := hunbounded
    have hverify := Check.verify_of_outlasts hnow hdecode houtlasts
    rcases Check.checkToken_of_verify hopened hnow htimed houtlasts hverify with
      ⟨checked, hchecked, hentry⟩
    rw [← Check.checkRequest_of_ok _ hread] at hchecked
    exact ⟨_, Check.isAuthenticated_of_run hchecked, hentry⟩

/-!
A token that is not to be used before 200, for a verifier that tolerates ten seconds, at 100.
-/

def early : Claims :=
  { Claims.none with nbf := some 200 }

def earlyToken : BearerToken :=
  ⟨(Compact.issue .hs256 signingSecret (Header.bytes (some "JWT") .hs256) early).text⟩

theorem isTimed_early : early.IsTimed := by
  intro time htime
  rcases htime with h | h | h
  · cases h
  · cases h
  · cases h
    exact ⟨by decide, by decide⟩

theorem authentic_earlyToken :
    (keyed signingSecret .hs256 10).Authentic earlyToken.value early := by
  have hheader := Header.parse_bytes (some "JWT") .hs256
  exact authentic_iff_decode.mpr (decode_issue rfl isTimed_early hheader signingSecret 10)

theorem verify_ignores_notBefore_early :
    (keyed signingSecret .hs256 10).verify 100 earlyToken.value = .ok early ∧
      exists after, (Check.isAuthenticated (fun _ => .ok earlyToken)
          (keyed signingSecret .hs256 10).asTokenVerifier []).run
            (⟨Store.empty none, ⟨100, 0⟩, [], ()⟩ : World Unit) = (.ok (some earlyToken), after) ∧
        exists entry, after.store.get? after.clocks.eviction earlyToken = some entry ∧
          entry.isValidAt 100 = true := by
  rcases verify_ignores_notBefore authentic_earlyToken with ⟨hverify, _, hchecked⟩
  refine ⟨(hverify 100).left.mpr (.unlimited rfl), ?_⟩
  exact hchecked _ _ _ rfl rfl (by decide) nofun

end Verifier
end Gatekeeper
