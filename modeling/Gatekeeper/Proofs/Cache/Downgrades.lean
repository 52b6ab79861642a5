import Gatekeeper.Proofs.Cache.Checks
import Gatekeeper.Proofs.Token.Refusals

/-!
# Refusals that are a plain negative answer

A check of a request answers that the request is not authenticated, and not with an
error, where its token is refused for its signature or for its age.  Refusals for the
age come after all others, so such a token is wrongly signed, or authentic and too old.
-/

namespace Gatekeeper
namespace Check

variable {verifier : Verifier} {token : BearerToken} {refusal : Refusal}

theorem isAcceptable_of_settle {now : Int} {world : World σ}
    (hanswer : ((settle token now (.error refusal)).run world).1 = .ok none) :
    refusal.isAcceptable = true := by
  by_cases hacceptable : refusal.isAcceptable = true
  · exact hacceptable
  · simp only [settle, verdict, if_neg hacceptable] at hanswer
    cases hanswer

theorem consult_asTokenVerifier (verifier : Verifier) (token : BearerToken) (now : Int)
    (world : World σ) :
    (consult verifier.asTokenVerifier token now).run world =
      (settle token now (verifier.verify world.clocks.wall token.value)).run world := rfl

theorem isAcceptable_of_checkToken {world : World σ}
    (hverify : verifier.verify world.clocks.wall token.value = .error refusal)
    (hanswer : ((checkToken verifier.asTokenVerifier token).run world).1 = .ok none) :
    refusal.isAcceptable = true := by
  cases hlookup : lookup world.store world.clocks.eviction token world.clocks.wall with
  | hit =>
      rw [checkToken_of_hit _ hlookup] at hanswer
      cases hanswer
  | miss =>
      rw [checkToken_of_miss _ hlookup, consult_asTokenVerifier, hverify] at hanswer
      exact isAcceptable_of_settle hanswer
  | stale =>
      rw [checkToken_of_stale _ hlookup, consult_asTokenVerifier, hverify] at hanswer
      exact isAcceptable_of_settle hanswer

theorem isAcceptable_of_isAuthenticated {reader : TokenReader} {headers : Headers}
    {world : World σ} (hread : reader headers = .ok token)
    (hverify : verifier.verify world.clocks.wall token.value = .error refusal)
    (hanswer : ((isAuthenticated reader verifier.asTokenVerifier headers).run world).1 = .ok none) :
    refusal.isAcceptable = true := by
  rw [isAuthenticated_run, checkRequest_of_ok _ hread] at hanswer
  let opening : World σ :=
    { world with journal := world.journal ++
      [.span .tokenCheck "is_authenticated", .count (.flow .tokenCheck .attempt)] }
  have hopening : verifier.verify opening.clocks.wall token.value = .error refusal := hverify
  exact isAcceptable_of_checkToken hopening hanswer

end Check

namespace Verifier

/-- A verifier that is built from settings refuses tokens in stages.  Before the signature is right
nothing of the payload shows: the header and the signature alone decide the refusal.  No refusal
is internal, and only an authentic token that is too old is expired.  Where a check makes a
negative answer of a refusal, the token is wrongly signed, or authentic and too old. -/
theorem refuses_in_stages {settings : VerifierSettings} {verifier : Verifier}
    (hbuild : settings.build = .ok verifier) :
    (forall now token refusal, verifier.verify now token = .error refusal <->
      Fails settings verifier now token.toList refusal) ∧
    (forall front signature, exists refusal,
      (forall now token payload, Compact.Splits token.toList ⟨front, payload, signature⟩ ->
        ¬settings.Signs verifier.algorithm (Utf8.encodeChars (front ++ '.' :: payload))
          (Utf8.encodeChars signature) -> verifier.verify now token = .error refusal) ∧
      (verifier.algorithm.family = .secret -> Header.Reads front verifier.algorithm ->
        refusal.kind = .signatureInvalid)) ∧
    (forall now token refusal, verifier.verify now token = .error refusal ->
      refusal.kind ≠ .internal ∧
        (refusal.kind = .expired -> Outdated settings verifier now token.toList)) ∧
    forall (reader : TokenReader) (headers : Headers) (world : World σ) token refusal,
      reader headers = .ok token ->
      verifier.verify world.clocks.wall token.value = .error refusal ->
      ((Check.isAuthenticated reader verifier.asTokenVerifier headers).run world).1 = .ok none ->
        WronglySigned settings verifier token.value.toList ∨
          Outdated settings verifier world.clocks.wall token.value.toList := by
  have hbuilds := VerifierSettings.builds_of_build hbuild
  have hkind : forall now token refusal, verifier.verify now token = .error refusal ->
      refusal.kind = .malformed ∨ refusal.kind = .rejected ∨
        (refusal.kind = .signatureInvalid ∧ WronglySigned settings verifier token.toList) ∨
        (refusal.kind = .expired ∧ Outdated settings verifier now token.toList) := by
    intro now token refusal hverify
    exact ((verify_eq_error_iff hbuilds).mp hverify).kind hbuilds
  refine ⟨fun _ _ _ => verify_eq_error_iff hbuilds, ?_, ?_, ?_⟩
  · intro front signature
    rcases exists_fault_of_unsigned hbuilds front signature with ⟨fault, hmisses, hsecret⟩
    refine ⟨fault.refusal, ?_, ?_⟩
    · intro now token payload hsplits hunsigned
      exact (verify_eq_error_iff hbuilds).mpr (.unsigned (hmisses _ _ hsplits hunsigned))
    · intro hfamily hreads
      rw [hsecret hfamily hreads]
      rfl
  · intro now token refusal hverify
    rcases hkind now token refusal hverify with h | h | ⟨h, _⟩ | ⟨h, houtdated⟩
    · rw [h]
      exact ⟨nofun, nofun⟩
    · rw [h]
      exact ⟨nofun, nofun⟩
    · rw [h]
      exact ⟨nofun, nofun⟩
    · rw [h]
      exact ⟨nofun, fun _ => houtdated⟩
  · intro reader headers world token refusal hread hverify hanswer
    have hacceptable := Refusal.isAcceptable_iff.mp
      (Check.isAcceptable_of_isAuthenticated hread hverify hanswer)
    rcases hkind _ _ refusal hverify with h | h | ⟨_, hwrongly⟩ | ⟨_, houtdated⟩
    · rw [h] at hacceptable
      rcases hacceptable with h | h <;> cases h
    · rw [h] at hacceptable
      rcases hacceptable with h | h <;> cases h
    · exact Or.inl hwrongly
    · exact Or.inr houtdated

theorem refuses_in_stages_expiring :
    tolerantVerifier.verify 111 expiringToken = .error (expiredRefusal 100) := by
  have hlate : (100 : Int) + min 10 0x7fffffffffffffff < 111 := by
    omega
  exact ((@refuses_in_stages Unit _ _ build_tolerant).left 111 expiringToken _).mpr
    (.expired signed_expiringToken tells_expiringParts meets_tolerantVerifier
      ⟨rfl, by decide, hlate⟩)

end Verifier
end Gatekeeper
