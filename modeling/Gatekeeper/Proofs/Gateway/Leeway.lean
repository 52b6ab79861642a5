import Gatekeeper.Gateway
import Gatekeeper.Proofs.Cache.Downgrades
import Gatekeeper.Proofs.Cache.Transparency
import Gatekeeper.Proofs.Url.Authorities

/-!
# The leeway does not reach the answers of a gateway

A verifier with a leeway accepts tokens that expired a short time ago.  A gateway does
not: the entry that a check makes of the claims has to outlast the present by itself,
and where there is no such entry the answer is negative.  So the answer to a request
with an authentic token is decided by the expiry alone, whatever was checked before.
-/

namespace Gatekeeper
namespace Check

variable {verifier : Verifier} {token : BearerToken} {claims : Claims}

/-!
# Faithful stores at any time
-/

theorem faithful_settle {world : World σ} (now time : Int)
    (hstore : Faithful verifier world.store) :
    Faithful verifier
      ((settle token now (verifier.verify time token.value)).run world).2.store := by
  cases hverify : verifier.verify time token.value with
  | error refusal =>
      by_cases hacceptable : refusal.isAcceptable = true
      · simp only [settle, verdict, if_pos hacceptable]
        exact hstore
      · simp only [settle, verdict, if_neg hacceptable]
        exact hstore
  | ok claims =>
      have hdecode := (Verifier.verify_eq_ok_iff.mp hverify).left
      cases hentry : Entry.ofClaims claims now with
      | some entry =>
          simp only [settle, verdict, hentry]
          exact hstore.insert world.clocks.eviction hdecode hentry
      | none =>
          simp only [settle, verdict, hentry]
          exact hstore

theorem faithful_checkToken {world : World σ} (hstore : Faithful verifier world.store) :
    Faithful verifier ((checkToken verifier.asTokenVerifier token).run world).2.store := by
  by_cases hhit : lookup world.store world.clocks.eviction token world.clocks.wall = .hit
  · rw [checkToken_of_hit _ hhit]
    exact hstore
  · rcases exists_checkToken_of_ne_hit hhit with ⟨store, noted, hlooked, hrun⟩
    have hfaithful : Faithful verifier store := by
      rcases hlooked with rfl | rfl
      · exact hstore
      · exact hstore.erase token
    rw [hrun, consult_asTokenVerifier]
    exact faithful_settle _ _ hfaithful

theorem faithful_isAuthenticated {world : World σ} (reader : TokenReader) (headers : Headers)
    (hstore : Faithful verifier world.store) :
    Faithful verifier
      ((isAuthenticated reader verifier.asTokenVerifier headers).run world).2.store := by
  rw [isAuthenticated_store]
  cases hread : reader headers with
  | ok token =>
      rw [checkRequest_of_ok _ hread]
      exact faithful_checkToken hstore
  | error fault =>
      rcases exists_checkRequest_of_error hread (opened world) with ⟨answer, noted, hrun⟩
      rw [hrun]
      exact hstore

/-!
# Tokens that have run out
-/

theorem ofClaims_of_not_outlasts {now : Int} (hlapsed : ¬claims.Outlasts now) :
    Entry.ofClaims claims now = none := by
  cases hentry : Entry.ofClaims claims now with
  | none => rfl
  | some entry => exact absurd (Entry.grants_of_ofClaims hentry).outlasts hlapsed

theorem settle_of_not_outlasts {world : World σ} {now : Int}
    (hdecode : verifier.decode token.value = .ok claims) (hlapsed : ¬claims.Outlasts now) :
    ((settle token now (verifier.verify now token.value)).run world).1 = .ok none := by
  by_cases hcurrent : claims.IsCurrent verifier.leeway now
  · have hverify := Verifier.verify_of_isCurrent hdecode hcurrent
    simp only [settle, verdict, hverify, ofClaims_of_not_outlasts hlapsed]
    rfl
  · rcases Verifier.verify_of_not_isCurrent hdecode hcurrent with ⟨expiry, hverify⟩
    have hacceptable : (Verifier.expiredRefusal expiry).isAcceptable = true :=
      Refusal.isAcceptable_iff.mpr (Or.inl rfl)
    simp only [settle, verdict, hverify, if_pos hacceptable]
    rfl

theorem lookup_ne_hit_of_not_outlasts {store : Store} (clock : Nat) {now : Int}
    (hstore : Faithful verifier store) (hdecode : verifier.decode token.value = .ok claims)
    (hlapsed : ¬claims.Outlasts now) : lookup store clock token now ≠ .hit := by
  intro hhit
  rcases exists_mem_of_lookup_eq_hit hhit with ⟨slot, hmem, hvalid⟩
  rcases hstore token slot hmem with ⟨found, earlier, hfound, hgrants⟩
  rw [hdecode] at hfound
  cases hfound
  exact hlapsed (hgrants.outlasts_of_isValidAt hvalid)

theorem checkToken_of_not_outlasts {world : World σ} (hstore : Faithful verifier world.store)
    (hdecode : verifier.decode token.value = .ok claims)
    (hlapsed : ¬claims.Outlasts world.clocks.wall) :
    ((checkToken verifier.asTokenVerifier token).run world).1 = .ok none := by
  have hasked := lookup_ne_hit_of_not_outlasts world.clocks.eviction hstore hdecode hlapsed
  rcases exists_checkToken_of_ne_hit hasked with ⟨store, noted, _, hrun⟩
  rw [hrun, consult_asTokenVerifier]
  exact settle_of_not_outlasts hdecode hlapsed

end Check

theorem Claims.isCurrent_iff_of_exp {claims : Claims} {leeway : Nat} {now exp : Int}
    (hexp : claims.exp = some exp) (hnonzero : exp ≠ 0) :
    claims.IsCurrent leeway now <-> now ≤ exp + min (leeway : Int) 0x7fffffffffffffff := by
  constructor
  · intro hcurrent
    cases hcurrent with
    | unlimited hnone =>
        rw [hexp] at hnone
        cases hnone
    | zero hzero =>
        rw [hexp] at hzero
        cases hzero
        exact absurd rfl hnonzero
    | lasting hother hnow =>
        rw [hexp] at hother
        cases hother
        exact hnow
  · exact .lasting hexp

/-!
# Gateways
-/

namespace Gateway

/-- What becomes of a gateway: requests are checked, and entries go from its store, because of
their age or to make room. -/
inductive Becomes (gateway : Gateway) : Gateway -> Prop
  | same : Becomes gateway gateway
  | checked {later : Gateway} (hlater : Becomes gateway later) (clocks : Clocks)
      (headers : Headers) : Becomes gateway (later.isAuthenticated clocks headers).2.1
  | swept {later : Gateway} (hlater : Becomes gateway later) (clock : Nat) :
      Becomes gateway { later with store := later.store.sweep clock }
  | evicted {later : Gateway} (hlater : Becomes gateway later) (token : BearerToken) :
      Becomes gateway { later with store := later.store.erase token }

theorem Becomes.faithful {gateway later : Gateway} (hlater : gateway.Becomes later)
    (hstore : Check.Faithful gateway.verifier gateway.store) :
    later.verifier = gateway.verifier ∧ Check.Faithful gateway.verifier later.store := by
  induction hlater with
  | same => exact ⟨rfl, hstore⟩
  | @checked later _ clocks headers ih =>
      rcases ih with ⟨hverifier, hfaithful⟩
      refine ⟨hverifier, ?_⟩
      let world : World Unit := ⟨later.store, clocks, [], ()⟩
      have hworld : Check.Faithful gateway.verifier world.store := hfaithful
      have hchecked := Check.faithful_isAuthenticated Bearer.read headers hworld
      rw [← hverifier] at hchecked ⊢
      exact hchecked
  | swept _ clock ih =>
      refine ⟨ih.left, ih.right.of_subset ?_⟩
      intro slot hmem
      exact Store.mem_of_mem_sweep hmem
  | evicted _ token ih => exact ⟨ih.left, ih.right.erase token⟩

theorem faithful_of_build [Url.International] {settings : Settings} {gateway : Gateway}
    (hbuild : build settings = .ok gateway) :
    settings.verifier.build = .ok gateway.verifier ∧
      Check.Faithful gateway.verifier gateway.store := by
  rcases except_bind_eq_ok.mp hbuild with ⟨provider, _, hbuild⟩
  rcases except_bind_eq_ok.mp hbuild with ⟨verifier, hverifier, hbuild⟩
  cases hbuild
  refine ⟨mapError_eq_ok.mp hverifier, ?_⟩
  intro token slot hmem
  cases hmem

section

variable {gateway : Gateway} {headers : Headers} {token : BearerToken} {claims : Claims}
  {clocks : Clocks}

theorem answer_of_not_outlasts (hread : Bearer.read headers = .ok token)
    (hstore : Check.Faithful gateway.verifier gateway.store)
    (hdecode : gateway.verifier.decode token.value = .ok claims)
    (hlapsed : ¬claims.Outlasts clocks.wall) :
    (gateway.isAuthenticated clocks headers).1 = .ok none := by
  let world : World Unit := Check.opened ⟨gateway.store, clocks, [], ()⟩
  have hworld : Check.Faithful gateway.verifier world.store := hstore
  have hanswer := Check.checkToken_of_not_outlasts hworld hdecode hlapsed
  rw [← Check.checkRequest_of_ok _ hread, ← Check.isAuthenticated_answer] at hanswer
  exact hanswer

theorem answer_of_outlasts (hread : Bearer.read headers = .ok token)
    (hstore : Check.Faithful gateway.verifier gateway.store)
    (hdecode : gateway.verifier.decode token.value = .ok claims) (hnow : 0 ≤ clocks.wall)
    (houtlasts : claims.Outlasts clocks.wall) :
    (gateway.isAuthenticated clocks headers).1 = .ok (some token) := by
  let world : World Unit := Check.opened ⟨gateway.store, clocks, [], ()⟩
  have hworld : Check.Faithful gateway.verifier world.store := hstore
  have hanswer := (Check.transparent_checkRequest Bearer.read headers [] hnow hworld).answer
  rw [Check.disturbed_nil, ← Check.isAuthenticated_answer] at hanswer
  have hverify := Check.verify_of_outlasts hnow hdecode houtlasts
  have hstoreless : Check.storeless Bearer.read gateway.verifier clocks.wall headers =
      .ok (some token) := by
    simp only [Check.storeless, hread]
    exact Check.verified_of_outlasts hverify houtlasts
  exact hanswer.trans hstoreless

end

/-- A gateway that is built from settings answers a request with an authentic token by the expiry
of the token alone, whatever it has checked before.  Its verifier accepts the token for the length
of the leeway after the expiry; in that time the gateway does not. -/
theorem isAuthenticated_ignores_leeway [Url.International] {settings : Settings}
    {gateway later : Gateway} (hbuild : build settings = .ok gateway)
    (hlater : gateway.Becomes later) {headers : Headers} {token : BearerToken}
    (hread : Bearer.read headers = .ok token)
    {parts : Compact} {claims : Claims} {restriction : Restriction}
    (hsigned : settings.verifier.Signed gateway.verifier.algorithm token.value.toList parts)
    (htells : Tells parts.payload claims restriction) (hmeets : gateway.verifier.Meets restriction)
    (clocks : Clocks) :
    (0 ≤ clocks.wall -> ((later.isAuthenticated clocks headers).1 = .ok (some token) <->
      claims.Outlasts clocks.wall)) ∧
    forall exp, claims.exp = some exp -> exp ≠ 0 -> exp ≤ clocks.wall ->
      (later.isAuthenticated clocks headers).1 = .ok none ∧
      (gateway.verifier.verify clocks.wall token.value = .ok claims <->
        clocks.wall ≤ exp + min (settings.verifier.leeway : Int) 0x7fffffffffffffff) := by
  rcases faithful_of_build hbuild with ⟨hverifier, hstore⟩
  rcases hlater.faithful hstore with ⟨hsame, hfaithful⟩
  have hbuilds := VerifierSettings.builds_of_build hverifier
  have hdecode : gateway.verifier.decode token.value = .ok claims :=
    Verifier.decode_eq_ok_iff.mpr ⟨parts, restriction,
      (VerifierSettings.signed_iff hbuilds).mpr hsigned, payload_iff_tells.mpr htells,
      Verifier.permits_iff_meets.mpr hmeets⟩
  have hlapsed : ¬claims.Outlasts clocks.wall ->
      (later.isAuthenticated clocks headers).1 = .ok none := by
    intro hlapsed
    exact answer_of_not_outlasts hread (hsame ▸ hfaithful) (hsame ▸ hdecode) hlapsed
  constructor
  · intro hnow
    constructor
    · intro hanswer
      by_contra houtlasts
      rw [hlapsed houtlasts] at hanswer
      cases hanswer
    · intro houtlasts
      exact answer_of_outlasts hread (hsame ▸ hfaithful) (hsame ▸ hdecode) hnow houtlasts
  · intro exp hexp hnonzero hpast
    have hexpiry := Claims.expiresAt_eq_some_iff.mpr ⟨hexp, hnonzero⟩
    constructor
    · apply hlapsed
      intro houtlasts
      have hlater := houtlasts exp hexpiry
      omega
    · rw [Verifier.verify_eq_ok_iff, Verifier.checkAge_iff_isCurrent htells.isTimed,
        hbuilds.leeway, Claims.isCurrent_iff_of_exp hexp hnonzero]
      exact and_iff_right hdecode

/-!
A gateway whose verifier tolerates ten seconds, and a request with a token that expires at 100.
-/

attribute [local instance] Url.International.bookshop

def tolerantSettings : Settings :=
  ⟨⟨some "http://idp.local", .empty, none⟩, .none, Verifier.tolerant⟩

def presenting : Headers :=
  [("Authorization", Utf8.encode ("Bearer " ++ Verifier.expiringToken))]

theorem build_tolerantSettings :
    exists gateway, build tolerantSettings = .ok gateway ∧
      gateway.verifier = Verifier.tolerantVerifier := by
  cases hprovider : tolerantSettings.provider.build with
  | error fault =>
      have hsome : tolerantSettings.provider.build.toOption.isSome = true := by decide +kernel
      rw [hprovider] at hsome
      cases hsome
  | ok provider =>
      refine ⟨⟨⟨provider, none⟩, Verifier.tolerantVerifier, Store.empty none⟩, ?_, rfl⟩
      unfold build
      rw [hprovider]
      rfl

theorem isAuthenticated_ignores_leeway_expired :
    exists gateway, build tolerantSettings = .ok gateway ∧
      (gateway.isAuthenticated ⟨90, 0⟩ presenting).1 = .ok (some ⟨Verifier.expiringToken⟩) ∧
      ((gateway.isAuthenticated ⟨90, 0⟩ presenting).2.1.isAuthenticated ⟨105, 15⟩ presenting).1 =
        .ok none ∧
      gateway.verifier.verify 105 Verifier.expiringToken = .ok Verifier.expiring := by
  rcases build_tolerantSettings with ⟨gateway, hbuild, hverifier⟩
  have hread : Bearer.read presenting = .ok ⟨Verifier.expiringToken⟩ := by decide +kernel
  have hsigned : tolerantSettings.verifier.Signed gateway.verifier.algorithm
      Verifier.expiringToken.toList Verifier.expiringParts :=
    hverifier ▸ Verifier.signed_expiringToken
  have hmeets : gateway.verifier.Meets Restriction.none :=
    hverifier ▸ Verifier.meets_tolerantVerifier
  have hearly := isAuthenticated_ignores_leeway hbuild .same hread hsigned
    Verifier.tells_expiringParts hmeets ⟨90, 0⟩
  have hlate := (isAuthenticated_ignores_leeway hbuild (.checked .same ⟨90, 0⟩ presenting) hread
    hsigned Verifier.tells_expiringParts hmeets ⟨105, 15⟩).right 100 rfl (by decide) (by decide)
  refine ⟨gateway, hbuild, (hearly.left (by decide)).mpr ?_, hlate.left,
    hlate.right.mpr (by decide)⟩
  intro expiry hexpiry
  cases hexpiry
  decide

end Gateway
end Gatekeeper
