import Gatekeeper.Cache.Entry

/-!
# What an entry is worth

The entry made from claims lasts as long as the claims do, and an entry that is
valid speaks for claims that have not run out.
-/

namespace Gatekeeper

/-- Claims that have no expiry, or one after `now`. -/
def Claims.Outlasts (claims : Claims) (now : Int) : Prop :=
  forall expiry, claims.expiresAt = some expiry -> now < expiry

theorem Claims.expiresAt_ne_zero {claims : Claims} {expiry : Int}
    (hexpiry : claims.expiresAt = some expiry) : expiry ≠ 0 := by
  unfold Claims.expiresAt at hexpiry
  rcases Option.filter_eq_some_iff.mp hexpiry with ⟨_, hne⟩
  simpa using hne

theorem Claims.exp_eq_of_expiresAt {claims : Claims} {expiry : Int}
    (hexpiry : claims.expiresAt = some expiry) : claims.exp = some expiry := by
  unfold Claims.expiresAt at hexpiry
  exact (Option.filter_eq_some_iff.mp hexpiry).left

namespace Entry

/-- The entry is the one for claims that were accepted at `now`. -/
def Grants (claims : Claims) (now : Int) (entry : Entry) : Prop :=
  match claims.expiresAt with
  | none => entry.expiresAt = 0 ∧ entry.lifetime = none
  | some expiry =>
    now < expiry ∧ entry.expiresAt = expiry ∧
      exists ttl : Nat, entry.lifetime = some ttl ∧ (ttl : Int) = expiry - now

theorem isValidAt_iff {entry : Entry} {now : Int} :
    entry.isValidAt now = true <-> entry.expiresAt = 0 ∨ now < entry.expiresAt := by
  simp only [isValidAt, Bool.or_eq_true, decide_eq_true_eq]
  rfl

theorem expiringAt_eq_some_iff {expiry now : Int} {entry : Entry} :
    expiringAt expiry now = some entry <->
      0 < expiry - now ∧ expiry - now ≤ Verifier.mostTime ∧
        entry = ⟨expiry, some (expiry - now).toNat⟩ := by
  unfold expiringAt
  by_cases hspan : 0 < expiry - now ∧ expiry - now ≤ Verifier.mostTime
  · rw [if_pos hspan]
    constructor
    · intro hentry
      injection hentry with hentry
      exact ⟨hspan.left, hspan.right, hentry.symm⟩
    · intro hentry
      rw [hentry.right.right]
  · rw [if_neg hspan]
    constructor
    · intro hentry
      cases hentry
    · intro hentry
      exact absurd ⟨hentry.left, hentry.right.left⟩ hspan

theorem ofClaims_of_exp_eq {claims others : Claims} (hexp : claims.exp = others.exp) (now : Int) :
    ofClaims claims now = ofClaims others now := by
  unfold ofClaims Claims.expiresAt
  rw [hexp]

theorem grants_of_ofClaims {claims : Claims} {now : Int} {entry : Entry}
    (hentry : ofClaims claims now = some entry) : Grants claims now entry := by
  unfold ofClaims at hentry
  unfold Grants
  cases hexpiry : claims.expiresAt with
  | none =>
      rw [hexpiry] at hentry
      injection hentry with hentry
      rw [← hentry]
      exact ⟨rfl, rfl⟩
  | some expiry =>
      simp only [hexpiry] at hentry
      rcases expiringAt_eq_some_iff.mp hentry with ⟨hpos, _, hentry⟩
      rw [hentry]
      exact ⟨by omega, rfl, (expiry - now).toNat, rfl, by omega⟩

theorem Grants.outlasts {claims : Claims} {now : Int} {entry : Entry}
    (hgrants : Grants claims now entry) : claims.Outlasts now := by
  intro expiry hexpiry
  simp only [Grants, hexpiry] at hgrants
  exact hgrants.left

theorem Grants.outlasts_of_isValidAt {claims : Claims} {earlier now : Int} {entry : Entry}
    (hgrants : Grants claims earlier entry) (hvalid : entry.isValidAt now = true) :
    claims.Outlasts now := by
  intro expiry hexpiry
  have hne := Claims.expiresAt_ne_zero hexpiry
  simp only [Grants, hexpiry] at hgrants
  rw [isValidAt_iff, hgrants.right.left] at hvalid
  cases hvalid with
  | inl hzero => exact absurd hzero hne
  | inr hlater => exact hlater

end Entry
end Gatekeeper
