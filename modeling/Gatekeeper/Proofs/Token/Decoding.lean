import Gatekeeper.Proofs.Json.Yields
import Gatekeeper.Proofs.Results
import Gatekeeper.Token.Verifier

/-!
# Decoded tokens

A token is decoded exactly if each stage succeeds.  The times among the claims
of a payload are in the range of times.
-/

namespace Gatekeeper

def Claims.IsTimed (claims : Claims) : Prop :=
  forall time, claims.exp = some time ∨ claims.iat = some time ∨ claims.nbf = some time ->
    Json.Number.leastInt64 ≤ time ∧ time ≤ Json.Number.mostInt64

namespace Claims

open Json Reader

theorem isTimed_none : Claims.none.IsTimed := by
  intro time htime
  rcases htime with h | h | h <;> cases h

theorem isTimed_of_parse {document : List UInt8} {claims : Claims}
    (hparse : parse document = .ok claims) : claims.IsTimed := by
  have hint64 := yields_integerWithin Number.leastInt64 Number.mostInt64 "i64"
  have hread : Yields IsTimed (record.read depthLimit) := by
    refine Record.yields_read isTimed_none ?_ depthLimit
    intro m hm depth
    simp only [record, List.mem_cons, List.not_mem_nil, or_false] at hm
    rcases hm with rfl | rfl | rfl | rfl | rfl | rfl
    · refine (Yields.optional hint64).map ?_
      intro exp hexp claims hclaims time htime
      rcases htime with h | h | h
      · exact hexp time h
      · exact hclaims time (Or.inr (Or.inl h))
      · exact hclaims time (Or.inr (Or.inr h))
    · refine (Yields.optional hint64).map ?_
      intro iat hiat claims hclaims time htime
      rcases htime with h | h | h
      · exact hclaims time (Or.inl h)
      · exact hiat time h
      · exact hclaims time (Or.inr (Or.inr h))
    · refine (Yields.optional hint64).map ?_
      intro nbf hnbf claims hclaims time htime
      rcases htime with h | h | h
      · exact hclaims time (Or.inl h)
      · exact hclaims time (Or.inr (Or.inl h))
      · exact hnbf time h
    all_goals
      refine Yields.map (Yields.of_forall fun _ => trivial) ?_
      intro text (_ : True) claims hclaims
      exact hclaims
  exact hread.whole.outcome hparse

end Claims

namespace Verifier

theorem signed_eq_ok_iff {verifier : Verifier} {token : List Char} {parts : Compact} :
    verifier.signed token = .ok parts <->
      verifier.key.family = verifier.algorithm.family ∧ Compact.split? token = some parts ∧
        header parts.header = .ok verifier.algorithm ∧
        verifier.key.accepts verifier.algorithm parts.signedBytes
          (Utf8.encodeChars parts.signature) = .ok true := by
  unfold signed
  by_cases hfamily : verifier.key.family = verifier.algorithm.family
  · rw [if_neg (not_not_intro hfamily)]
    cases hsplit : Compact.split? token with
    | none =>
        constructor
        · intro h
          cases h
        · rintro ⟨_, h, _⟩
          cases h
    | some found =>
        simp only [except_bind_eq_ok, Option.some.injEq]
        constructor
        · rintro ⟨algorithm, hheader, hrest⟩
          by_cases halgorithm : algorithm = verifier.algorithm
          · rw [if_neg (not_not_intro halgorithm), except_bind_eq_ok] at hrest
            rcases hrest with ⟨verified, haccepts, hrest⟩
            cases verified with
            | true =>
                cases hrest
                rw [← halgorithm]
                exact ⟨by rw [halgorithm]; exact hfamily, rfl, hheader, mapError_eq_ok.mp haccepts⟩
            | false => cases hrest
          · rw [if_pos halgorithm] at hrest
            cases hrest
        · rintro ⟨_, rfl, hheader, haccepts⟩
          refine ⟨_, hheader, ?_⟩
          rw [if_neg (not_not_intro rfl), except_bind_eq_ok]
          exact ⟨true, mapError_eq_ok.mpr haccepts, rfl⟩
  · rw [if_pos hfamily]
    constructor
    · intro h
      cases h
    · rintro ⟨h, _⟩
      exact absurd h hfamily

theorem payload_eq_ok_iff {part : List Char} {claims : Claims} {restriction : Restriction} :
    payload part = .ok (claims, restriction) <->
      exists bytes, decoded part = .ok bytes ∧ Claims.parse bytes = .ok claims ∧
        Restriction.parse bytes = .ok restriction := by
  simp only [payload, except_bind_eq_ok, mapError_eq_ok, pure, Except.pure, Except.ok.injEq,
    Prod.mk.injEq]
  constructor
  · rintro ⟨bytes, hbytes, _, hclaims, _, hrestriction, rfl, rfl⟩
    exact ⟨bytes, hbytes, hclaims, hrestriction⟩
  · rintro ⟨bytes, hbytes, hclaims, hrestriction⟩
    exact ⟨bytes, hbytes, claims, hclaims, restriction, hrestriction, rfl, rfl⟩

theorem decode_eq_ok_iff {verifier : Verifier} {token : String} {claims : Claims} :
    verifier.decode token = .ok claims <->
      exists parts restriction, verifier.signed token.toList = .ok parts ∧
        payload parts.payload = .ok (claims, restriction) ∧
        verifier.permits restriction = .ok () := by
  simp only [decode, except_bind_eq_ok, pure, Except.pure, Except.ok.injEq]
  constructor
  · rintro ⟨parts, hparts, ⟨_, restriction⟩, hpayload, _, hpermits, rfl⟩
    exact ⟨parts, restriction, hparts, hpayload, hpermits⟩
  · rintro ⟨parts, restriction, hparts, hpayload, hpermits⟩
    exact ⟨parts, hparts, (claims, restriction), hpayload, (), hpermits, rfl⟩

theorem isTimed_of_decode {verifier : Verifier} {token : String} {claims : Claims}
    (hdecode : verifier.decode token = .ok claims) : claims.IsTimed := by
  rcases decode_eq_ok_iff.mp hdecode with ⟨parts, restriction, _, hpayload, _⟩
  rcases payload_eq_ok_iff.mp hpayload with ⟨bytes, _, hclaims, _⟩
  exact Claims.isTimed_of_parse hclaims

theorem checkAge_eq_ok_iff {verifier : Verifier} {claims : Claims} {now : Int} :
    verifier.checkAge claims now = .ok () <->
      forall expiry, claims.expiresAt = some expiry -> verifier.earliestExpiry now ≤ expiry := by
  unfold checkAge
  cases hexpiry : claims.expiresAt with
  | none => simp
  | some expiry =>
      by_cases hlate : expiry < verifier.earliestExpiry now
      · simp only [if_pos hlate]
        constructor
        · intro h
          cases h
        · intro h
          have := h expiry rfl
          omega
      · simp only [if_neg hlate]
        constructor
        · intro _ other hother
          injection hother with hother
          omega
        · intro _
          trivial

theorem verify_eq_ok_iff {verifier : Verifier} {now : Int} {token : String} {claims : Claims} :
    verifier.verify now token = .ok claims <->
      verifier.decode token = .ok claims ∧ verifier.checkAge claims now = .ok () := by
  simp only [verify, except_bind_eq_ok, mapError_eq_ok, pure, Except.pure, Except.ok.injEq]
  constructor
  · rintro ⟨_, hdecode, _, hage, rfl⟩
    exact ⟨hdecode, hage⟩
  · rintro ⟨hdecode, hage⟩
    exact ⟨claims, hdecode, (), hage, rfl⟩

end Verifier
end Gatekeeper
