import Gatekeeper.Proofs.Token.Authenticity

/-!
# Refused tokens

Why a verifier refuses a token, stage by stage: each cause stands with all that went
right before it.  The payload is looked at once the signature is right, and the age
last.
-/

namespace Gatekeeper
namespace Verifier

/-!
# Before the payload
-/

inductive Misses (verifier : Verifier) (token : List Char) : TokenFault -> Prop
  | shape (hsplits : forall parts, ¬Compact.Splits token parts) : Misses verifier token .shape
  | header {parts : Compact} {fault : TokenFault} (hsplits : Compact.Splits token parts)
      (hheader : header parts.header = .error fault) : Misses verifier token fault
  | algorithm {parts : Compact} {other : Algorithm} (hsplits : Compact.Splits token parts)
      (hheader : Header.Reads parts.header other) (hother : other ≠ verifier.algorithm) :
      Misses verifier token .algorithm
  | encoding {parts : Compact} {fault : Base64.Fault} (hsplits : Compact.Splits token parts)
      (hheader : Header.Reads parts.header verifier.algorithm)
      (haccepts : verifier.key.accepts verifier.algorithm parts.signedBytes
        (Utf8.encodeChars parts.signature) = .error fault) :
      Misses verifier token (.encoding fault)
  | signature {parts : Compact} (hsplits : Compact.Splits token parts)
      (hheader : Header.Reads parts.header verifier.algorithm)
      (haccepts : verifier.key.accepts verifier.algorithm parts.signedBytes
        (Utf8.encodeChars parts.signature) = .ok false) :
      Misses verifier token .signature

variable {verifier : Verifier} {token : List Char}

theorem signed_of_split_none (hfamily : verifier.key.family = verifier.algorithm.family)
    (hsplit : Compact.split? token = none) : verifier.signed token = .error .shape := by
  unfold signed
  rw [if_neg (not_not_intro hfamily), hsplit]
  rfl

theorem signed_of_splits (hfamily : verifier.key.family = verifier.algorithm.family)
    {parts : Compact} (hsplits : Compact.Splits token parts) :
    verifier.signed token =
      (header parts.header >>= fun algorithm =>
        if algorithm = verifier.algorithm then
          (verifier.key.accepts algorithm parts.signedBytes
            (Utf8.encodeChars parts.signature)).mapError .encoding >>= fun verified =>
              if verified then .ok parts else .error .signature
        else .error .algorithm) := by
  unfold signed
  rw [if_neg (not_not_intro hfamily), Compact.split?_eq_some_iff.mpr hsplits]
  refine congrArg (header parts.header >>= ·) (funext fun algorithm => ?_)
  by_cases halgorithm : algorithm = verifier.algorithm
  · rw [if_pos halgorithm, if_neg (not_not_intro halgorithm)]
    refine congrArg (Except.mapError TokenFault.encoding _ >>= ·) (funext fun verified => ?_)
    cases verified <;> rfl
  · rw [if_neg halgorithm, if_pos halgorithm]
    rfl

theorem signed_eq_error_iff (hfamily : verifier.key.family = verifier.algorithm.family)
    {fault : TokenFault} :
    verifier.signed token = .error fault <-> verifier.Misses token fault := by
  constructor
  · intro hsigned
    cases hsplit : Compact.split? token with
    | none =>
        rw [signed_of_split_none hfamily hsplit] at hsigned
        cases hsigned
        refine .shape ?_
        intro parts hsplits
        rw [Compact.split?_eq_some_iff.mpr hsplits] at hsplit
        cases hsplit
    | some parts =>
        have hsplits := Compact.split?_eq_some_iff.mp hsplit
        rw [signed_of_splits hfamily hsplits, except_bind_eq_error] at hsigned
        rcases hsigned with hheader | ⟨algorithm, hheader, hrest⟩
        · exact .header hsplits hheader
        by_cases halgorithm : algorithm = verifier.algorithm
        · rw [halgorithm] at hheader hrest
          rw [if_pos rfl, except_bind_eq_error, mapError_eq_error] at hrest
          rcases hrest with ⟨encoding, haccepts, rfl⟩ | ⟨verified, haccepts, hrest⟩
          · exact .encoding hsplits (header_eq_ok_iff.mp hheader) haccepts
          · cases verified with
            | true => cases hrest
            | false =>
                cases hrest
                exact .signature hsplits (header_eq_ok_iff.mp hheader)
                  (mapError_eq_ok.mp haccepts)
        · rw [if_neg halgorithm] at hrest
          cases hrest
          exact .algorithm hsplits (header_eq_ok_iff.mp hheader) halgorithm
  · intro hmisses
    cases hmisses with
    | shape hsplits =>
        refine signed_of_split_none hfamily ?_
        cases hsplit : Compact.split? token with
        | none => rfl
        | some parts => exact absurd (Compact.split?_eq_some_iff.mp hsplit) (hsplits parts)
    | header hsplits hheader =>
        rw [signed_of_splits hfamily hsplits, hheader]
        rfl
    | algorithm hsplits hheader hother =>
        rw [signed_of_splits hfamily hsplits, header_eq_ok_iff.mpr hheader]
        exact if_neg hother
    | encoding hsplits hheader haccepts =>
        rw [signed_of_splits hfamily hsplits, header_eq_ok_iff.mpr hheader]
        refine (if_pos rfl).trans ?_
        rw [haccepts]
        rfl
    | signature hsplits hheader haccepts =>
        rw [signed_of_splits hfamily hsplits, header_eq_ok_iff.mpr hheader]
        refine (if_pos rfl).trans ?_
        rw [haccepts]
        rfl

/-!
# Kinds of faults
-/

theorem kind_of_decoded {part : List Char} {fault : TokenFault}
    (hdecoded : decoded part = .error fault) : fault.kind = .malformed := by
  rcases mapError_eq_error.mp hdecoded with ⟨encoding, _, rfl⟩
  rfl

theorem kind_of_header {part : List Char} {fault : TokenFault}
    (hheader : header part = .error fault) : fault.kind = .malformed := by
  rcases except_bind_eq_error.mp hheader with hdecoded | ⟨document, _, hparse⟩
  · exact kind_of_decoded hdecoded
  · rcases mapError_eq_error.mp hparse with ⟨failure, _, rfl⟩
    rfl

theorem kind_of_payload {part : List Char} {fault : TokenFault}
    (hpayload : payload part = .error fault) : fault.kind = .malformed := by
  rcases except_bind_eq_error.mp hpayload with hdecoded | ⟨document, _, hpayload⟩
  · exact kind_of_decoded hdecoded
  rcases except_bind_eq_error.mp hpayload with hclaims | ⟨claims, _, hpayload⟩
  · rcases mapError_eq_error.mp hclaims with ⟨failure, _, rfl⟩
    rfl
  rcases except_bind_eq_error.mp hpayload with hrestriction | ⟨restriction, _, hpayload⟩
  · rcases mapError_eq_error.mp hrestriction with ⟨failure, _, rfl⟩
    rfl
  · cases hpayload

theorem kind_of_permits {restriction : Restriction} {fault : TokenFault}
    (hpermits : verifier.permits restriction = .error fault) : fault.kind = .rejected := by
  unfold permits at hpermits
  split at hpermits
  · cases hpermits
    rfl
  split at hpermits
  · cases hpermits
    rfl
  · cases hpermits

/-- Without a right signature, the header and the signature alone decide what is wrong: it is the
same for every payload. -/
theorem exists_fault_of_unsigned {settings : VerifierSettings}
    (hbuilds : settings.Builds verifier) (front signature : List Char) :
    exists fault,
      (forall token payload, Compact.Splits token ⟨front, payload, signature⟩ ->
        ¬settings.Signs verifier.algorithm (Utf8.encodeChars (front ++ '.' :: payload))
          (Utf8.encodeChars signature) -> verifier.Misses token fault) ∧
      (verifier.algorithm.family = .secret -> Header.Reads front verifier.algorithm ->
        fault = .signature) := by
  -- The payload enters only through the text that is signed, so every case is settled without it.
  cases hheader : header front with
  | error fault =>
      refine ⟨fault, fun _ _ hsplits _ => .header hsplits hheader, ?_⟩
      intro _ hreads
      rw [header_eq_ok_iff.mpr hreads] at hheader
      cases hheader
  | ok other =>
      have hreads := header_eq_ok_iff.mp hheader
      by_cases hother : other = verifier.algorithm
      · subst hother
        rcases hbuilds.keys.accepts_of_unsigned (Utf8.encodeChars signature) with
          ⟨hpublic, fault, hfault⟩ | hwrong
        · refine ⟨.encoding fault, ?_, fun hsecret => absurd hsecret hpublic⟩
          intro token payload hsplits _
          exact .encoding hsplits hreads (hfault _)
        · refine ⟨.signature, ?_, fun _ _ => rfl⟩
          intro token payload hsplits hunsigned
          exact .signature hsplits hreads (hwrong _ hunsigned)
      · refine ⟨.algorithm, fun _ _ hsplits _ => .algorithm hsplits hreads hother, ?_⟩
        intro _ hconfigured
        rw [header_eq_ok_iff.mpr hconfigured] at hheader
        cases hheader
        exact absurd rfl hother

/-!
# All stages
-/

structure Overdue (claims : Claims) (leeway : Nat) (now expiry : Int) : Prop where
  exp : claims.exp = some expiry
  nonzero : expiry ≠ 0
  late : expiry + min (leeway : Int) 0x7fffffffffffffff < now

theorem checkAge_eq_error_iff {claims : Claims} (htimed : claims.IsTimed) {now : Int}
    {refusal : Refusal} :
    verifier.checkAge claims now = .error refusal <->
      exists exp, Overdue claims verifier.leeway now exp ∧ refusal = expiredRefusal exp := by
  constructor
  · intro hage
    unfold checkAge at hage
    cases hexpiry : claims.expiresAt with
    | none =>
        rw [hexpiry] at hage
        cases hage
    | some exp =>
        simp only [hexpiry] at hage
        rcases Claims.expiresAt_eq_some_iff.mp hexpiry with ⟨hexp, hnonzero⟩
        by_cases hlate : exp < verifier.earliestExpiry now
        · rw [if_pos hlate] at hage
          cases hage
          have hcurrent := earliestExpiry_le_iff verifier now
            (htimed exp (Or.inl hexp)).left
          exact ⟨exp, ⟨hexp, hnonzero, by omega⟩, rfl⟩
        · rw [if_neg hlate] at hage
          cases hage
  · intro hoverdue
    rcases hoverdue with ⟨exp, hoverdue, rfl⟩
    have hexpiry := Claims.expiresAt_eq_some_iff.mpr ⟨hoverdue.exp, hoverdue.nonzero⟩
    have hcurrent := earliestExpiry_le_iff verifier now
      (htimed exp (Or.inl hoverdue.exp)).left
    have hlate := hoverdue.late
    unfold checkAge
    simp only [hexpiry]
    exact if_pos (by omega)

theorem verify_of_decode_error {now : Int} {token : String} {fault : TokenFault}
    (hdecode : verifier.decode token = .error fault) :
    verifier.verify now token = .error fault.refusal :=
  except_bind_eq_error.mpr (Or.inl (mapError_eq_error.mpr ⟨fault, hdecode, rfl⟩))

theorem verify_of_checkAge_error {now : Int} {token : String} {claims : Claims}
    {refusal : Refusal} (hdecode : verifier.decode token = .ok claims)
    (hage : verifier.checkAge claims now = .error refusal) :
    verifier.verify now token = .error refusal := by
  refine except_bind_eq_error.mpr (Or.inr ⟨claims, mapError_eq_ok.mpr hdecode, ?_⟩)
  exact except_bind_eq_error.mpr (Or.inl hage)

theorem verify_of_isCurrent {now : Int} {token : String} {claims : Claims}
    (hdecode : verifier.decode token = .ok claims)
    (hcurrent : claims.IsCurrent verifier.leeway now) :
    verifier.verify now token = .ok claims :=
  verify_eq_ok_iff.mpr
    ⟨hdecode, (checkAge_iff_isCurrent (isTimed_of_decode hdecode)).mpr hcurrent⟩

theorem verify_of_not_isCurrent {now : Int} {token : String} {claims : Claims}
    (hdecode : verifier.decode token = .ok claims)
    (hold : ¬claims.IsCurrent verifier.leeway now) :
    exists expiry, verifier.verify now token = .error (expiredRefusal expiry) := by
  have htimed := isTimed_of_decode hdecode
  cases hage : verifier.checkAge claims now with
  | ok _ => exact absurd ((checkAge_iff_isCurrent htimed).mp hage) hold
  | error refusal =>
      rcases (checkAge_eq_error_iff htimed).mp hage with ⟨expiry, _, rfl⟩
      exact ⟨expiry, verify_of_checkAge_error hdecode hage⟩

/-- The header names the algorithm, and the signature is not right for the text before it. -/
def WronglySigned (settings : VerifierSettings) (verifier : Verifier) (token : List Char) : Prop :=
  exists parts, Compact.Splits token parts ∧ Header.Reads parts.header verifier.algorithm ∧
    ¬settings.Signs verifier.algorithm
      (Utf8.encodeChars (parts.header ++ '.' :: parts.payload))
      (Utf8.encodeChars parts.signature)

/-- The token is authentic and meets what is asked for, but it is too old. -/
def Outdated (settings : VerifierSettings) (verifier : Verifier) (now : Int)
    (token : List Char) : Prop :=
  exists parts claims restriction expiry,
    settings.Signed verifier.algorithm token parts ∧
    Tells parts.payload claims restriction ∧ verifier.Meets restriction ∧
    Overdue claims settings.leeway now expiry

/-- The token is refused: before its payload is looked at, or for the payload, or for what the
payload does not meet, or for its age. -/
inductive Fails (settings : VerifierSettings) (verifier : Verifier) (now : Int)
    (token : List Char) : Refusal -> Prop
  | unsigned {fault : TokenFault} (hmisses : verifier.Misses token fault) :
      Fails settings verifier now token fault.refusal
  | payload {parts : Compact} {fault : TokenFault}
      (hsigned : settings.Signed verifier.algorithm token parts)
      (hpayload : payload parts.payload = .error fault) :
      Fails settings verifier now token fault.refusal
  | restricted {parts : Compact} {claims : Claims} {restriction : Restriction}
      {fault : TokenFault} (hsigned : settings.Signed verifier.algorithm token parts)
      (htells : Tells parts.payload claims restriction)
      (hpermits : verifier.permits restriction = .error fault) :
      Fails settings verifier now token fault.refusal
  | expired {parts : Compact} {claims : Claims} {restriction : Restriction} {exp : Int}
      (hsigned : settings.Signed verifier.algorithm token parts)
      (htells : Tells parts.payload claims restriction)
      (hmeets : verifier.Meets restriction)
      (hoverdue : Overdue claims settings.leeway now exp) :
      Fails settings verifier now token (expiredRefusal exp)

theorem decode_eq_error_iff {token : String} {fault : TokenFault} :
    verifier.decode token = .error fault <->
      verifier.signed token.toList = .error fault ∨
      exists parts, verifier.signed token.toList = .ok parts ∧
        (payload parts.payload = .error fault ∨
          exists claims restriction, payload parts.payload = .ok (claims, restriction) ∧
            verifier.permits restriction = .error fault) := by
  simp only [decode, except_bind_eq_error, pure, Except.pure, Prod.exists, reduceCtorEq,
    and_false, exists_false, or_false]

theorem verify_eq_error_iff {settings : VerifierSettings} (hbuilds : settings.Builds verifier)
    {now : Int} {token : String} {refusal : Refusal} :
    verifier.verify now token = .error refusal <->
      Fails settings verifier now token.toList refusal := by
  constructor
  · intro hverify
    rcases except_bind_eq_error.mp hverify with hfault | ⟨claims, hdecode, hage⟩
    · rcases mapError_eq_error.mp hfault with ⟨fault, hdecode, rfl⟩
      rcases decode_eq_error_iff.mp hdecode with hsigned | ⟨parts, hsigned, hrest⟩
      · exact .unsigned ((signed_eq_error_iff hbuilds.keys.family).mp hsigned)
      have hsigned := (VerifierSettings.signed_iff hbuilds).mp hsigned
      rcases hrest with hpayload | ⟨claims, restriction, hpayload, hpermits⟩
      · exact .payload hsigned hpayload
      · exact .restricted hsigned (payload_iff_tells.mp hpayload) hpermits
    · rcases decode_eq_ok_iff.mp (mapError_eq_ok.mp hdecode) with
        ⟨parts, restriction, hsigned, hpayload, hpermits⟩
      have htells := payload_iff_tells.mp hpayload
      rcases except_bind_eq_error.mp hage with hage | ⟨_, _, hage⟩
      · rcases (checkAge_eq_error_iff htells.isTimed).mp hage with ⟨exp, hoverdue, rfl⟩
        rw [hbuilds.leeway] at hoverdue
        exact .expired ((VerifierSettings.signed_iff hbuilds).mp hsigned) htells
          (permits_iff_meets.mp hpermits) hoverdue
      · cases hage
  · intro hfails
    cases hfails with
    | unsigned hmisses =>
        have hsigned := (signed_eq_error_iff hbuilds.keys.family).mpr hmisses
        exact verify_of_decode_error (decode_eq_error_iff.mpr (Or.inl hsigned))
    | payload hsigned hpayload =>
        have hsigned := (VerifierSettings.signed_iff hbuilds).mpr hsigned
        exact verify_of_decode_error
          (decode_eq_error_iff.mpr (Or.inr ⟨_, hsigned, Or.inl hpayload⟩))
    | restricted hsigned htells hpermits =>
        have hsigned := (VerifierSettings.signed_iff hbuilds).mpr hsigned
        have hpayload := payload_iff_tells.mpr htells
        exact verify_of_decode_error (decode_eq_error_iff.mpr
          (Or.inr ⟨_, hsigned, Or.inr ⟨_, _, hpayload, hpermits⟩⟩))
    | expired hsigned htells hmeets hoverdue =>
        have hsigned := (VerifierSettings.signed_iff hbuilds).mpr hsigned
        have hpayload := payload_iff_tells.mpr htells
        have hdecode := decode_eq_ok_iff.mpr
          ⟨_, _, hsigned, hpayload, permits_iff_meets.mpr hmeets⟩
        rw [← hbuilds.leeway] at hoverdue
        have hage := (checkAge_eq_error_iff htells.isTimed).mpr ⟨_, hoverdue, rfl⟩
        exact verify_of_checkAge_error hdecode hage

theorem Fails.kind {settings : VerifierSettings} (hbuilds : settings.Builds verifier)
    {now : Int} {refusal : Refusal} (hfails : Fails settings verifier now token refusal) :
    refusal.kind = .malformed ∨ refusal.kind = .rejected ∨
      (refusal.kind = .signatureInvalid ∧ WronglySigned settings verifier token) ∨
      (refusal.kind = .expired ∧ Outdated settings verifier now token) := by
  cases hfails with
  | unsigned hmisses =>
      cases hmisses with
      | shape => exact Or.inl rfl
      | header _ hheader => exact Or.inl (kind_of_header hheader)
      | algorithm => exact Or.inr (Or.inl rfl)
      | encoding => exact Or.inl rfl
      | signature hsplits hheader haccepts =>
          refine Or.inr (Or.inr (Or.inl ⟨rfl, _, hsplits, hheader, ?_⟩))
          intro hsigns
          have hright := hbuilds.keys.accepts_eq_ok_true_iff.mpr hsigns
          have hwrong := haccepts.symm.trans hright
          cases hwrong
  | payload _ hpayload => exact Or.inl (kind_of_payload hpayload)
  | restricted _ _ hpermits => exact Or.inr (Or.inl (kind_of_permits hpermits))
  | expired hsigned htells hmeets hoverdue =>
      exact Or.inr (Or.inr (Or.inr ⟨rfl, _, _, _, _, hsigned, htells, hmeets, hoverdue⟩))

end Verifier
end Gatekeeper
