import Gatekeeper.Proofs.Token.Authenticity
import Gatekeeper.Proofs.Token.Printing
import Gatekeeper.Proofs.Token.Refusals

/-!
# Signed tokens

A token is signed under a secret by a keyed digest over its header and its claims.  A
verifier with the same secret gives the claims back, as long as they are current, and a
verifier with another secret refuses the token for its signature.
-/

namespace Gatekeeper

open Json

namespace Compact

/-!
# Parts and texts
-/

/-- The text of bytes, as a part of a token.  It is irreducible, lest a digest be computed where two
parts are compared. -/
@[irreducible]
def part (bytes : List UInt8) : List Char :=
  (Base64.encodeText Base64.urlSafe bytes).toList

def text (token : Compact) : String :=
  String.ofList token.chars

theorem part_isTextOf (bytes : List UInt8) : IsTextOf (part bytes) bytes := by
  unfold part
  exact Base64.encodeChars_asText fun _ hmem => (Base64.urlSafe_plain hmem).left

theorem not_mem_part (bytes : List UInt8) : '.' ∉ part bytes := by
  intro hmem
  have hbyte : (0x2E : UInt8) ∈ Utf8.encodeChars (part bytes) :=
    List.mem_flatMap.mpr ⟨'.', hmem, by decide⟩
  rw [part_isTextOf bytes] at hbyte
  exact (Base64.urlSafe_plain hbyte).right rfl

theorem splits_text {token : Compact} (hpayload : '.' ∉ token.payload)
    (hsignature : '.' ∉ token.signature) : Splits token.text.toList token where
  text := by
    unfold text chars signedChars
    rw [String.toList_ofList, List.append_assoc, List.cons_append]
  payload := hpayload
  signature := hsignature

def issue (algorithm : Algorithm) (secret header : List UInt8) (claims : Claims) : Compact where
  header := part header
  payload := part claims.bytes
  signature := part (Hmac.mac algorithm.hash secret
    (Utf8.encodeChars (part header ++ '.' :: part claims.bytes)))

variable (algorithm : Algorithm) (secret header : List UInt8) (claims : Claims)

theorem signature_issue : (issue algorithm secret header claims).signature =
    part (Hmac.mac algorithm.hash secret (issue algorithm secret header claims).signedBytes) := rfl

theorem splits_issue : Splits (issue algorithm secret header claims).text.toList
    (issue algorithm secret header claims) := by
  apply splits_text
  · exact not_mem_part claims.bytes
  · rw [signature_issue]
    exact not_mem_part _

end Compact

namespace Verifier

def keyed (secret : List UInt8) (algorithm : Algorithm) (leeway : Nat) : Verifier :=
  { plain (Key.ofSecret secret) algorithm with leeway := leeway }

variable {algorithm : Algorithm} {document : List UInt8} {claims : Claims}

theorem meets_keyed (secret : List UInt8) (algorithm : Algorithm) (leeway : Nat)
    (restriction : Restriction) : (keyed secret algorithm leeway).Meets restriction := by
  constructor
  · intro issuer names hissuer
    cases hissuer
  · intro accepted names haccepted
    cases haccepted

theorem accepts_issue (hfamily : algorithm.family = .secret) (secret other document : List UInt8)
    (claims : Claims) :
    (Key.ofSecret other).accepts algorithm
        (Compact.issue algorithm secret document claims).signedBytes
        (Utf8.encodeChars (Compact.issue algorithm secret document claims).signature) =
      .ok (decide (Hmac.mac algorithm.hash other
          (Compact.issue algorithm secret document claims).signedBytes =
        Hmac.mac algorithm.hash secret
          (Compact.issue algorithm secret document claims).signedBytes)) := by
  have hinjective : forall one two : List UInt8,
      Base64.encode Base64.urlSafe one = Base64.encode Base64.urlSafe two <-> one = two :=
    fun one two => ⟨Base64.encode_injective Base64.Alphabet.urlSafe_isFaithful, congrArg _⟩
  rw [Key.accepts_of_secret hfamily, Compact.signature_issue, Compact.part_isTextOf]
  simp only [hinjective]
  rfl

theorem reads_issue (hheader : Header.parse document = .ok algorithm) (secret : List UInt8)
    (claims : Claims) :
    Header.Reads (Compact.issue algorithm secret document claims).header algorithm :=
  ⟨document, Compact.part_isTextOf document, hheader⟩

theorem tells_issue (htimed : claims.IsTimed) (algorithm : Algorithm)
    (secret document : List UInt8) :
    Tells (Compact.issue algorithm secret document claims).payload claims
      { Restriction.none with issuer := Restriction.tried (claims.iss.map .string) } :=
  ⟨claims.bytes, Compact.part_isTextOf claims.bytes, Claims.parse_bytes htimed,
    Restriction.parse_claims htimed⟩

theorem decode_issue (hfamily : algorithm.family = .secret) (htimed : claims.IsTimed)
    (hheader : Header.parse document = .ok algorithm) (secret : List UInt8) (leeway : Nat) :
    (keyed secret algorithm leeway).decode
      (Compact.issue algorithm secret document claims).text = .ok claims := by
  have haccepts := accepts_issue hfamily secret secret document claims
  rw [decide_eq_true rfl] at haccepts
  have hsigned : (keyed secret algorithm leeway).signed
      (Compact.issue algorithm secret document claims).text.toList =
        .ok (Compact.issue algorithm secret document claims) :=
    signed_eq_ok_iff.mpr ⟨hfamily.symm,
      Compact.split?_eq_some_iff.mpr (Compact.splits_issue algorithm secret document claims),
      header_eq_ok_iff.mpr (reads_issue hheader secret claims), haccepts⟩
  exact decode_eq_ok_iff.mpr ⟨_, _, hsigned,
    payload_iff_tells.mpr (tells_issue htimed algorithm secret document),
    permits_iff_meets.mpr (meets_keyed secret algorithm leeway _)⟩

theorem verify_issue_of_other (hfamily : algorithm.family = .secret)
    (hheader : Header.parse document = .ok algorithm) {secret other : List UInt8}
    (hother : Hmac.mac algorithm.hash other
        (Compact.issue algorithm secret document claims).signedBytes ≠
      Hmac.mac algorithm.hash secret
        (Compact.issue algorithm secret document claims).signedBytes)
    (leeway : Nat) (now : Int) :
    (keyed other algorithm leeway).verify now
      (Compact.issue algorithm secret document claims).text =
        .error TokenFault.signature.refusal := by
  have haccepts := accepts_issue hfamily secret other document claims
  rw [decide_eq_false hother] at haccepts
  have hmisses : (keyed other algorithm leeway).Misses
      (Compact.issue algorithm secret document claims).text.toList .signature :=
    .signature (Compact.splits_issue algorithm secret document claims)
      (reads_issue hheader secret claims) haccepts
  have hsigned := (signed_eq_error_iff hfamily.symm).mpr hmisses
  exact verify_of_decode_error (decode_eq_error_iff.mpr (Or.inl hsigned))

/-- Verification undoes signing.  Whatever the claims are, and whatever header names the
algorithm, with a type or without, the verifier of the same secret gives the claims back field by
field while they are current, and refuses them as expired afterwards.  The verifier of a secret
with another digest refuses the token for its signature, at any time. -/
theorem verify_issued {algorithm : Algorithm} (hfamily : algorithm.family = .secret)
    {claims : Claims} (htimed : claims.IsTimed) (secret : List UInt8) :
    (forall type, Header.parse (Header.bytes type algorithm) = .ok algorithm) ∧
    forall document, Header.parse document = .ok algorithm -> forall (leeway : Nat) (now : Int),
      let token := Compact.issue algorithm secret document claims
      (claims.IsCurrent leeway now ->
        (keyed secret algorithm leeway).verify now token.text = .ok claims) ∧
      (¬claims.IsCurrent leeway now ->
        exists refusal, (keyed secret algorithm leeway).verify now token.text = .error refusal ∧
          refusal.kind = .expired) ∧
      forall other, Hmac.mac algorithm.hash other token.signedBytes ≠
          Hmac.mac algorithm.hash secret token.signedBytes ->
        exists refusal, (keyed other algorithm leeway).verify now token.text = .error refusal ∧
          refusal.kind = .signatureInvalid := by
  refine ⟨fun type => Header.parse_bytes type algorithm, ?_⟩
  intro document hheader leeway now token
  have hdecode := decode_issue hfamily htimed hheader secret leeway
  refine ⟨fun hcurrent => verify_of_isCurrent hdecode hcurrent, ?_, ?_⟩
  · intro hold
    rcases verify_of_not_isCurrent hdecode hold with ⟨expiry, hverify⟩
    exact ⟨expiredRefusal expiry, hverify, rfl⟩
  · intro other hother
    exact ⟨_, verify_issue_of_other hfamily hheader hother leeway now, rfl⟩

/-!
A token with a header as it is usually written, an expiry that was ten seconds ago, and a subject
with an escape and a letter beyond ASCII.
-/

def signingSecret : List UInt8 := [0x6B]

def otherSecret : List UInt8 := [0x6A]

def signedClaims : Claims :=
  { Claims.none with exp := some 100, sub := some "al\"içe" }

def signedToken : Compact :=
  Compact.issue .hs256 signingSecret (Header.bytes (some "JWT") .hs256) signedClaims

theorem isTimed_signedClaims : signedClaims.IsTimed := by
  intro time htime
  rcases htime with h | h | h
  · cases h
    exact ⟨by decide, by decide⟩
  · cases h
  · cases h

theorem mac_otherSecret : Hmac.mac .sha256 otherSecret signedToken.signedBytes ≠
    Hmac.mac .sha256 signingSecret signedToken.signedBytes := by
  decide +kernel

theorem verify_issued_lastSecond :
    (keyed signingSecret .hs256 10).verify 110 signedToken.text = .ok signedClaims ∧
      (exists refusal, (keyed signingSecret .hs256 10).verify 111 signedToken.text =
        .error refusal ∧ refusal.kind = .expired) ∧
      exists refusal, (keyed otherSecret .hs256 10).verify 110 signedToken.text =
        .error refusal ∧ refusal.kind = .signatureInvalid := by
  have hfamily : Algorithm.hs256.family = .secret := rfl
  have hissued := verify_issued hfamily isTimed_signedClaims signingSecret
  have hheader := hissued.left (some "JWT")
  have hlast := hissued.right _ hheader 10 110
  have hlate := hissued.right _ hheader 10 111
  refine ⟨hlast.left (.lasting rfl (by decide)), hlate.right.left ?_,
    hlast.right.right otherSecret mac_otherSecret⟩
  intro hcurrent
  cases hcurrent with
  | unlimited hexp => cases hexp
  | zero hexp => cases hexp
  | lasting hexp hnow =>
      cases hexp
      exact absurd hnow (by decide)

end Verifier
end Gatekeeper
