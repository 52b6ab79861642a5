import Gatekeeper.Text.Diagnostic
import Gatekeeper.Token.Claims
import Gatekeeper.Token.Compact
import Gatekeeper.Token.Header
import Gatekeeper.Token.Key
import Gatekeeper.Token.Refusal
import Gatekeeper.Token.Restriction

/-!
# Verifying tokens

A verifier has one algorithm and one key, and may ask for an issuer and an
audience.  A token is verified in stages: its shape, its header, its signature,
its payload, the restrictions in the payload, and last its age.
-/

namespace Gatekeeper

structure Verifier where
  algorithm : Algorithm
  key : Key
  issuer : Option String
  audience : Option (List String)
  /-- Tolerance for the age of a token in seconds. -/
  leeway : Nat

namespace Verifier

def plain (key : Key) (algorithm : Algorithm) : Verifier where
  algorithm := algorithm
  key := key
  issuer := none
  audience := none
  leeway := 0

def decoded (part : List Char) : Except TokenFault (List UInt8) :=
  (Base64.decode Base64.urlSafe .none (Utf8.encodeChars part)).mapError .encoding

def header (part : List Char) : Except TokenFault Algorithm := do
  let bytes ← decoded part
  (Header.parse bytes).mapError .document

def signed (verifier : Verifier) (token : List Char) : Except TokenFault Compact := do
  if verifier.key.family ≠ verifier.algorithm.family then throw .algorithm
  let some parts := Compact.split? token | throw .shape
  let algorithm ← header parts.header
  if algorithm ≠ verifier.algorithm then throw .algorithm
  let verified ←
    (verifier.key.accepts algorithm parts.signedBytes
      (Utf8.encodeChars parts.signature)).mapError .encoding
  if !verified then throw .signature
  pure parts

def payload (part : List Char) : Except TokenFault (Claims × Restriction) := do
  let bytes ← decoded part
  let claims ← (Claims.parse bytes).mapError .document
  let restriction ← (Restriction.parse bytes).mapError .document
  pure (claims, restriction)

def permits (verifier : Verifier) (restriction : Restriction) : Except TokenFault Unit :=
  if Restriction.refuses restriction.issuer (verifier.issuer.map fun issuer => [issuer]) then
    .error .issuer
  else if Restriction.refuses restriction.audience verifier.audience then .error .audience
  else .ok ()

def decode (verifier : Verifier) (token : String) : Except TokenFault Claims := do
  let parts ← verifier.signed token.toList
  let (claims, restriction) ← payload parts.payload
  verifier.permits restriction
  pure claims

/-!
# Age
-/

def leastTime : Int := -0x8000000000000000

def mostTime : Int := 0x7fffffffffffffff

/-- The earliest expiry that still counts at `now`, within the range of times. -/
def earliestExpiry (verifier : Verifier) (now : Int) : Int :=
  max leastTime (now - min (verifier.leeway : Int) mostTime)

def expiredRefusal (expiry : Int) : Refusal :=
  ⟨.expired, "token expired at " ++ toString expiry, none⟩

def checkAge (verifier : Verifier) (claims : Claims) (now : Int) : Except Refusal Unit :=
  match claims.expiresAt with
  | none => .ok ()
  | some expiry =>
    if expiry < verifier.earliestExpiry now then .error (expiredRefusal expiry) else .ok ()

def verify (verifier : Verifier) (now : Int) (token : String) : Except Refusal Claims := do
  let claims ← (verifier.decode token).mapError TokenFault.refusal
  verifier.checkAge claims now
  pure claims

/-!
# Diagnostics
-/

def names (accepted : Option (List String)) : String :=
  Diagnostic.optional (accepted.map fun names =>
    Diagnostic.set (names.eraseDups.map Diagnostic.quoted))

def diagnostic (verifier : Verifier) : String :=
  Diagnostic.record "JwtVerifier" [("validation",
    Diagnostic.record "Validation" [
      ("required_spec_claims", Diagnostic.set []),
      ("leeway", toString verifier.leeway),
      ("reject_tokens_expiring_in_less_than", "0"),
      ("validate_exp", Diagnostic.flag false),
      ("validate_nbf", Diagnostic.flag false),
      ("validate_aud", Diagnostic.flag verifier.audience.isSome),
      ("aud", names verifier.audience),
      ("iss", names (verifier.issuer.map fun issuer => [issuer])),
      ("sub", Diagnostic.optional none),
      ("algorithms", Diagnostic.list [verifier.algorithm.name]),
      ("validate_signature", Diagnostic.flag true)])]

end Verifier
end Gatekeeper
