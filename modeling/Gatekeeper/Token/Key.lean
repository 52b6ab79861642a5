import Gatekeeper.Digest.Hmac
import Gatekeeper.Key.Asn1
import Gatekeeper.Key.Pem
import Gatekeeper.Signature.Ecdsa
import Gatekeeper.Signature.Eddsa
import Gatekeeper.Signature.Rsa
import Gatekeeper.Token.Algorithm

/-!
# Keys

A key is a shared secret or the bytes of a public key, together with its
family.  Public keys come from text blocks.  Which curve an elliptic key lies
on, and whether its bytes are a key at all, shows only when a signature is
checked.
-/

namespace Gatekeeper

structure Key where
  family : KeyFamily
  bytes : List UInt8

namespace Key

inductive Fault where
  | format
  | noBytes
deriving DecidableEq, Repr

def Fault.message : Fault → String
  | .format => "InvalidKeyFormat"
  | .noBytes => "InvalidEcdsaKey"

def ofSecret (secret : List UInt8) : Key := ⟨.secret, secret⟩

def familyOf? (arcs : List Nat) : Option KeyFamily :=
  if arcs = [1, 2, 840, 10045, 2, 1] then some .ec
  else if arcs = [1, 2, 840, 113549, 1, 1, 1] then some .rsa
  else if arcs = [1, 3, 101, 112] then some .ed
  else none

def generalLabels : List String :=
  ["PUBLIC KEY", "PRIVATE KEY", "CERTIFICATE"]

def rsaLabels : List String :=
  ["RSA PUBLIC KEY", "RSA PRIVATE KEY"]

/-- Only RSA keys may come from the block of a private key. -/
def isUsable (family : KeyFamily) (label : String) : Bool :=
  family = .rsa || label ≠ "PRIVATE KEY"

def ofText (family : KeyFamily) (text : String) : Except Fault Key :=
  match Pem.decode? text with
  | none => .error .format
  | some block =>
    match Asn1.blocks? block.contents with
    | none => .error .format
    | some blocks =>
      if block.label ∈ rsaLabels then
        if family = .rsa then .ok ⟨.rsa, block.contents⟩ else .error .format
      else if block.label ∈ generalLabels ∧ Asn1.firstKnown? familyOf? blocks = some family
          ∧ isUsable family block.label then
        match Asn1.firstString? blocks with
        | some bytes => .ok ⟨family, bytes⟩
        | none => .error .noBytes
      else .error .format

def verifies (key : Key) (algorithm : Algorithm) (message signature : List UInt8) : Bool :=
  let hash := algorithm.hash
  match algorithm with
  | .hs256 | .hs384 | .hs512 => Hmac.mac hash key.bytes message = signature
  | .es256 => Ecdsa.verifies Ecdsa.p256 hash key.bytes message signature
  | .es384 => Ecdsa.verifies Ecdsa.p384 hash key.bytes message signature
  | .rs256 | .rs384 | .rs512 =>
    match Rsa.PublicKey.ofBytes? key.bytes with
    | some rsa => Rsa.verifiesFixed hash rsa message signature
    | none => false
  | .ps256 | .ps384 | .ps512 =>
    match Rsa.PublicKey.ofBytes? key.bytes with
    | some rsa => Rsa.verifiesSalted hash rsa message signature
    | none => false
  | .eddsa => Eddsa.verifies key.bytes message signature

/-- Whether a signature, given as text, verifies.  A keyed digest is compared as text, so that
each digest has one accepted spelling; other signatures are decoded first. -/
def accepts (key : Key) (algorithm : Algorithm) (message signature : List UInt8) :
    Except Base64.Fault Bool :=
  match algorithm.family with
  | .secret =>
    .ok (Base64.encode Base64.urlSafe (Hmac.mac algorithm.hash key.bytes message) = signature)
  | _ => (Base64.decode Base64.urlSafe .none signature).map (key.verifies algorithm message)

end Key
end Gatekeeper
