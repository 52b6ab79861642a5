import Gatekeeper.Bytes
import Gatekeeper.Digest.Sha2
import Gatekeeper.Signature.Modular

/-!
# RSA signatures

A signature is a number below the modulus.  Its power by the public exponent is
the encoded digest of the message, either with fixed padding or with padding
that a random salt masks.
-/

namespace Gatekeeper
namespace Rsa

structure PublicKey where
  modulus : Nat
  exponent : Nat

/-!
# Keys

A key is a sequence of two positive numbers in their shortest form.
-/

def tagged? (tag : UInt8) : List UInt8 → Option (List UInt8 × List UInt8)
  | t :: l :: rest =>
    let cut (length : Nat) (rest : List UInt8) : Option (List UInt8 × List UInt8) :=
      if length ≤ rest.length then some (rest.take length, rest.drop length) else none
    if t ≠ tag then none
    else if l < 0x80 then cut l.toNat rest
    else
      match l, rest with
      | 0x81, a :: rest => if a < 0x80 then none else cut a.toNat rest
      | 0x82, a :: b :: rest => if a = 0 then none else cut (a.toNat * 256 + b.toNat) rest
      | _, _ => none
  | _ => none

def positive? : List UInt8 → Option Nat
  | [] => none
  | [b] => if 0 < b ∧ b < 0x80 then some b.toNat else none
  | a :: b :: rest =>
    if a = 0 then
      if b < 0x80 then none else some (Bytes.ofBigEndian (b :: rest))
    else if a < 0x80 then some (Bytes.ofBigEndian (a :: b :: rest))
    else none

def bitLength (n : Nat) : Nat :=
  if n = 0 then 0 else n.log2 + 1

def byteLength (n : Nat) : Nat :=
  (bitLength n + 7) / 8

/-- Odd moduli of 2048 to 8192 bits, with an odd exponent of at most 33 bits. -/
def PublicKey.isSupported (key : PublicKey) : Bool :=
  key.modulus % 2 = 1 && 2048 ≤ 8 * byteLength key.modulus && bitLength key.modulus ≤ 8192
    && key.exponent % 2 = 1 && 3 ≤ key.exponent && bitLength key.exponent ≤ 33

def PublicKey.ofBytes? (bytes : List UInt8) : Option PublicKey := do
  let (body, after) ← tagged? 0x30 bytes
  if after ≠ [] then none
  let (n, body) ← tagged? 0x02 body
  let (e, body) ← tagged? 0x02 body
  if body ≠ [] then none
  let key : PublicKey := ⟨← positive? n, ← positive? e⟩
  if key.isSupported then pure key else none

/-!
# Encoded digests
-/

def digestHeader : Hash → List UInt8
  | .sha256 => [0x30, 0x31, 0x30, 0x0D, 0x06, 0x09, 0x60, 0x86, 0x48, 0x01, 0x65, 0x03, 0x04,
      0x02, 0x01, 0x05, 0x00, 0x04, 0x20]
  | .sha384 => [0x30, 0x41, 0x30, 0x0D, 0x06, 0x09, 0x60, 0x86, 0x48, 0x01, 0x65, 0x03, 0x04,
      0x02, 0x02, 0x05, 0x00, 0x04, 0x30]
  | .sha512 => [0x30, 0x51, 0x30, 0x0D, 0x06, 0x09, 0x60, 0x86, 0x48, 0x01, 0x65, 0x03, 0x04,
      0x02, 0x03, 0x05, 0x00, 0x04, 0x40]

def fixedEncoding (hash : Hash) (size : Nat) (message : List UInt8) : List UInt8 :=
  let digest := digestHeader hash ++ hash.digest message
  [0x00, 0x01] ++ List.replicate (size - digest.length - 3) 0xFF ++ 0x00 :: digest

def maskBytes (hash : Hash) (seed : List UInt8) (size : Nat) : List UInt8 :=
  let count := (size + hash.size - 1) / hash.size
  ((List.range count).flatMap fun i => hash.digest (seed ++ Bytes.toBigEndian 4 i)).take size

def xorBytes (xs ys : List UInt8) : List UInt8 :=
  List.zipWith (· ^^^ ·) xs ys

def clearHigh (keep : Nat) : List UInt8 → List UInt8
  | [] => []
  | b :: rest => UInt8.ofNat (b.toNat % (1 <<< keep)) :: rest

/-- Whether `encoded`, with `keep` bits in its first byte, is a salted encoding of the message.
The salt is as long as the digest. -/
def isSaltedEncoding (hash : Hash) (keep : Nat) (message encoded : List UInt8) : Bool :=
  let size := encoded.length - hash.size - 1
  let masked := encoded.take size
  let inner := (encoded.drop size).take hash.size
  let block := clearHigh keep (xorBytes masked (maskBytes hash inner size))
  let zeros := size - hash.size - 1
  let salt := block.drop (zeros + 1)
  2 * hash.size + 2 ≤ encoded.length
    && encoded.getLast? = some 0xBC
    && clearHigh keep masked = masked
    && (block.take zeros).all (· = 0)
    && (block.drop zeros).head? = some 0x01
    && hash.digest (List.replicate 8 0 ++ hash.digest message ++ salt) = inner

/-!
# Verification
-/

def opened? (key : PublicKey) (signature : List UInt8) : Option Nat :=
  let s := Bytes.ofBigEndian signature
  if signature.length = byteLength key.modulus ∧ s < key.modulus then
    some (Modular.pow s key.modulus key.exponent)
  else none

def verifiesFixed (hash : Hash) (key : PublicKey) (message signature : List UInt8) : Bool :=
  match opened? key signature with
  | none => false
  | some m =>
    let size := byteLength key.modulus
    Bytes.toBigEndian size m = fixedEncoding hash size message

def verifiesSalted (hash : Hash) (key : PublicKey) (message signature : List UInt8) : Bool :=
  match opened? key signature with
  | none => false
  | some m =>
    let bits := bitLength key.modulus - 1
    let size := (bits + 7) / 8
    byteLength m ≤ size
      && isSaltedEncoding hash (bits - 8 * (size - 1)) message (Bytes.toBigEndian size m)

end Rsa
end Gatekeeper
