import Gatekeeper.Bytes

/-!
# The SHA-2 family

One construction over words of 32 or 64 bits.  A message is padded to whole
blocks, and each block is mixed into a state of eight words over a fixed number
of rounds.  The members of the family differ in the width of their words, in
their rotations, in the number of rounds and in the state they start from.
-/

namespace Gatekeeper
namespace Sha2

structure State (n : Nat) where
  a : BitVec n
  b : BitVec n
  c : BitVec n
  d : BitVec n
  e : BitVec n
  f : BitVec n
  g : BitVec n
  h : BitVec n

structure Amounts where
  first : Nat
  second : Nat
  third : Nat

structure Family (n : Nat) where
  sum0 : Amounts
  sum1 : Amounts
  expand0 : Amounts
  expand1 : Amounts
  rounds : List (BitVec n)

def Amounts.rotations (r : Amounts) (x : BitVec n) : BitVec n :=
  x.rotateRight r.first ^^^ x.rotateRight r.second ^^^ x.rotateRight r.third

def Amounts.shifted (r : Amounts) (x : BitVec n) : BitVec n :=
  x.rotateRight r.first ^^^ x.rotateRight r.second ^^^ (x >>> r.third)

def choose (x y z : BitVec n) : BitVec n :=
  (x &&& y) ^^^ (~~~x &&& z)

def majority (x y z : BitVec n) : BitVec n :=
  (x &&& y) ^^^ (x &&& z) ^^^ (y &&& z)

def State.add (s t : State n) : State n :=
  ⟨s.a + t.a, s.b + t.b, s.c + t.c, s.d + t.d, s.e + t.e, s.f + t.f, s.g + t.g, s.h + t.h⟩

/-!
# Blocks
-/

def Family.round (family : Family n) (s : State n) (word constant : BitVec n) : State n :=
  let t1 := s.h + family.sum1.rotations s.e + choose s.e s.f s.g + constant + word
  let t2 := family.sum0.rotations s.a + majority s.a s.b s.c
  ⟨t1 + t2, s.a, s.b, s.c, s.d + t1, s.e, s.f, s.g⟩

def Family.expand (family : Family n) (words : List (BitVec n)) : BitVec n :=
  family.expand1.shifted (words.getD 14 0) + words.getD 9 0
    + family.expand0.shifted (words.getD 1 0) + words.getD 0 0

/-- Runs the rounds; `words` are the words of this round and the fifteen after it. -/
def Family.run (family : Family n) : List (BitVec n) → List (BitVec n) → State n → State n
  | [], _, s => s
  | constant :: constants, words, s =>
    family.run constants (words.drop 1 ++ [family.expand words])
      (family.round s (words.getD 0 0) constant)

def ofBytes (n : Nat) (bytes : List UInt8) : BitVec n :=
  bytes.foldl (fun word b => word <<< 8 ||| BitVec.ofNat n b.toNat) 0

def toBytes (word : BitVec n) : List UInt8 :=
  (List.range (n / 8)).map fun i => UInt8.ofNat (word >>> (n - 8 * (i + 1))).toNat

def chunks (size : Nat) (bytes : List UInt8) : List (List UInt8) :=
  if _ : size = 0 ∨ bytes = [] then []
  else bytes.take size :: chunks size (bytes.drop size)
termination_by bytes.length
decreasing_by
  rename_i h
  have := List.length_pos_iff.mpr (fun he => h (Or.inr he))
  simp only [List.length_drop]
  omega

def Family.compress (family : Family n) (s : State n) (block : List UInt8) : State n :=
  s.add (family.run family.rounds ((chunks (n / 8) block).map (ofBytes n)) s)

/-!
# Messages
-/

def blockSize (n : Nat) : Nat :=
  2 * n

def padding (n length : Nat) : List UInt8 :=
  let size := blockSize n
  let room := n / 4
  let zeros := (size - (length + 1 + room) % size) % size
  0x80 :: List.replicate zeros 0 ++ Bytes.toBigEndian room (8 * length)

def Family.digest (family : Family n) (start : State n) (message : List UInt8) : State n :=
  (chunks (blockSize n) (message ++ padding n message.length)).foldl family.compress start

def State.words (s : State n) : List (BitVec n) :=
  [s.a, s.b, s.c, s.d, s.e, s.f, s.g, s.h]

def State.bytes (s : State n) : List UInt8 :=
  s.words.flatMap toBytes

/-!
# Members
-/

/-- The first bits of the fractional parts of the cube roots of the first eighty primes. -/
def constants : List (BitVec 64) := [
  0x428a2f98d728ae22, 0x7137449123ef65cd, 0xb5c0fbcfec4d3b2f, 0xe9b5dba58189dbbc,
  0x3956c25bf348b538, 0x59f111f1b605d019, 0x923f82a4af194f9b, 0xab1c5ed5da6d8118,
  0xd807aa98a3030242, 0x12835b0145706fbe, 0x243185be4ee4b28c, 0x550c7dc3d5ffb4e2,
  0x72be5d74f27b896f, 0x80deb1fe3b1696b1, 0x9bdc06a725c71235, 0xc19bf174cf692694,
  0xe49b69c19ef14ad2, 0xefbe4786384f25e3, 0x0fc19dc68b8cd5b5, 0x240ca1cc77ac9c65,
  0x2de92c6f592b0275, 0x4a7484aa6ea6e483, 0x5cb0a9dcbd41fbd4, 0x76f988da831153b5,
  0x983e5152ee66dfab, 0xa831c66d2db43210, 0xb00327c898fb213f, 0xbf597fc7beef0ee4,
  0xc6e00bf33da88fc2, 0xd5a79147930aa725, 0x06ca6351e003826f, 0x142929670a0e6e70,
  0x27b70a8546d22ffc, 0x2e1b21385c26c926, 0x4d2c6dfc5ac42aed, 0x53380d139d95b3df,
  0x650a73548baf63de, 0x766a0abb3c77b2a8, 0x81c2c92e47edaee6, 0x92722c851482353b,
  0xa2bfe8a14cf10364, 0xa81a664bbc423001, 0xc24b8b70d0f89791, 0xc76c51a30654be30,
  0xd192e819d6ef5218, 0xd69906245565a910, 0xf40e35855771202a, 0x106aa07032bbd1b8,
  0x19a4c116b8d2d0c8, 0x1e376c085141ab53, 0x2748774cdf8eeb99, 0x34b0bcb5e19b48a8,
  0x391c0cb3c5c95a63, 0x4ed8aa4ae3418acb, 0x5b9cca4f7763e373, 0x682e6ff3d6b2b8a3,
  0x748f82ee5defb2fc, 0x78a5636f43172f60, 0x84c87814a1f0ab72, 0x8cc702081a6439ec,
  0x90befffa23631e28, 0xa4506cebde82bde9, 0xbef9a3f7b2c67915, 0xc67178f2e372532b,
  0xca273eceea26619c, 0xd186b8c721c0c207, 0xeada7dd6cde0eb1e, 0xf57d4f7fee6ed178,
  0x06f067aa72176fba, 0x0a637dc5a2c898a6, 0x113f9804bef90dae, 0x1b710b35131c471b,
  0x28db77f523047d84, 0x32caab7b40c72493, 0x3c9ebe0a15c9bebc, 0x431d67c49c100d4c,
  0x4cc5d4becb3e42b6, 0x597f299cfc657e2a, 0x5fcb6fab3ad6faec, 0x6c44198c4a475817]

def wide : Family 64 where
  sum0 := ⟨28, 34, 39⟩
  sum1 := ⟨14, 18, 41⟩
  expand0 := ⟨1, 8, 7⟩
  expand1 := ⟨19, 61, 6⟩
  rounds := constants

def narrow : Family 32 where
  sum0 := ⟨2, 13, 22⟩
  sum1 := ⟨6, 11, 25⟩
  expand0 := ⟨7, 18, 3⟩
  expand1 := ⟨17, 19, 10⟩
  rounds := (constants.take 64).map fun word : BitVec 64 => (word >>> 32).setWidth 32

def start512 : State 64 :=
  ⟨0x6a09e667f3bcc908, 0xbb67ae8584caa73b, 0x3c6ef372fe94f82b, 0xa54ff53a5f1d36f1,
    0x510e527fade682d1, 0x9b05688c2b3e6c1f, 0x1f83d9abfb41bd6b, 0x5be0cd19137e2179⟩

def start384 : State 64 :=
  ⟨0xcbbb9d5dc1059ed8, 0x629a292a367cd507, 0x9159015a3070dd17, 0x152fecd8f70e5939,
    0x67332667ffc00b31, 0x8eb44a8768581511, 0xdb0c2e0d64f98fa7, 0x47b5481dbefa4fa4⟩

def start256 : State 32 :=
  ⟨0x6a09e667, 0xbb67ae85, 0x3c6ef372, 0xa54ff53a,
    0x510e527f, 0x9b05688c, 0x1f83d9ab, 0x5be0cd19⟩

def sha256 (message : List UInt8) : List UInt8 :=
  (narrow.digest start256 message).bytes

def sha384 (message : List UInt8) : List UInt8 :=
  (wide.digest start384 message).bytes.take 48

def sha512 (message : List UInt8) : List UInt8 :=
  (wide.digest start512 message).bytes

end Sha2

inductive Hash where
  | sha256
  | sha384
  | sha512
deriving DecidableEq, Repr

namespace Hash

def digest : Hash → List UInt8 → List UInt8
  | .sha256 => Sha2.sha256
  | .sha384 => Sha2.sha384
  | .sha512 => Sha2.sha512

def size : Hash → Nat
  | .sha256 => 32
  | .sha384 => 48
  | .sha512 => 64

def blockSize : Hash → Nat
  | .sha256 => 64
  | .sha384 => 128
  | .sha512 => 128

end Hash
end Gatekeeper
