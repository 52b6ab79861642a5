import Gatekeeper.Bytes
import Gatekeeper.Digest.Sha2
import Gatekeeper.Signature.Modular

/-!
# EdDSA signatures

Signatures over the twisted Edwards curve `-x² + y² = 1 + d x² y²` with the prime
`2 ^ 255 - 19`.  Points are kept in coordinates `(X : Y : Z : T)` that stand for
`(X / Z, Y / Z)` with `X Y = Z T`.
-/

namespace Gatekeeper
namespace Eddsa

def p : Nat := 0x7fffffffffffffffffffffffffffffffffffffffffffffffffffffffffffffed

def highBit : Nat := 0x8000000000000000000000000000000000000000000000000000000000000000

def order : Nat := 0x1000000000000000000000000000000014def9dea2f79cd65812631a5cf5d3ed

def d : Nat := 0x52036cee2b6ffe738cc740797779e89800700a4d4141d8ab75eb4dca135978a3

def rootOfMinusOne : Nat := 0x2b8324804fc1df0b2b4d00993dfbd7a72f431806ad2fe478c4ee1b274a0ea0b0

structure Point where
  x : Nat
  y : Nat
  z : Nat
  t : Nat

namespace Point

def ofAffine (x y : Nat) : Point := ⟨x, y, 1, x * y % p⟩

def neutral : Point := ⟨0, 1, 1, 0⟩

def base : Point :=
  ofAffine 0x216936d3cd6e53fec0a4e231fdd6dc5c692cc7609525a7b2c9562d608f25d51a
    0x6666666666666666666666666666666666666666666666666666666666666658

def negate (a : Point) : Point :=
  ⟨Modular.sub p 0 a.x, a.y, a.z, Modular.sub p 0 a.t⟩

/-- The sum of two points; the formula holds for all pairs of points. -/
def add (a b : Point) : Point :=
  let e := Modular.sub p ((a.x + a.y) * (b.x + b.y)) (a.x * b.x + a.y * b.y)
  let c := d * (a.t * b.t % p) % p
  let f := Modular.sub p (a.z * b.z) c
  let g := (a.z * b.z + c) % p
  let h := (a.y * b.y + a.x * b.x) % p
  ⟨e * f % p, g * h % p, f * g % p, e * h % p⟩

def multiply (point : Point) (n : Nat) : Point :=
  if _ : n = 0 then neutral
  else
    let half := multiply point (n / 2)
    let twice := add half half
    if n % 2 = 0 then twice else add twice point
termination_by n

def bytes (a : Point) : List UInt8 :=
  let inverse := Modular.inverse p a.z
  let x := a.x * inverse % p
  let y := a.y * inverse % p
  Bytes.toLittleEndian 32 (y + x % 2 * highBit)

/-- The point of a second coordinate and the parity of the first, if the curve has one. -/
def ofBytes? (bytes : List UInt8) : Option Point :=
  let n := Bytes.ofLittleEndian bytes
  let y := n % highBit % p
  let u := Modular.sub p (y * y) 1
  let v := (d * (y * y % p) + 1) % p
  let cube := v * v % p * v % p
  let root := u * cube % p * Modular.pow (u * (cube * cube % p * v % p) % p) p ((p - 5) / 8) % p
  let square := v * (root * root % p) % p
  let x? :=
    if square = u then some root
    else if square = Modular.sub p 0 u then some (root * rootOfMinusOne % p)
    else none
  x?.map fun x => ofAffine (if x % 2 = n / highBit then x else Modular.sub p 0 x) y

end Point

def verifies (key message signature : List UInt8) : Bool :=
  if key.length ≠ 32 || signature.length ≠ 64 then false
  else
    let r := signature.take 32
    let s := Bytes.ofLittleEndian (signature.drop 32)
    match Point.ofBytes? key with
    | none => false
    | some a =>
      let k := Bytes.ofLittleEndian (Sha2.sha512 (r ++ key ++ message)) % order
      s < order && (Point.add (Point.base.multiply s) (a.negate.multiply k)).bytes = r

end Eddsa
end Gatekeeper
