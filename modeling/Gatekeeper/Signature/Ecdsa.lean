import Gatekeeper.Bytes
import Gatekeeper.Digest.Sha2
import Gatekeeper.Signature.Modular

/-!
# ECDSA signatures

Signatures over the prime curves `y² = x³ - 3 x + b`.  Points are kept in
coordinates `(X : Y : Z)` that stand for `(X / Z², Y / Z³)`, so that sums need no
inverses; `Z = 0` is the neutral point.
-/

namespace Gatekeeper
namespace Ecdsa

structure Curve where
  p : Nat
  b : Nat
  baseX : Nat
  baseY : Nat
  order : Nat
  size : Nat

def p256 : Curve where
  p := 0xffffffff00000001000000000000000000000000ffffffffffffffffffffffff
  b := 0x5ac635d8aa3a93e7b3ebbd55769886bc651d06b0cc53b0f63bce3c3e27d2604b
  baseX := 0x6b17d1f2e12c4247f8bce6e563a440f277037d812deb33a0f4a13945d898c296
  baseY := 0x4fe342e2fe1a7f9b8ee7eb4a7c0f9e162bce33576b315ececbb6406837bf51f5
  order := 0xffffffff00000000ffffffffffffffffbce6faada7179e84f3b9cac2fc632551
  size := 32

def p384 : Curve where
  p := 0xfffffffffffffffffffffffffffffffffffffffffffffffffffffffffffffffeffffffff0000000000000000ffffffff
  b := 0xb3312fa7e23ee7e4988e056be3f82d19181d9c6efe8141120314088f5013875ac656398d8a2ed19d2a85c8edd3ec2aef
  baseX := 0xaa87ca22be8b05378eb1c71ef320ad746e1d3b628ba79b9859f741e082542a385502f25dbf55296c3a545e3872760ab7
  baseY := 0x3617de4a96262c6f5d9e98bf9292dc29f8f41dbd289a147ce9da3113b5f0b8c00a60b1ce1d7e819d7a431d7c90ea0e5f
  order := 0xffffffffffffffffffffffffffffffffffffffffffffffffc7634d81f4372ddf581a0db248b0a77aecec196accc52973
  size := 48

structure Point where
  x : Nat
  y : Nat
  z : Nat

namespace Curve

def base (curve : Curve) : Point := ⟨curve.baseX, curve.baseY, 1⟩

def neutral : Point := ⟨1, 1, 0⟩

def holds (curve : Curve) (x y : Nat) : Bool :=
  let p := curve.p
  x < p && y < p && y * y % p = Modular.sub p (x * x * x + curve.b) (3 * x)

def double (curve : Curve) (a : Point) : Point :=
  let p := curve.p
  let yy := a.y * a.y % p
  let s := 4 * a.x * yy % p
  let zz := a.z * a.z % p
  let m := 3 * Modular.sub p a.x zz * (a.x + zz) % p
  let x := Modular.sub p (m * m) (2 * s)
  ⟨x, Modular.sub p (m * Modular.sub p s x) (8 * yy * yy), 2 * a.y * a.z % p⟩

def add (curve : Curve) (a b : Point) : Point :=
  let p := curve.p
  if a.z = 0 then b
  else if b.z = 0 then a
  else
    let za := a.z * a.z % p
    let zb := b.z * b.z % p
    let ua := a.x * zb % p
    let ub := b.x * za % p
    let sa := a.y * b.z * zb % p
    let sb := b.y * a.z * za % p
    let h := Modular.sub p ub ua
    let r := Modular.sub p sb sa
    if h = 0 then
      if r = 0 then curve.double a else neutral
    else
      let hh := h * h % p
      let hhh := h * hh % p
      let v := ua * hh % p
      let x := Modular.sub p (r * r) (hhh + 2 * v)
      ⟨x, Modular.sub p (r * Modular.sub p v x) (sa * hhh), a.z * b.z * h % p⟩

def multiply (curve : Curve) (point : Point) (n : Nat) : Point :=
  if _ : n = 0 then neutral
  else
    let twice := curve.double (multiply curve point (n / 2))
    if n % 2 = 0 then twice else curve.add twice point
termination_by n

def abscissa (curve : Curve) (a : Point) : Nat :=
  let inverse := Modular.inverse curve.p a.z
  a.x * inverse * inverse % curve.p

end Curve

def key? (curve : Curve) : List UInt8 → Option Point
  | 0x04 :: bytes =>
    let x := Bytes.ofBigEndian (bytes.take curve.size)
    let y := Bytes.ofBigEndian (bytes.drop curve.size)
    if bytes.length = 2 * curve.size ∧ curve.holds x y then some ⟨x, y, 1⟩ else none
  | _ => none

/-- The signature holds its two numbers one after the other, each of the size of a coordinate.
The digest is as long as a coordinate. -/
def verifies (curve : Curve) (hash : Hash) (key message signature : List UInt8) : Bool :=
  match key? curve key with
  | none => false
  | some point =>
    let n := curve.order
    let r := Bytes.ofBigEndian (signature.take curve.size)
    let s := Bytes.ofBigEndian (signature.drop curve.size)
    if signature.length ≠ 2 * curve.size || r = 0 || s = 0 || n ≤ r || n ≤ s then false
    else
      let z := Bytes.ofBigEndian (hash.digest message)
      let w := Modular.inverse n s
      let sum := curve.add (curve.multiply curve.base (z * w % n))
        (curve.multiply point (r * w % n))
      sum.z ≠ 0 && curve.abscissa sum % n = r

end Ecdsa
end Gatekeeper
