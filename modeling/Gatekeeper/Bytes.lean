/-!
# Numbers as bytes

Natural numbers in base 256, with the highest or the lowest byte first.
-/

namespace Gatekeeper
namespace Bytes

def ofBigEndian (bytes : List UInt8) : Nat :=
  bytes.foldl (fun n b => n * 256 + b.toNat) 0

def ofLittleEndian (bytes : List UInt8) : Nat :=
  bytes.foldr (fun b n => n * 256 + b.toNat) 0

def toBigEndian : (size : Nat) → Nat → List UInt8
  | 0, _ => []
  | size + 1, n => toBigEndian size (n / 256) ++ [UInt8.ofNat n]

def toLittleEndian : (size : Nat) → Nat → List UInt8
  | 0, _ => []
  | size + 1, n => UInt8.ofNat n :: toLittleEndian size (n / 256)

end Bytes
end Gatekeeper
