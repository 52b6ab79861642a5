import Gatekeeper.Bytes
import Gatekeeper.Key.Time
import Gatekeeper.Text.Ascii
import Gatekeeper.Text.Utf8

/-!
# ASN.1 blocks

Tagged blocks of bytes, nested in sequences and sets.  Only what the search for
a key needs is kept of a block; the rest is checked for its form.
-/

namespace Gatekeeper
namespace Asn1

inductive Block where
  | sequence (items : List Block)
  | bitString (bytes : List UInt8)
  | octetString (bytes : List UInt8)
  | identifier (arcs : List Nat)
  | other

/-!
# Tags and lengths
-/

inductive TagClass where
  | universal
  | other
deriving DecidableEq

structure Tag where
  tagClass : TagClass
  constructed : Bool
  number : Nat

def base128 (n : Nat) : List UInt8 → Option (Nat × List UInt8)
  | [] => none
  | b :: rest =>
    let m := n * 128 + b.toNat % 128
    if b < 0x80 then some (m, rest) else base128 m rest

def tag? : List UInt8 → Option (Tag × List UInt8)
  | [] => none
  | b :: rest => do
    let tagClass := if b < 0x40 then TagClass.universal else TagClass.other
    let constructed := b &&& 0x20 ≠ 0
    let low := b.toNat % 32
    if low = 31 then
      let (number, rest) ← base128 0 rest
      pure (⟨tagClass, constructed, number⟩, rest)
    else pure (⟨tagClass, constructed, low⟩, rest)

/-- A length is one byte, or a count of at most eight bytes that hold it. -/
def length? : List UInt8 → Option (Nat × List UInt8)
  | [] => none
  | b :: rest =>
    if b < 0x80 then some (b.toNat, rest)
    else
      let count := b.toNat - 0x80
      if count ≤ 8 ∧ count ≤ rest.length then
        some (Bytes.ofBigEndian (rest.take count), rest.drop count)
      else none

/-!
# Contents
-/

def arcsFrom : (bound : Nat) → List UInt8 → Option (List Nat)
  | _, [] => some []
  | 0, _ :: _ => none
  | bound + 1, bytes => do
    let (arc, rest) ← base128 0 bytes
    let arcs ← arcsFrom bound rest
    pure (arc :: arcs)

def arcs? : List UInt8 → Option (List Nat)
  | [] => none
  | b :: rest => do
    let arcs ← arcsFrom rest.length rest
    let first := min (b.toNat / 40) 2
    pure (first :: (b.toNat - 40 * first) :: arcs)

/-- A bit string starts with the number of bits of its last byte that do not count. -/
def bits? : List UInt8 → Option (List UInt8)
  | [] => some []
  | unused :: bytes => if unused.toNat ≤ 8 * bytes.length then some bytes else none

def isPrintable (b : UInt8) : Bool :=
  Ascii.isDigit b || (0x41 ≤ b && b ≤ 0x5A) || (0x61 ≤ b && b ≤ 0x7A)
    || b ∈ [0x20, 0x27, 0x28, 0x29, 0x2B, 0x2C, 0x2D, 0x2E, 0x2F, 0x3A, 0x3D, 0x3F]

def leaf? (number : Nat) (body : List UInt8) : Option Block :=
  match number with
  | 1 => if body.length = 1 then some .other else none
  | 3 => (bits? body).map .bitString
  | 4 => some (.octetString body)
  | 6 => (arcs? body).map .identifier
  | 12 | 20 | 28 | 30 => (Utf8.decode? body).map fun _ => .other
  | 19 => if body.all isPrintable then some .other else none
  | 23 => if Time.isShort body then some .other else none
  | 24 => if Time.isGeneral body then some .other else none
  | _ => some .other

/-- The blocks that make up a byte string; there is at least one.  Each block takes at least two
bytes, also from the body it stands in, so the length of the input bounds the recursion. -/
def blocksFrom : (bound : Nat) → List UInt8 → Option (List Block)
  | 0, _ => none
  | bound + 1, bytes => do
    let (tag, rest) ← tag? bytes
    let (length, rest) ← length? rest
    if rest.length < length then none
    let body := rest.take length
    let block ←
      if tag.tagClass = .other then pure Block.other
      else if tag.number = 16 then (blocksFrom bound body).map Block.sequence
      else if tag.number = 17 then (blocksFrom bound body).map fun _ => Block.other
      else leaf? tag.number body
    let after := rest.drop length
    if after.isEmpty then pure [block]
    else
      let blocks ← blocksFrom bound after
      pure (block :: blocks)

def blocks? (bytes : List UInt8) : Option (List Block) :=
  blocksFrom (bytes.length + 1) bytes

/-!
# Searches

Both searches go through sequences in depth, before what follows them.
-/

mutual

def Block.search (pick : Block → Option α) : Block → Option α
  | .sequence items => searchItems pick items
  | .bitString bytes => pick (.bitString bytes)
  | .octetString bytes => pick (.octetString bytes)
  | .identifier arcs => pick (.identifier arcs)
  | .other => pick .other

def searchItems (pick : Block → Option α) : List Block → Option α
  | [] => none
  | block :: rest =>
    match block.search pick with
    | some a => some a
    | none => searchItems pick rest

end

def firstString? (blocks : List Block) : Option (List UInt8) :=
  searchItems
    (fun
      | .bitString bytes => some bytes
      | .octetString bytes => some bytes
      | _ => none)
    blocks

def firstKnown? (known : List Nat → Option α) (blocks : List Block) : Option α :=
  searchItems
    (fun
      | .identifier arcs => known arcs
      | _ => none)
    blocks

end Asn1
end Gatekeeper
