/-!
# UTF-8

Bytes to text and back.  Strict decoding names the first place where a byte
string stops being UTF-8; lenient decoding puts one replacement character in
place of each ill-formed piece.
-/

namespace Gatekeeper
namespace Utf8

inductive Piece where
  | char (c : Char) (size : Nat)
  /-- The longest start of a character that the next byte does not continue. -/
  | broken (size : Nat)
  | cut (size : Nat)
deriving DecidableEq, Repr

/-!
# The first byte

A first byte fixes how many bytes follow and which second bytes are allowed.
The narrowed ranges shut out overlong forms, surrogates and values past the
last code point.
-/

structure Lead where
  payload : Nat
  low : UInt8
  high : UInt8
  more : Nat
deriving DecidableEq, Repr

def Lead.ofByte? (b : UInt8) : Option Lead :=
  if b < 0xC2 then none
  else if b < 0xE0 then some ⟨b.toNat - 0xC0, 0x80, 0xBF, 0⟩
  else if b = 0xE0 then some ⟨0, 0xA0, 0xBF, 1⟩
  else if b = 0xED then some ⟨0xD, 0x80, 0x9F, 1⟩
  else if b < 0xF0 then some ⟨b.toNat - 0xE0, 0x80, 0xBF, 1⟩
  else if b = 0xF0 then some ⟨0, 0x90, 0xBF, 2⟩
  else if b < 0xF4 then some ⟨b.toNat - 0xF0, 0x80, 0xBF, 2⟩
  else if b = 0xF4 then some ⟨4, 0x80, 0x8F, 2⟩
  else none

def isContinuation (b : UInt8) : Bool :=
  0x80 ≤ b && b ≤ 0xBF

def extend (code : Nat) (b : UInt8) : Nat :=
  code * 64 + (b.toNat - 0x80)

def continuation : (more : Nat) → (code size : Nat) → List UInt8 → Piece
  | 0, code, size, _ => .char (Char.ofNat code) size
  | _ + 1, _, size, [] => .cut size
  | more + 1, code, size, b :: rest =>
    if isContinuation b then continuation more (extend code b) (size + 1) rest
    else .broken size

def piece (first : UInt8) (rest : List UInt8) : Piece :=
  if first < 0x80 then .char (Char.ofNat first.toNat) 1
  else
    match Lead.ofByte? first, rest with
    | none, _ => .broken 1
    | some _, [] => .cut 1
    | some lead, second :: rest =>
      if lead.low ≤ second && second ≤ lead.high then
        continuation lead.more (extend lead.payload second) 2 rest
      else .broken 1

/-!
# Decoding
-/

inductive Fault where
  | invalid (size index : Nat)
  | incomplete (index : Nat)
deriving DecidableEq, Repr

def Fault.message : Fault → String
  | .invalid size index =>
    "invalid utf-8 sequence of " ++ toString size ++ " bytes from index " ++ toString index
  | .incomplete index => "incomplete utf-8 byte sequence from index " ++ toString index

def decodeFrom (index : Nat) : List UInt8 → Except Fault (List Char)
  | [] => .ok []
  | b :: rest =>
    match piece b rest with
    | .char c size =>
      match decodeFrom (index + size) (rest.drop (size - 1)) with
      | .ok cs => .ok (c :: cs)
      | .error fault => .error fault
    | .broken size => .error (.invalid size index)
    | .cut _ => .error (.incomplete index)
termination_by input => input.length
decreasing_by simp only [List.length_drop, List.length_cons]; omega

def decode (bytes : List UInt8) : Except Fault String :=
  (decodeFrom 0 bytes).map String.ofList

def decode? (bytes : List UInt8) : Option String :=
  (decode bytes).toOption

def replacement : Char := '\uFFFD'

def lenientChars : List UInt8 → List Char
  | [] => []
  | b :: rest =>
    match piece b rest with
    | .char c size => c :: lenientChars (rest.drop (size - 1))
    | .broken size => replacement :: lenientChars (rest.drop (size - 1))
    | .cut _ => [replacement]
termination_by input => input.length
decreasing_by all_goals (simp only [List.length_drop, List.length_cons]; omega)

def lenient (bytes : List UInt8) : String :=
  String.ofList (lenientChars bytes)

/-!
# Encoding
-/

def encodeChars (cs : List Char) : List UInt8 :=
  cs.flatMap String.utf8EncodeChar

def encode (s : String) : List UInt8 :=
  encodeChars s.toList

end Utf8
end Gatekeeper
