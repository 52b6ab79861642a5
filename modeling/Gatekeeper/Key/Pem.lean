import Gatekeeper.Text.Base64
import Gatekeeper.Text.Utf8

/-!
# PEM blocks

Bytes between a line that begins and a line that ends them, under a label.
Other text may stand around the block.
-/

namespace Gatekeeper
namespace Pem

structure Block where
  label : String
  contents : List UInt8

/-!
# Framing
-/

/-- Splits at the first match of `marker`.  A mismatch starts the match anew at the character after
it. -/
def splitFrom (marker : List Char) : (left before : List Char) → List Char →
    Option (List Char × List Char)
  | [], before, input => some ((before.drop marker.length).reverse, input)
  | _ :: _, _, [] => none
  | m :: left, before, c :: input =>
    if c = m then splitFrom marker left (c :: before) input
    else splitFrom marker marker (c :: before) input

def splitAt? (marker : String) (input : List Char) : Option (List Char × List Char) :=
  splitFrom marker.toList marker.toList [] input

def isBlank (c : Char) : Bool :=
  c = ' ' || c = '\t' || c = '\n' || c = '\r'

def splitHeaders (body : List Char) : List Char × List Char :=
  match splitAt? "\n\n" body with
  | some parts => parts
  | none => (splitAt? "\r\n\r\n" body).getD ([], body)

/-!
# Lines
-/

def isWhite (c : Char) : Bool :=
  let n := c.toNat
  (9 ≤ n && n ≤ 13) || n = 0x20 || n = 0x85 || n = 0xA0 || n = 0x1680
    || (0x2000 ≤ n && n ≤ 0x200A) || n = 0x2028 || n = 0x2029 || n = 0x202F || n = 0x205F
    || n = 0x3000

def lines : List Char → List (List Char)
  | [] => []
  | '\n' :: rest => [] :: lines rest
  | c :: rest =>
    match lines rest with
    | [] => [[c]]
    | line :: more => (c :: line) :: more

def trim (line : List Char) : List Char :=
  ((line.dropWhile isWhite).reverse.dropWhile isWhite).reverse

def joined (data : List Char) : List Char :=
  (lines data).flatMap trim

def decode? (text : String) : Option Block := do
  let (_, input) ← splitAt? "-----BEGIN " text.toList
  let (label, input) ← splitAt? "-----" input
  let (body, input) ← splitAt? "-----END " (input.dropWhile isBlank)
  let (endLabel, _) ← splitAt? "-----" input
  if label = [] ∨ label ≠ endLabel then none
  let (headers, data) := splitHeaders body
  if !(lines headers).all (·.contains ':') then none
  let contents ←
    (Base64.decode Base64.standard .full (Utf8.encodeChars (joined data))).toOption
  pure ⟨String.ofList label, contents⟩

end Pem
end Gatekeeper
