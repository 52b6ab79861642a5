import Gatekeeper.Json.Object
import Gatekeeper.Text.Utf8

/-!
# Compact text of values

Values without any blanks between the tokens.  In strings only the quote, the
backslash and the characters below the space are escaped.
-/

namespace Gatekeeper
namespace Json

def hexDigit (n : Nat) : Char :=
  if n < 10 then Char.ofNat (48 + n) else Char.ofNat (87 + n)

def escapeChar (c : Char) : List Char :=
  if c = '"' then ['\\', '"']
  else if c = '\\' then ['\\', '\\']
  else if c = '\x08' then ['\\', 'b']
  else if c = '\x0c' then ['\\', 'f']
  else if c = '\n' then ['\\', 'n']
  else if c = '\r' then ['\\', 'r']
  else if c = '\t' then ['\\', 't']
  else if c.toNat < 32 then
    ['\\', 'u', '0', '0', hexDigit (c.toNat / 16), hexDigit (c.toNat % 16)]
  else [c]

def stringChars (s : String) : List Char :=
  '"' :: s.toList.flatMap escapeChar ++ ['"']

mutual

def Value.chars : Value → List Char
  | .null => ['n', 'u', 'l', 'l']
  | .bool true => ['t', 'r', 'u', 'e']
  | .bool false => ['f', 'a', 'l', 's', 'e']
  | .number n => n.chars
  | .string s => stringChars s
  | .array items => '[' :: itemsChars items
  | .object members => '\x7b' :: membersChars members

/-- The elements that are left and the closing bracket. -/
def itemsChars : List Value → List Char
  | [] => [']']
  | [v] => v.chars ++ [']']
  | v :: w :: rest => v.chars ++ ',' :: itemsChars (w :: rest)

def membersChars : List (String × Value) → List Char
  | [] => ['\x7d']
  | [(k, v)] => stringChars k ++ ':' :: (v.chars ++ ['\x7d'])
  | (k, v) :: m :: rest => stringChars k ++ ':' :: (v.chars ++ ',' :: membersChars (m :: rest))

end

def Value.text (v : Value) : String :=
  String.ofList v.chars

def Value.bytes (v : Value) : List UInt8 :=
  Utf8.encodeChars v.chars

def Object.text (o : Object) : String :=
  (Value.object o.members).text

def Object.bytes (o : Object) : List UInt8 :=
  (Value.object o.members).bytes

end Json
end Gatekeeper
