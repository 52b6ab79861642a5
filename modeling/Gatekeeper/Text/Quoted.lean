import Gatekeeper.Text.Unprintable

/-!
# Quoted text

Text between double quotes on one line, as diagnostics show it.  Quotes,
backslashes and the common controls are written with a letter, other characters
that would not show are written by their code point, all else stands as it is.
-/

namespace Gatekeeper
namespace Quoted

def hexDigits (n : Nat) : List Char :=
  Nat.toDigits 16 n

def codePoint (c : Char) : List Char :=
  ['\\', 'u', '\x7b'] ++ hexDigits c.toNat ++ ['\x7d']

def escape (c : Char) : List Char :=
  if c = '"' then ['\\', '"']
  else if c = '\\' then ['\\', '\\']
  else if c = '\n' then ['\\', 'n']
  else if c = '\r' then ['\\', 'r']
  else if c = '\t' then ['\\', 't']
  else if c = '\x00' then ['\\', '0']
  else if Unprintable.isCombining c || Unprintable.isUnprintable c then codePoint c
  else [c]

def quoteChars (cs : List Char) : List Char :=
  '"' :: cs.flatMap escape ++ ['"']

def quote (s : String) : String :=
  String.ofList (quoteChars s.toList)

end Quoted
end Gatekeeper
