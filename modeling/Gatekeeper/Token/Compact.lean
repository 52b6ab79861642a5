import Gatekeeper.Text.Utf8

/-!
# Compact tokens

A token is a header, a payload and a signature with points between them.  The
signature starts after the last point and the payload after the one before it,
so a header may have points of its own.
-/

namespace Gatekeeper

structure Compact where
  header : List Char
  payload : List Char
  signature : List Char
deriving DecidableEq, Repr

namespace Compact

def splitLast : List Char → Option (List Char × List Char)
  | [] => none
  | c :: rest =>
    match splitLast rest with
    | some (before, after) => some (c :: before, after)
    | none => if c = '.' then some ([], rest) else none

def split? (token : List Char) : Option Compact := do
  let (signed, signature) ← splitLast token
  let (header, payload) ← splitLast signed
  pure ⟨header, payload, signature⟩

def signedChars (token : Compact) : List Char :=
  token.header ++ '.' :: token.payload

def signedBytes (token : Compact) : List UInt8 :=
  Utf8.encodeChars token.signedChars

def chars (token : Compact) : List Char :=
  token.signedChars ++ '.' :: token.signature

end Compact
end Gatekeeper
