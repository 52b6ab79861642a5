import Gatekeeper.Headers
import Gatekeeper.Secret

/-!
# Bearer tokens of requests

The token of a request stands in its authorization header, after the word
`bearer` and a space.  A request with another scheme carries no token.
-/

namespace Gatekeeper

inductive ReadFault where
  | noToken
  | malformed (reason : String)
  | backend (cause : String)
deriving DecidableEq, Repr

namespace ReadFault

def message : ReadFault → String
  | .noToken => "Request carries no bearer token."
  | .malformed reason => "Authorization header is malformed: " ++ reason ++ "."
  | .backend _ => "Token reader backend failed."

def causes : ReadFault → List String
  | .backend cause => [cause]
  | _ => []

def notVisible : ReadFault := .malformed "header is not visible ASCII"

def emptyToken : ReadFault := .malformed "bearer token is empty"

end ReadFault

abbrev TokenReader := Headers → Except ReadFault BearerToken

namespace Bearer

def headerName : String := "authorization"

def scheme : List Char := ['b', 'e', 'a', 'r', 'e', 'r']

def isWhite (c : Char) : Bool :=
  c = ' ' || c = '\t'

def trim (cs : List Char) : List Char :=
  ((cs.dropWhile isWhite).reverse.dropWhile isWhite).reverse

def isScheme (cs : List Char) : Bool :=
  cs.map Ascii.lower = scheme

/-- The token in the text of a header. -/
def ofText (text : List Char) : Except ReadFault BearerToken :=
  let value := trim text
  let word := value.takeWhile (· ≠ ' ')
  match value.dropWhile (· ≠ ' ') with
  | [] => if isScheme value then .error .emptyToken else .error .noToken
  | _ :: rest =>
    if !isScheme word then .error .noToken
    else
      let token := trim rest
      if token = [] then .error .emptyToken else .ok ⟨String.ofList token⟩

def ofValue (value : List UInt8) : Except ReadFault BearerToken :=
  match HeaderValue.text? value with
  | none => .error .notVisible
  | some text => ofText text

def read : TokenReader := fun headers =>
  match headers.first? headerName with
  | none => .error .noToken
  | some value => ofValue value

end Bearer
end Gatekeeper
