import Gatekeeper.Url.Host

/-!
# Addresses

The address of a service on the web, in its parts.  The parts are kept as they
are written: the user, the path, the query and the fragment with their escapes,
the port only where it is not the usual one.
-/

namespace Gatekeeper

inductive Scheme where
  | http
  | https
deriving DecidableEq, Repr

namespace Scheme

def chars : Scheme → List Char
  | http => ['h', 't', 't', 'p']
  | https => ['h', 't', 't', 'p', 's']

def port : Scheme → Nat
  | http => 80
  | https => 443

end Scheme

structure Url where
  scheme : Scheme
  user : List Char
  password : List Char
  host : Url.Host
  port : Option Nat
  /-- The segments after each slash; there is at least one. -/
  path : List (List Char)
  query : Option (List Char)
  fragment : Option (List Char)
deriving DecidableEq, Repr

namespace Url

def userChars (url : Url) : List Char :=
  let secret := if url.password = [] then [] else ':' :: url.password
  if url.user = [] ∧ url.password = [] then [] else url.user ++ secret ++ ['@']

def portChars (url : Url) : List Char :=
  (url.port.map fun n => ':' :: Nat.toDigits 10 n).getD []

def pathChars (url : Url) : List Char :=
  url.path.flatMap ('/' :: ·)

def queryChars (url : Url) : List Char :=
  (url.query.map ('?' :: ·)).getD []

def fragmentChars (url : Url) : List Char :=
  (url.fragment.map ('#' :: ·)).getD []

def chars (url : Url) : List Char :=
  url.scheme.chars ++ [':', '/', '/'] ++ url.userChars ++ url.host.chars ++ url.portChars
    ++ url.pathChars ++ url.queryChars ++ url.fragmentChars

def text (url : Url) : String :=
  String.ofList url.chars

def target (url : Url) : String :=
  String.ofList (url.pathChars ++ url.queryChars)

end Url
end Gatekeeper
