import Gatekeeper.Url.Basic

/-!
# Reading addresses

Addresses are read as browsers read them: blanks around them and line breaks
inside them do not count, either slash separates, and dot segments are resolved.
Addresses of schemes other than the two of the web are checked for a well-formed
authority and not kept.
-/

namespace Gatekeeper
namespace Url

inductive Address where
  | web (url : Url)
  | other
deriving DecidableEq, Repr

/-!
# Cleaning
-/

def isEdge (c : Char) : Bool :=
  c.toNat ≤ 0x20

def isIgnored (c : Char) : Bool :=
  c = '\t' || c = '\n' || c = '\r'

def trimEdges (cs : List Char) : List Char :=
  ((cs.dropWhile isEdge).reverse.dropWhile isEdge).reverse

def clean (cs : List Char) : List Char :=
  (trimEdges cs).filter fun c => !isIgnored c

/-!
# Schemes
-/

def isSchemeChar (c : Char) : Bool :=
  isLetter c || isDigit c || c = '+' || c = '-' || c = '.'

def scheme? (cs : List Char) : Option (List Char × List Char) :=
  let name := cs.takeWhile isSchemeChar
  match cs.dropWhile isSchemeChar with
  | ':' :: rest => if name.head?.any isLetter then some (name.map Ascii.lower, rest) else none
  | _ => none

inductive Manner where
  | web (scheme : Scheme)
  | weblike
  | file
  | opaqueHost
deriving DecidableEq, Repr

def Manner.of (scheme : List Char) : Manner :=
  let name := String.ofList scheme
  if name = "http" then .web .http
  else if name = "https" then .web .https
  else if name = "ws" ∨ name = "wss" ∨ name = "ftp" then .weblike
  else if name = "file" then .file
  else .opaqueHost

def isSlash (c : Char) : Bool :=
  c = '/' || c = '\\'

def endsAuthority (special : Bool) (c : Char) : Bool :=
  c = '/' || c = '?' || c = '#' || (special && c = '\\')

/-!
# Authorities
-/

def splitUser : List Char → Option (List Char × List Char)
  | [] => none
  | c :: rest =>
    match splitUser rest with
    | some (before, after) => some (c :: before, after)
    | none => if c = '@' then some ([], rest) else none

structure Credentials where
  user : List Char
  password : List Char
deriving DecidableEq, Repr

def Credentials.isEmpty (c : Credentials) : Bool :=
  c.user = [] && c.password = []

def credentials (cs : List Char) : Credentials :=
  ⟨encode CharSet.userInfo (cs.takeWhile (· ≠ ':')),
    encode CharSet.userInfo ((cs.dropWhile (· ≠ ':')).drop 1)⟩

def splitPort : (bracket : Bool) → List Char → List Char × List Char
  | _, [] => ([], [])
  | bracket, c :: rest =>
    if c = ':' ∧ !bracket then ([], c :: rest)
    else
      let inside := if c = '[' then true else if c = ']' then false else bracket
      let (host, port) := splitPort inside rest
      (c :: host, port)

/-- A port after its colon.  A backslash may end it where backslashes do not separate. -/
def readPort (cs : List Char) : Except Fault (Option Nat) :=
  let digits := cs.takeWhile isDigit
  match cs.dropWhile isDigit, numberFrom 10 0 digits with
  | c :: _, some n =>
    if c = '\\' ∧ n ≤ 65535 then .ok (if digits = [] then none else some n)
    else .error .invalidPort
  | [], some n =>
    if n ≤ 65535 then .ok (if digits = [] then none else some n) else .error .invalidPort
  | _, none => .error .invalidPort

def portOf : List Char → Except Fault (Option Nat)
  | [] => .ok none
  | _ :: rest => readPort rest

def splitAuthority (authority after : List Char) :
    Except Fault (Credentials × List Char) :=
  match splitUser authority with
  | none => .ok (⟨[], []⟩, authority)
  | some ([], rest) => if rest = [] ∧ after ≠ [] then .error .emptyHost else .ok (⟨[], []⟩, rest)
  | some (user, rest) => .ok (credentials user, rest)

structure Authority where
  credentials : Credentials
  host : Host
  port : Option Nat

def authority [International] (cs after : List Char) : Except Fault Authority := do
  let (credentials, rest) ← splitAuthority cs after
  let (hostText, portText) := splitPort false rest
  if hostText = [] then throw .emptyHost
  let host ← Host.read hostText
  let port ← portOf portText
  pure ⟨credentials, host, port⟩

def checkOpaqueAuthority (cs after : List Char) : Except Fault Unit := do
  let (credentials, rest) ← splitAuthority cs after
  let (hostText, portText) := splitPort false rest
  Host.checkOpaque hostText
  if hostText = [] ∧ portText ≠ [] then throw .emptyHost
  let _ ← portOf portText
  if hostText = [] ∧ !credentials.isEmpty then throw .emptyHost

/-!
# Paths
-/

def isDriveLetter : List Char → Bool
  | [c, mark] => isLetter c && (mark = ':' || mark = '|')
  | _ => false

def isDot (segment : List Char) : Bool :=
  segment.map Ascii.lower ∈ [['.'], ['%', '2', 'e']]

def isDoubleDot (segment : List Char) : Bool :=
  segment.map Ascii.lower ∈
    [['.', '.'], ['.', '%', '2', 'e'], ['%', '2', 'e', '.'], ['%', '2', 'e', '%', '2', 'e']]

/-- Goes up one segment; a drive letter stays.  The last segment comes first. -/
def goUp : List (List Char) → List (List Char)
  | [] => []
  | segment :: above => if isDriveLetter segment then segment :: above else above

/-- Resolves dot segments against the segments already read, of which the last comes first.  A dot
segment at the end leaves an empty one. -/
def resolve : List (List Char) → List (List Char) → List (List Char)
  | done, [] => done.reverse
  | done, segment :: rest =>
    let isLast := rest.isEmpty
    if isDoubleDot segment then
      let above := goUp done
      resolve (if isLast then [] :: above else above) rest
    else if isDot segment then resolve (if isLast then [] :: done else done) rest
    else resolve (encode CharSet.path segment :: done) rest

def segments (cs : List Char) : List (List Char) :=
  match cs with
  | c :: rest => resolve [] (splitBy isSlash (if isSlash c then rest else c :: rest))
  | [] => [[]]

/-!
# Whole addresses
-/

structure Tail where
  path : List (List Char)
  query : Option (List Char)
  fragment : Option (List Char)

def tail (cs : List Char) : Tail :=
  let beforeFragment := cs.takeWhile (· ≠ '#')
  let fragment := cs.dropWhile (· ≠ '#')
  let query := beforeFragment.dropWhile (· ≠ '?')
  { path := segments (beforeFragment.takeWhile (· ≠ '?'))
    query := if query = [] then none else some (encode CharSet.query (query.drop 1))
    fragment := if fragment = [] then none else some (encode CharSet.fragment (fragment.drop 1)) }

def splitTail (special : Bool) (cs : List Char) : List Char × List Char :=
  (cs.takeWhile fun c => !endsAuthority special c, cs.dropWhile fun c => !endsAuthority special c)

def usualPort (scheme : Scheme) (port : Option Nat) : Option Nat :=
  if port = some scheme.port then none else port

def ofParts (scheme : Scheme) (authority : Authority) (tail : Tail) : Url where
  scheme := scheme
  user := authority.credentials.user
  password := authority.credentials.password
  host := authority.host
  port := usualPort scheme authority.port
  path := tail.path
  query := tail.query
  fragment := tail.fragment

/-- The host of a file address stands between two slashes and the next one, unless a drive letter
stands there. -/
def checkFile [International] (cs : List Char) : Except Fault Unit :=
  match cs with
  | a :: b :: rest =>
    let host := (splitTail true rest).1
    if isSlash a && isSlash b && host ≠ [] && !isDriveLetter host then
      (Host.read host).map fun _ => ()
    else .ok ()
  | _ => .ok ()

def parseChars [International] (cs : List Char) : Except Fault Address :=
  match scheme? cs with
  | none => .error .relative
  | some (name, rest) =>
    match Manner.of name with
    | .web scheme => do
      let (front, after) := splitTail true (rest.dropWhile isSlash)
      let authority ← authority front after
      pure (.web (ofParts scheme authority (tail after)))
    | .weblike => do
      let (front, after) := splitTail true (rest.dropWhile isSlash)
      let _ ← authority front after
      pure .other
    | .file => (checkFile rest).map fun _ => .other
    | .opaqueHost =>
      match rest with
      | '/' :: '/' :: rest => do
        let (front, after) := splitTail false rest
        checkOpaqueAuthority front after
        pure .other
      | _ => .ok .other

def parse [International] (s : String) : Except Fault Address :=
  parseChars (clean s.toList)

end Url
end Gatekeeper
