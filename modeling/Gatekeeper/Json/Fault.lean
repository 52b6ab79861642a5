import Gatekeeper.Json.Number
import Gatekeeper.Text.Diagnostic

/-!
# Faults of documents

Why a document is refused, and where.  A fault is of one of three categories:
the document ends too early, it is not well formed, or it is well formed and
holds something else than was asked for.
-/

namespace Gatekeeper
namespace Json

inductive Found where
  | null
  | bool (b : Bool)
  | number (n : Number)
  | string (s : String)
  | sequence
  | map
deriving DecidableEq, Repr

def Found.text : Found → String
  | .null => "null"
  | .bool b => "boolean `" ++ Diagnostic.flag b ++ "`"
  | .number (.integer n) => "integer `" ++ (Number.integer n).text ++ "`"
  | .number (.float x) => "floating point `" ++ (Number.float x).text ++ "`"
  | .string s => "string " ++ Diagnostic.quoted s
  | .sequence => "sequence"
  | .map => "map"

inductive Category where
  | early
  | malformed
  | mismatch
deriving DecidableEq, Repr

inductive Fault where
  | endInValue
  | endInObject
  | endInList
  | endInString
  | expectedValue
  | expectedIdent
  | expectedColon
  | expectedObjectEnd
  | expectedListEnd
  | keyNotString
  | trailingComma
  | trailingCharacters
  | invalidNumber
  | numberOutOfRange
  | invalidEscape
  | loneSurrogate
  | unpairedSurrogate
  | invalidText
  | controlCharacter
  | tooDeep
  | wrongType (found : Found) (expected : String)
  | outOfRange (n : Int) (expected : String)
  | wrongLength (length : Nat) (expected : String)
  | missingField (name : String)
  | duplicateField (name : String)
  | unknownName (name : String) (known : List String)
  | notOneKey
  | noVariant
deriving DecidableEq, Repr

namespace Fault

def category : Fault → Category
  | .endInValue | .endInObject | .endInList | .endInString => .early
  | .wrongType .. | .outOfRange .. | .wrongLength .. | .missingField _ | .duplicateField _
  | .unknownName .. | .notOneKey | .noVariant => .mismatch
  | _ => .malformed

def backquoted (s : String) : String :=
  "`" ++ s ++ "`"

def message : Fault → String
  | .endInValue => "EOF while parsing a value"
  | .endInObject => "EOF while parsing an object"
  | .endInList => "EOF while parsing a list"
  | .endInString => "EOF while parsing a string"
  | .expectedValue => "expected value"
  | .expectedIdent => "expected ident"
  | .expectedColon => "expected `:`"
  | .expectedObjectEnd => "expected `,` or `\x7d`"
  | .expectedListEnd => "expected `,` or `]`"
  | .keyNotString => "key must be a string"
  | .trailingComma => "trailing comma"
  | .trailingCharacters => "trailing characters"
  | .invalidNumber => "invalid number"
  | .numberOutOfRange => "number out of range"
  | .invalidEscape => "invalid escape"
  | .loneSurrogate => "lone leading surrogate in hex escape"
  | .unpairedSurrogate => "unexpected end of hex escape"
  | .invalidText => "invalid unicode code point"
  | .controlCharacter => "control character (\\u0000-\\u001F) found while parsing a string"
  | .tooDeep => "recursion limit exceeded"
  | .wrongType found expected => "invalid type: " ++ found.text ++ ", expected " ++ expected
  | .outOfRange n expected =>
    "invalid value: integer " ++ backquoted (Number.integer n).text ++ ", expected " ++ expected
  | .wrongLength length expected =>
    "invalid length " ++ toString length ++ ", expected " ++ expected
  | .missingField name => "missing field " ++ backquoted name
  | .duplicateField name => "duplicate field " ++ backquoted name
  | .unknownName name known =>
    "unknown variant " ++ backquoted name ++ ", expected one of "
      ++ Diagnostic.separated (known.map backquoted)
  | .notOneKey => "invalid value: map, expected map with a single key"
  | .noVariant => "data did not match any variant of untagged enum AlgorithmParameters"

end Fault

/-!
# Places
-/

/-- One step from a container to what it holds; while a key is looked for, there is no name yet. -/
inductive Step where
  | key (name : String)
  | index (i : Nat)
  | unnamed
deriving DecidableEq, Repr

abbrev Path := List Step

namespace Path

def stepsText : (isFirst : Bool) → Path → String
  | _, [] => ""
  | _, .index i :: rest => "[" ++ toString i ++ "]" ++ stepsText false rest
  | isFirst, .key name :: rest => (if isFirst then "" else ".") ++ name ++ stepsText false rest
  | isFirst, .unnamed :: rest => (if isFirst then "" else ".") ++ "?" ++ stepsText false rest

def text (path : Path) : String :=
  if path.isEmpty then "." else stepsText true path

def isUnnamed (path : Path) : Bool :=
  path.all (· = .unnamed)

end Path

structure Failure where
  path : Path
  fault : Fault
deriving DecidableEq, Repr

namespace Failure

def here (fault : Fault) : Failure := ⟨[], fault⟩

def within (step : Step) (failure : Failure) : Failure :=
  { failure with path := step :: failure.path }

def message (failure : Failure) : String :=
  if failure.path.isUnnamed then failure.fault.message
  else failure.path.text ++ ": " ++ failure.fault.message

end Failure

end Json
end Gatekeeper
