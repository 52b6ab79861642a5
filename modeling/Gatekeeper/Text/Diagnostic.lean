import Gatekeeper.Text.Quoted

/-!
# Diagnostic text

How values of the library show themselves in one line: records with their
fields, optional values, lists and flags.
-/

namespace Gatekeeper
namespace Diagnostic

def separated (items : List String) : String :=
  String.intercalate ", " items

def flag (b : Bool) : String :=
  if b then "true" else "false"

def list (items : List String) : String :=
  "[" ++ separated items ++ "]"

def set (items : List String) : String :=
  "\x7b" ++ separated items ++ "\x7d"

def applied (name argument : String) : String :=
  name ++ "(" ++ argument ++ ")"

def optional : Option String → String
  | none => "None"
  | some s => applied "Some" s

def quoted (s : String) : String :=
  Quoted.quote s

def quotedList (items : List String) : String :=
  list (items.map quoted)

def record (name : String) (fields : List (String × String)) : String :=
  name ++ " \x7b " ++ separated (fields.map fun field => field.1 ++ ": " ++ field.2) ++ " \x7d"

end Diagnostic
end Gatekeeper
