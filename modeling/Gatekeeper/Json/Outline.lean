import Gatekeeper.Json.Object
import Gatekeeper.Text.Diagnostic

/-!
# Outlines of values

Diagnostic text of a value, in which every value names its kind.
-/

namespace Gatekeeper
namespace Json

mutual

def Value.outline : Value → String
  | .null => "Null"
  | .bool b => Diagnostic.applied "Bool" (Diagnostic.flag b)
  | .number n => Diagnostic.applied "Number" n.text
  | .string s => Diagnostic.applied "String" (Diagnostic.quoted s)
  | .array items => "Array " ++ Diagnostic.list (itemOutlines items)
  | .object members => "Object " ++ Diagnostic.set (memberOutlines members)

def itemOutlines : List Value → List String
  | [] => []
  | v :: rest => v.outline :: itemOutlines rest

def memberOutlines : List (String × Value) → List String
  | [] => []
  | (k, v) :: rest => (Diagnostic.quoted k ++ ": " ++ v.outline) :: memberOutlines rest

end

def Object.outline (o : Object) : String :=
  Diagnostic.set (memberOutlines o.members)

end Json
end Gatekeeper
