import Gatekeeper.Json.Number

/-!
# Values of a document

An object of a value lists its members as they are written.
-/

namespace Gatekeeper
namespace Json

inductive Value where
  | null
  | bool (b : Bool)
  | number (n : Number)
  | string (s : String)
  | array (items : List Value)
  | object (members : List (String × Value))
deriving Inhabited, Repr

namespace Value

def kind : Value → String
  | .null => "null"
  | .bool _ => "boolean"
  | .number _ => "number"
  | .string _ => "string"
  | .array _ => "array"
  | .object _ => "object"

def asString? : Value → Option String
  | .string s => some s
  | _ => none

end Value
end Json
end Gatekeeper
