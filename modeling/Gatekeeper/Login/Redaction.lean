import Gatekeeper.Json.Object

/-!
# Redaction

Taking a secret out of a value: each occurrence of it in a string, at any depth,
is replaced by a placeholder.  Keys stay as they are.
-/

namespace Gatekeeper
namespace Redaction

def placeholder : String := "*REDACTED*"

/-- Replaces the occurrences of `secret` from left to right, as far as they do not overlap.  The
first `skip` characters belong to the occurrence before them. -/
def replaceFrom (secret : List Char) : (skip : Nat) → List Char → List Char
  | _, [] => []
  | skip + 1, _ :: rest => replaceFrom secret skip rest
  | 0, c :: rest =>
    if secret.isPrefixOf (c :: rest) then
      placeholder.toList ++ replaceFrom secret (secret.length - 1) rest
    else c :: replaceFrom secret 0 rest

def replace (secret cs : List Char) : List Char :=
  if secret = [] then cs else replaceFrom secret 0 cs

def mask (secret : String) (s : String) : String :=
  String.ofList (replace secret.toList s.toList)

mutual

def maskValue (secret : String) : Json.Value → Json.Value
  | .string s => .string (mask secret s)
  | .array items => .array (maskItems secret items)
  | .object members => .object (maskMembers secret members)
  | .null => .null
  | .bool b => .bool b
  | .number n => .number n

def maskItems (secret : String) : List Json.Value → List Json.Value
  | [] => []
  | v :: rest => maskValue secret v :: maskItems secret rest

def maskMembers (secret : String) : List (String × Json.Value) → List (String × Json.Value)
  | [] => []
  | (k, v) :: rest => (k, maskValue secret v) :: maskMembers secret rest

end

theorem keys_maskMembers (secret : String) (members : List (String × Json.Value)) :
    (maskMembers secret members).map Prod.fst = members.map Prod.fst := by
  induction members with
  | nil => rfl
  | cons member rest ih => rw [maskMembers, List.map_cons, List.map_cons, ih]

theorem ascending_maskMembers (secret : String) {members : List (String × Json.Value)}
    (hascending : Json.Members.Ascending members) :
    Json.Members.Ascending (maskMembers secret members) := by
  have hkeys := List.pairwise_map.mpr hascending
  rw [← keys_maskMembers secret] at hkeys
  exact List.pairwise_map.mp hkeys

def maskObject (secret : String) (o : Json.Object) : Json.Object :=
  ⟨maskMembers secret o.members, ascending_maskMembers secret o.ascending⟩

end Redaction
end Gatekeeper
