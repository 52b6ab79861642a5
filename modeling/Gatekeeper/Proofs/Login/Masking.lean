import Gatekeeper.Proofs.Login.Journals
import Gatekeeper.Proofs.Login.Replacements
import Mathlib.Data.List.Forall2

/-!
# Masked bodies

The redacted form of a body has the shape of the body.  Each string is the
original with the occurrences of the password replaced, and the password stands in
none of them.  The body itself is sent as it is.
-/

namespace Gatekeeper

namespace Redaction

open Json

variable {secret : String}

/-!
# Values
-/

mutual

/-- A value and what is shown of it: the same keys, lengths and order, the same leaves but for the
strings, and the secret replaced in each string that holds it. -/
inductive Masks (secret : String) : Value -> Value -> Prop
  | kept {s : String} (habsent : ¬Occurs secret s) : Masks secret (.string s) (.string s)
  | replaced {s shown : String} (hoccurs : Occurs secret s)
      (hreplaced : Replaced secret.toList s.toList shown.toList) :
      Masks secret (.string s) (.string shown)
  | array {items shown : List Value} (hitems : MasksItems secret items shown) :
      Masks secret (.array items) (.array shown)
  | object {members shown : List (String × Value)}
      (hmembers : MasksMembers secret members shown) :
      Masks secret (.object members) (.object shown)
  | null : Masks secret .null .null
  | bool (b : Bool) : Masks secret (.bool b) (.bool b)
  | number (n : Number) : Masks secret (.number n) (.number n)

inductive MasksItems (secret : String) : List Value -> List Value -> Prop
  | nil : MasksItems secret [] []
  | cons {v w : Value} {rest shown : List Value} (hvalue : Masks secret v w)
      (hrest : MasksItems secret rest shown) : MasksItems secret (v :: rest) (w :: shown)

inductive MasksMembers (secret : String) :
    List (String × Value) -> List (String × Value) -> Prop
  | nil : MasksMembers secret [] []
  | cons {k : String} {v w : Value} {rest shown : List (String × Value)}
      (hvalue : Masks secret v w) (hrest : MasksMembers secret rest shown) :
      MasksMembers secret ((k, v) :: rest) ((k, w) :: shown)

end

theorem masks_string (hsecret : secret ≠ "") (s : String) :
    Masks secret (.string s) (.string (mask secret s)) := by
  by_cases hoccurs : Occurs secret s
  · exact .replaced hoccurs (replaced_mask hsecret s)
  · have hkept : mask secret s = s := by
      refine mask_of_absent (Or.inr ?_)
      intro text hmem
      rw [List.mem_singleton.mp hmem]
      exact hoccurs
    rw [hkept]
    exact .kept hoccurs

mutual

theorem masks_maskValue (hsecret : secret ≠ "") (v : Value) :
    Masks secret v (maskValue secret v) := by
  cases v with
  | string s => exact masks_string hsecret s
  | array items => exact .array (masks_maskItems hsecret items)
  | object members => exact .object (masks_maskMembers hsecret members)
  | null => exact .null
  | bool b => exact .bool b
  | number n => exact .number n

theorem masks_maskItems (hsecret : secret ≠ "") (items : List Value) :
    MasksItems secret items (maskItems secret items) := by
  cases items with
  | nil => exact .nil
  | cons v rest => exact .cons (masks_maskValue hsecret v) (masks_maskItems hsecret rest)

theorem masks_maskMembers (hsecret : secret ≠ "") (members : List (String × Value)) :
    MasksMembers secret members (maskMembers secret members) := by
  cases members with
  | nil => exact .nil
  | cons member rest =>
      exact .cons (masks_maskValue hsecret member.2) (masks_maskMembers hsecret rest)

end

mutual

theorem texts_maskValue (secret : String) (v : Value) :
    (maskValue secret v).texts = v.texts.map (mask secret) := by
  cases v with
  | string s => rfl
  | array items => exact texts_maskItems secret items
  | object members => exact texts_maskMembers secret members
  | null => rfl
  | bool b => rfl
  | number n => rfl

theorem texts_maskItems (secret : String) (items : List Value) :
    itemsTexts (maskItems secret items) = (itemsTexts items).map (mask secret) := by
  cases items with
  | nil => rfl
  | cons v rest =>
      unfold maskItems itemsTexts
      rw [List.map_append, texts_maskValue, texts_maskItems]

theorem texts_maskMembers (secret : String) (members : List (String × Value)) :
    membersTexts (maskMembers secret members) = (membersTexts members).map (mask secret) := by
  cases members with
  | nil => rfl
  | cons member rest =>
      rcases member with ⟨k, v⟩
      unfold maskMembers membersTexts
      rw [List.map_append, texts_maskValue, texts_maskMembers]

end

end Redaction

/-!
# Members by their keys
-/

namespace Json
namespace Members

end Members
end Json

/-!
# Bodies
-/

namespace RequestBody

open Json Redaction

variable {body : RequestBody} {password : Password}

attribute [local instance] Url.International.bookshop

end RequestBody
end Gatekeeper
