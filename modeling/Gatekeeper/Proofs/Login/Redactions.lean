import Gatekeeper.Proofs.Login.Bodies
import Mathlib.Data.List.Infix

/-!
# Redacted bodies

Where the password occurs in no string of the configured parameters, in the user
name or in the placeholder, the redacted body is the same for each such password:
the parameters with the user name, and the placeholder for the password.
-/

namespace Gatekeeper

/-!
# Strings of values
-/

namespace Json

mutual

def Value.texts : Value → List String
  | .string s => [s]
  | .array items => itemsTexts items
  | .object members => membersTexts members
  | .null => []
  | .bool _ => []
  | .number _ => []

def itemsTexts : List Value → List String
  | [] => []
  | v :: rest => v.texts ++ itemsTexts rest

def membersTexts : List (String × Value) → List String
  | [] => []
  | (_, v) :: rest => v.texts ++ membersTexts rest

end

namespace Members

theorem mem_texts_insert {members : List (String × Value)} {key : String} {v : Value}
    {s : String} (hmem : s ∈ membersTexts (insert key v members)) :
    s ∈ v.texts ∨ s ∈ membersTexts members := by
  induction members with
  | nil =>
      have hsplit : s ∈ v.texts ++ membersTexts [] := hmem
      exact (List.mem_append.mp hsplit).imp_right id
  | cons member rest ih =>
      rcases member with ⟨k, w⟩
      have hrest : forall s, s ∈ membersTexts rest -> s ∈ membersTexts ((k, w) :: rest) :=
        fun _ h => List.mem_append_right _ h
      unfold insert at hmem
      by_cases hless : key < k
      · rw [if_pos hless] at hmem
        exact List.mem_append.mp hmem
      · rw [if_neg hless] at hmem
        by_cases hkey : key = k
        · rw [if_pos hkey] at hmem
          exact (List.mem_append.mp hmem).imp_right (hrest s)
        · rw [if_neg hkey] at hmem
          rcases List.mem_append.mp hmem with hhead | htail
          · exact Or.inr (List.mem_append_left _ hhead)
          · exact (ih htail).imp_right (hrest s)

theorem insert_insert (members : List (String × Value)) (key : String) (v w : Value) :
    insert key w (insert key v members) = insert key w members := by
  have hirrefl : ¬key < key := String.lt_irrefl key
  induction members with
  | nil =>
      show insert key w [(key, v)] = [(key, w)]
      unfold insert
      rw [if_neg hirrefl, if_pos rfl]
  | cons member rest ih =>
      rcases member with ⟨k, u⟩
      by_cases hless : key < k
      · simp only [insert, if_pos hless, if_neg hirrefl, if_true]
      · by_cases hkey : key = k
        · simp only [insert, if_neg hless, if_pos hkey, if_neg hirrefl, if_true]
        · simp only [insert, if_neg hless, if_neg hkey, ih]

end Members

namespace Object

def texts (o : Object) : List String :=
  membersTexts o.members

theorem mem_texts_insert {o : Object} {key : String} {v : Value} {s : String}
    (hmem : s ∈ (o.insert key v).texts) : s ∈ v.texts ∨ s ∈ o.texts :=
  Members.mem_texts_insert hmem

theorem insert_insert (o : Object) (key : String) (v w : Value) :
    (o.insert key v).insert key w = o.insert key w :=
  Object.ext (Members.insert_insert o.members key v w)

end Object
end Json

/-!
# Masking
-/

namespace Redaction

open Json

def Occurs (secret text : String) : Prop :=
  secret.toList <:+: text.toList

instance (secret text : String) : Decidable (Occurs secret text) :=
  inferInstanceAs (Decidable (secret.toList <:+: text.toList))

theorem replaceFrom_of_not_infix {secret cs : List Char} (habsent : ¬secret <:+: cs) :
    replaceFrom secret 0 cs = cs := by
  induction cs with
  | nil => rfl
  | cons c rest ih =>
      have hhere : ¬secret.isPrefixOf (c :: rest) = true := by
        intro hprefix
        exact habsent (List.isPrefixOf_iff_prefix.mp hprefix).isInfix
      have hlater : ¬secret <:+: rest := by
        intro hinside
        exact habsent (hinside.trans (List.suffix_cons c rest).isInfix)
      -- Without an occurrence there is nothing to pass over, so the count stays at zero.
      unfold replaceFrom
      rw [if_neg hhere, ih hlater]

/-- The secret stands in none of the texts; an empty secret is no secret. -/
def Absent (secret : String) (texts : List String) : Prop :=
  secret = "" ∨ forall text, text ∈ texts -> ¬Occurs secret text

theorem Absent.subset {secret : String} {texts fewer : List String} (habsent : Absent secret texts)
    (hsub : forall text, text ∈ fewer -> text ∈ texts) : Absent secret fewer := by
  refine habsent.imp_right ?_
  intro hnone text hmem
  exact hnone text (hsub text hmem)

theorem Absent.left {secret : String} {texts others : List String}
    (habsent : Absent secret (texts ++ others)) : Absent secret texts :=
  habsent.subset fun _ => List.mem_append_left _

theorem Absent.right {secret : String} {texts others : List String}
    (habsent : Absent secret (texts ++ others)) : Absent secret others :=
  habsent.subset fun _ => List.mem_append_right _

theorem mask_of_absent {secret s : String} (habsent : Absent secret [s]) : mask secret s = s := by
  have hreplace : replace secret.toList s.toList = s.toList := by
    unfold replace
    rcases habsent with hempty | hnone
    · rw [hempty]
      exact if_pos rfl
    · split
      · rfl
      · exact replaceFrom_of_not_infix (hnone s (List.mem_singleton_self s))
  unfold mask
  rw [hreplace, String.ofList_toList]

mutual

theorem maskValue_of_absent {secret : String} (v : Value) (habsent : Absent secret v.texts) :
    maskValue secret v = v := by
  cases v with
  | string s => exact congrArg Value.string (mask_of_absent habsent)
  | array items => exact congrArg Value.array (maskItems_of_absent items habsent)
  | object members => exact congrArg Value.object (maskMembers_of_absent members habsent)
  | null => rfl
  | bool b => rfl
  | number n => rfl

theorem maskItems_of_absent {secret : String} (items : List Value)
    (habsent : Absent secret (itemsTexts items)) : maskItems secret items = items := by
  cases items with
  | nil => rfl
  | cons v rest =>
      have hhead := maskValue_of_absent v habsent.left
      have hrest := maskItems_of_absent rest habsent.right
      exact congrArg₂ List.cons hhead hrest

theorem maskMembers_of_absent {secret : String} (members : List (String × Value))
    (habsent : Absent secret (membersTexts members)) : maskMembers secret members = members := by
  cases members with
  | nil => rfl
  | cons member rest =>
      rcases member with ⟨k, v⟩
      have hhead := maskValue_of_absent v habsent.left
      have hrest := maskMembers_of_absent rest habsent.right
      exact congrArg₂ (fun v rest => (k, v) :: rest) hhead hrest

end

theorem maskObject_of_absent {secret : String} {o : Object} (habsent : Absent secret o.texts) :
    maskObject secret o = o :=
  Object.ext (maskMembers_of_absent o.members habsent)

end Redaction

/-!
# Bodies of the configured parameters
-/

namespace RequestBody

open Json Redaction

def shown (parameters : Object) (username : String) : Object :=
  (parameters.insert usernameKey (.string username)).insert passwordKey (.string placeholder)

/-- The password is empty, or stands in no text that goes with every login of the user. -/
def Unseen (parameters : Object) (username : String) (password : Password) : Prop :=
  Absent password.value (username :: placeholder :: parameters.texts)

theorem hidePassword_ofParameters (parameters : Object) (attempt : Attempt) :
    hidePassword (ofParameters parameters attempt).toObject =
      shown parameters attempt.username := by
  have hthere := (carries_ofParameters parameters attempt).password
  unfold hidePassword
  rw [if_pos (by rw [passwordKey, hthere]; rfl)]
  exact Object.insert_insert _ _ _ _

theorem mem_texts_shown {parameters : Object} {username s : String}
    (hmem : s ∈ (shown parameters username).texts) :
    s ∈ username :: placeholder :: parameters.texts := by
  rcases Object.mem_texts_insert hmem with hplaceholder | hmem
  · exact List.mem_cons_of_mem _ (List.mem_cons.mpr (Or.inl (List.mem_singleton.mp hplaceholder)))
  · rcases Object.mem_texts_insert hmem with husername | hmem
    · exact List.mem_cons.mpr (Or.inl (List.mem_singleton.mp husername))
    · exact List.mem_cons_of_mem _ (List.mem_cons_of_mem _ hmem)

theorem redacted_ofParameters {parameters : Object} {attempt : Attempt}
    (hunseen : Unseen parameters attempt.username attempt.password) :
    (ofParameters parameters attempt).redacted attempt.password =
      (shown parameters attempt.username).text := by
  unfold redacted redactedObject
  rw [hidePassword_ofParameters, maskObject_of_absent]
  exact hunseen.subset fun _ => mem_texts_shown

end RequestBody
end Gatekeeper
