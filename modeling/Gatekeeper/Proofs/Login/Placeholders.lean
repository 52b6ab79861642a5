import Gatekeeper.Proofs.Login.Replacements
import Mathlib.Data.List.Dedup

/-!
# What stands for the password

The member named as the password is replaced by the placeholder before the
password is taken out of all strings, the placeholder among them.  A password
that is a piece of the placeholder therefore alters it, and what is shown then
tells which piece it is.
-/

namespace Gatekeeper

namespace Redaction

variable {secret other : String}

/-- A secret that is a piece of the placeholder, and neither nothing nor all of it. -/
structure Alters (secret : String) : Prop where
  nonempty : secret ≠ ""
  proper : secret ≠ placeholder
  inside : Occurs secret placeholder

theorem mask_self (hsecret : secret ≠ "") : mask secret secret = placeholder := by
  have hne : secret.toList ≠ [] := mt String.toList_eq_nil_iff.mp hsecret
  have hreplaced := replaceFrom_append hne []
  rw [List.append_nil, replaceFrom, List.append_nil] at hreplaced
  unfold mask replace
  rw [if_neg hne, hreplaced, String.ofList_toList]

theorem Alters.length_lt (halters : Alters secret) : secret.length < placeholder.length := by
  have hle := halters.inside.length_le
  rw [String.length_toList, String.length_toList] at hle
  refine Nat.lt_of_le_of_ne hle ?_
  intro hlength
  refine halters.proper (String.toList_inj.mp (halters.inside.eq_of_length ?_))
  rw [String.length_toList, String.length_toList, hlength]

theorem Alters.mask_ne (halters : Alters secret) : mask secret placeholder ≠ placeholder := by
  intro heq
  have hlonger := (replaced_mask halters.nonempty placeholder).length_lt
    (by rw [String.length_toList]; exact halters.length_lt) halters.inside
  rw [heq] at hlonger
  exact Nat.lt_irrefl _ hlonger

theorem mask_placeholder_eq_iff (secret : String) :
    mask secret placeholder = placeholder <-> ¬Alters secret := by
  constructor
  · intro heq halters
    exact halters.mask_ne heq
  · intro hsafe
    by_cases hall : secret = placeholder
    · rw [hall]
      exact mask_self (by decide)
    · refine mask_of_absent ?_
      by_cases hempty : secret = ""
      · exact Or.inl hempty
      · refine Or.inr fun text hmem hinside => hsafe ⟨hempty, hall, ?_⟩
        exact List.mem_singleton.mp hmem ▸ hinside

def alterations : List (List Char) :=
  (placeholder.toList.tails.flatMap List.inits).dedup.filter fun piece =>
    replace piece placeholder.toList ≠ placeholder.toList

theorem nodup_alterations :
    (alterations.map fun piece => replace piece placeholder.toList).Nodup := by
  decide +kernel

theorem Alters.mem_alterations (halters : Alters secret) : secret.toList ∈ alterations := by
  have hpiece : secret.toList ∈ placeholder.toList.tails.flatMap List.inits := by
    rcases List.infix_iff_prefix_suffix.mp halters.inside with ⟨tail, hprefix, hsuffix⟩
    exact List.mem_flatMap.mpr
      ⟨tail, (List.mem_tails _ _).mpr hsuffix, (List.mem_inits _ _).mpr hprefix⟩
  have hchanged : replace secret.toList placeholder.toList ≠ placeholder.toList := by
    intro heq
    refine halters.mask_ne ?_
    unfold mask
    rw [heq, String.ofList_toList]
  exact List.mem_filter.mpr ⟨List.mem_dedup.mpr hpiece, decide_eq_true hchanged⟩

theorem Alters.eq_of_mask_eq (halters : Alters secret) (hother : Alters other)
    (heq : mask secret placeholder = mask other placeholder) : secret = other := by
  have hreplaced := String.ofList_injective heq
  exact String.toList_inj.mp (List.inj_on_of_nodup_map nodup_alterations
    halters.mem_alterations hother.mem_alterations hreplaced)

theorem mask_placeholder_eq_mask_iff (secret other : String) :
    mask secret placeholder = mask other placeholder <->
      secret = other ∨ ¬Alters secret ∧ ¬Alters other := by
  constructor
  · intro heq
    by_cases halters : Alters secret
    · refine Or.inl (halters.eq_of_mask_eq ?_ heq)
      by_contra hsafe
      rw [(mask_placeholder_eq_iff other).mpr hsafe] at heq
      exact halters.mask_ne heq
    · refine Or.inr ⟨halters, ?_⟩
      rw [← mask_placeholder_eq_iff, ← heq, mask_placeholder_eq_iff]
      exact halters
  · rintro (rfl | ⟨hsecret, hother⟩)
    · rfl
    · rw [(mask_placeholder_eq_iff secret).mpr hsecret, (mask_placeholder_eq_iff other).mpr hother]

theorem lookup_maskMembers (secret : String) (members : List (String × Json.Value))
    (key : String) :
    (maskMembers secret members).lookup key = (members.lookup key).map (maskValue secret) := by
  induction members with
  | nil => rfl
  | cons member rest ih =>
      rcases member with ⟨k, v⟩
      unfold maskMembers
      rw [Json.Members.lookup_cons, Json.Members.lookup_cons, ih]
      by_cases hkey : key = k
      · rw [if_pos hkey, if_pos hkey]
        rfl
      · rw [if_neg hkey, if_neg hkey]

end Redaction

namespace RequestBody

open Json Redaction

variable {body : RequestBody} {v : Value}

theorem get?_redactedObject (hmember : body.get? "password" = some v) (password : Password) :
    (body.redactedObject password).get? "password" =
      some (.string (mask password.value placeholder)) := by
  have hhidden : (hidePassword body.toObject).members.lookup "password" =
      some (.string placeholder) := by
    unfold hidePassword
    rw [passwordKey, hmember, Option.isSome_some, if_pos rfl]
    exact Object.get?_insert_self _ _ _
  show (maskMembers _ _).lookup _ = _
  rw [lookup_maskMembers, hhidden]
  rfl

/-- In the redacted form of a body the member that is named as the password is the placeholder
exactly for the passwords that do not alter it.  All of these show the same there, and each
password that alters the placeholder shows what no other password does. -/
theorem passwordMember_tells_piece (body : RequestBody) (password other : Password) (v : Value)
    (hmember : body.get? "password" = some v) :
    body.redacted password = (body.redactedObject password).text ∧
      (body.redactedObject password).get? "password" =
        some (.string (mask password.value placeholder)) ∧
      ((body.redactedObject password).get? "password" = some (.string placeholder) <->
        ¬Alters password.value) ∧
      ((body.redactedObject password).get? "password" =
          (body.redactedObject other).get? "password" <->
        password = other ∨ ¬Alters password.value ∧ ¬Alters other.value) := by
  have hpassword := get?_redactedObject hmember password
  have hother := get?_redactedObject hmember other
  refine ⟨rfl, hpassword, ?_, ?_⟩
  · rw [hpassword, Option.some.injEq, Value.string.injEq]
    exact mask_placeholder_eq_iff password.value
  · rw [hpassword, hother, Option.some.injEq, Value.string.injEq, mask_placeholder_eq_mask_iff]
    cases password
    cases other
    rw [Password.mk.injEq]

/-!
Two passwords of one letter; what is shown for the one tells it from the other.
-/

def letterBody : RequestBody :=
  ⟨Object.empty.insert "password" (.string "x")⟩

theorem passwordMember_tells_piece_letter :
    letterBody.get? "password" = some (.string "x") ∧
      letterBody.redacted ⟨"T"⟩ = "\x7b\"password\":\"*REDAC*REDACTED*ED*\"\x7d" ∧
      ¬(letterBody.redactedObject ⟨"T"⟩).get? "password" =
        (letterBody.redactedObject ⟨"x"⟩).get? "password" := by
  refine ⟨rfl, by decide +kernel, ?_⟩
  intro hsame
  have htells := passwordMember_tells_piece letterBody ⟨"T"⟩ ⟨"x"⟩ _ rfl
  rcases htells.right.right.right.mp hsame with h | h
  · exact absurd (congrArg Password.value h) (by decide)
  · exact h.left ⟨by decide, by decide, by decide⟩

end RequestBody
end Gatekeeper
