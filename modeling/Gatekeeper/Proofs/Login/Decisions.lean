import Gatekeeper.Login.Decision
import Gatekeeper.Proofs.Json.Objects
import Gatekeeper.Proofs.Json.Zeros
import Gatekeeper.Proofs.Results
import Gatekeeper.Proofs.Url.Reading

/-!
# What an output of a hook says

An output either says no, or describes a decision part by part, or breaks the
contract, and it is read accordingly.
-/

namespace Gatekeeper
namespace Decision

open Json

/-- The scalars that reject an attempt. -/
inductive SaysNo : Value -> Prop
  | null : SaysNo .null
  | false : SaysNo (.bool false)
  | zero {n : Number} (hzero : n.value = 0) : SaysNo (.number n)
  | empty : SaysNo (.string "")

theorem isYes_eq_false_iff (output : Value) :
    isYes output = false <-> SaysNo output := by
  constructor
  · intro hno
    cases output with
    | null => exact .null
    | bool b =>
        cases b with
        | false => exact .false
        | true => cases hno
    | number n =>
        exact .zero ((Number.isZero_iff n).mp (by simpa [isYes] using hno))
    | string s =>
        have hempty : s = "" := by simpa [isYes] using hno
        rw [hempty]
        exact .empty
    | array items => cases hno
    | object members => cases hno
  · intro hno
    cases hno with
    | null => rfl
    | false => rfl
    | zero hzero => simp [isYes, (Number.isZero_iff _).mpr hzero]
    | empty => rfl

/-!
# Parts

Each part of a decision has a form of its own.
-/

def ReadsBody (v : Value) (body : RequestBody) : Prop :=
  exists members, v = .object members ∧ body.Collects members

def ReadsUrl [Url.International] (v : Value) (url : Url) : Prop :=
  exists raw, v = .string raw ∧ Url.parse raw = .ok (.web url) ∧ Url.HasScheme raw url.scheme

def ReadsApplications (v : Value) (names : List String) : Prop :=
  v = .array (names.map .string)

theorem bodyOf_eq_ok_iff (given : Option Value) (body : Option RequestBody) :
    bodyOf given = .ok body <-> Part ReadsBody given body := by
  constructor
  · intro h
    unfold bodyOf at h
    split at h <;> cases h
    · exact .absent
    · exact .null
    · exact .given ⟨_, rfl, Object.collects_ofMembers _⟩
  · intro h
    cases h with
    | absent => rfl
    | null => rfl
    | @given _ body hreads =>
        rcases hreads with ⟨members, rfl, hcollects⟩
        rcases body with ⟨o⟩
        rw [show o = Object.ofMembers members from Object.collects_iff.mp hcollects]
        rfl

section

variable [Url.International]

theorem urlOf_eq_ok_iff (given : Option Value) (url : Option Url) :
    urlOf given = .ok url <-> Part ReadsUrl given url := by
  constructor
  · intro h
    unfold urlOf at h
    split at h
    · cases h
      exact .absent
    · cases h
      exact .null
    · split at h
      · rename_i hurl
        cases h
        have hparse := Provider.webUrl_eq_ok_iff.mp hurl
        exact .given ⟨_, rfl, hparse, Url.hasScheme_of_parse hparse⟩
      · cases h
    · cases h
  · intro h
    cases h with
    | absent => rfl
    | null => rfl
    | given hreads =>
        rcases hreads with ⟨raw, rfl, hparse, _⟩
        simp only [urlOf, Provider.webUrl_eq_ok_iff.mpr hparse]

end

theorem strings_map (names : List String) :
    strings (names.map .string) = .ok names := by
  induction names with
  | nil => rfl
  | cons name rest ih =>
      rw [List.map_cons]
      unfold strings
      rw [ih]

theorem eq_map_of_strings {items : List Value} {names : List String}
    (h : strings items = .ok names) :
    items = names.map .string := by
  induction items generalizing names with
  | nil =>
      cases h
      rfl
  | cons item rest ih =>
      cases item with
      | string s =>
          unfold strings at h
          split at h
          · rename_i hrest
            cases h
            rw [ih hrest, List.map_cons]
          · cases h
      | null => cases h
      | bool b => cases h
      | number n => cases h
      | array items => cases h
      | object members => cases h

theorem applicationsOf_eq_ok_iff (given : Option Value) (names : Option (List String)) :
    applicationsOf given = .ok names <-> Part ReadsApplications given names := by
  constructor
  · intro h
    unfold applicationsOf at h
    split at h
    · cases h
      exact .absent
    · cases h
      exact .null
    · split at h
      · rename_i hnames
        cases h
        exact .given (congrArg Value.array (eq_map_of_strings hnames))
      · cases h
    · cases h
  · intro h
    cases h with
    | absent => rfl
    | null => rfl
    | given hreads =>
        rw [hreads]
        simp only [applicationsOf, strings_map]

/-!
# Decisions
-/

section

variable [Url.International]

structure Describes (members : List (String × Value)) (decision : Decision) : Prop where
  body : Part ReadsBody (members.lookup "body") decision.body
  url : Part ReadsUrl (members.lookup "url") decision.url
  applications :
    Part ReadsApplications (members.lookup "allowedApplications") decision.applications

theorem ofMembers_eq_ok_iff (members : List (String × Value)) (decision : Decision) :
    ofMembers members = .ok decision <-> Describes members decision := by
  unfold ofMembers
  simp only [except_bind_eq_ok, bodyOf_eq_ok_iff, urlOf_eq_ok_iff, applicationsOf_eq_ok_iff]
  constructor
  · rintro ⟨body, hbody, url, hurl, applications, happlications, hdecision⟩
    cases hdecision
    exact ⟨hbody, hurl, happlications⟩
  · intro h
    exact ⟨_, h.body, _, h.url, _, h.applications, rfl⟩

theorem ofOutput_eq_none_iff (output : Value) :
    ofOutput output = .ok none <-> SaysNo output := by
  rw [← isYes_eq_false_iff]
  unfold ofOutput
  cases hyes : isYes output with
  | false => simp
  | true =>
      rw [if_neg (by simp)]
      cases output with
      | object members =>
          cases hmembers : ofMembers members <;> simp [Except.map, hmembers]
      | null => simp
      | bool b => simp
      | number n => simp
      | string s => simp
      | array items => simp

theorem ofOutput_eq_some_iff (output : Value) (decision : Decision) :
    ofOutput output = .ok (some decision) <->
      exists members, output = .object members ∧ Describes members decision := by
  constructor
  · intro h
    unfold ofOutput at h
    split at h
    · cases h
    · cases output with
      | object members =>
          refine ⟨members, rfl, (ofMembers_eq_ok_iff members decision).mp ?_⟩
          cases hmembers : ofMembers members with
          | ok found =>
              simp only [hmembers, Except.map] at h
              cases h
              rfl
          | error fault =>
              simp only [hmembers, Except.map] at h
              cases h
      | null => cases h
      | bool b => cases h
      | number n => cases h
      | string s => cases h
      | array items => cases h
  · rintro ⟨members, rfl, hdescribes⟩
    unfold ofOutput
    rw [if_neg (by simp [isYes])]
    simp only [(ofMembers_eq_ok_iff members decision).mpr hdescribes]
    rfl

/-- Neither a rejection nor an object whose parts can be read. -/
def BreaksContract (output : Value) : Prop :=
  ¬ SaysNo output ∧
    forall members decision, output = .object members -> ¬ Describes members decision

theorem ofOutput_eq_error_iff (output : Value) :
    (exists fault, ofOutput output = .error fault) <-> BreaksContract output := by
  constructor
  · rintro ⟨fault, hfault⟩
    constructor
    · intro hno
      rw [(ofOutput_eq_none_iff output).mpr hno] at hfault
      cases hfault
    · intro members decision houtput hdescribes
      rw [(ofOutput_eq_some_iff output decision).mpr ⟨members, houtput, hdescribes⟩] at hfault
      cases hfault
  · rintro ⟨hyes, hundescribed⟩
    cases hread : ofOutput output with
    | error fault => exact ⟨fault, rfl⟩
    | ok found =>
        cases found with
        | none => exact absurd ((ofOutput_eq_none_iff output).mp hread) hyes
        | some decision =>
            rcases (ofOutput_eq_some_iff output decision).mp hread with
              ⟨members, houtput, hdescribes⟩
            exact absurd hdescribes (hundescribed members decision houtput)

end

end Decision
end Gatekeeper
