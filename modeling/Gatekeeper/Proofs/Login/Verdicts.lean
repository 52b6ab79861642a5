import Gatekeeper.Proofs.Json.Zeros
import Gatekeeper.Proofs.Login.Decisions

/-!
# What becomes of each output of a hook

Every output of a hook gets one answer: the attempt is rejected, the output is no
object, it describes a decision, or the first part of it that cannot be read is
named.  Members that are not parts of a decision do not count.
-/

namespace Gatekeeper
namespace Decision

open Json

/-- What an output is that neither says no nor is an object, by its name in JSON. -/
inductive IsOther : Value -> String -> Prop
  | boolean : IsOther (.bool true) "boolean"
  | number {n : Number} (hzero : n.value ≠ 0) : IsOther (.number n) "number"
  | string {s : String} (hempty : s ≠ "") : IsOther (.string s) "string"
  | array {items : List Value} : IsOther (.array items) "array"

theorem saysNo_or_isOther_or_object (output : Value) :
    SaysNo output ∨ (exists kind, IsOther output kind) ∨
      exists members, output = .object members := by
  cases output with
  | null => exact Or.inl .null
  | bool b =>
      cases b with
      | false => exact Or.inl .false
      | true => exact Or.inr (Or.inl ⟨_, .boolean⟩)
  | number n =>
      by_cases hzero : n.value = 0
      · exact Or.inl (.zero hzero)
      · exact Or.inr (Or.inl ⟨_, .number hzero⟩)
  | string s =>
      by_cases hempty : s = ""
      · rw [hempty]
        exact Or.inl .empty
      · exact Or.inr (Or.inl ⟨_, .string hempty⟩)
  | array items => exact Or.inr (Or.inl ⟨_, .array⟩)
  | object members => exact Or.inr (Or.inr ⟨members, rfl⟩)

/-!
# Parts that cannot be read
-/

def Fits (Reads : Value -> α -> Prop) (given : Option Value) : Prop :=
  exists found, Part Reads given found

inductive OffendsBody : Option Value -> HookFault -> Prop
  | kind {v : Value} (hnull : v ≠ .null) (hkind : forall members, v ≠ .object members) :
      OffendsBody (some v) (.invalidField "body" "an object")

/-- Neither the address of something that is no text, nor a text that is no address, nor an address
with a scheme other than the two of the web. -/
inductive OffendsUrl [Url.International] : Option Value -> HookFault -> Prop
  | kind {v : Value} (hnull : v ≠ .null) (hkind : forall raw, v ≠ .string raw) :
      OffendsUrl (some v) (.invalidField "url" "a string")
  | unparsed {raw : String} {cause : Url.Fault} (hparse : Url.parse raw = .error cause) :
      OffendsUrl (some (.string raw)) (.invalidUrl (.invalidUrl raw cause))
  | scheme {raw : String} (hparse : Url.parse raw = .ok .other)
      (hscheme : forall scheme, ¬Url.HasScheme raw scheme) :
      OffendsUrl (some (.string raw)) (.invalidUrl (.unsupportedScheme raw))

inductive OffendsApplications : Option Value -> HookFault -> Prop
  | kind {v : Value} (hnull : v ≠ .null)
      (hkind : forall names : List String, v ≠ .array (names.map .string)) :
      OffendsApplications (some v) (.invalidField "allowedApplications" "an array of strings")

/-- The fault of the first part that cannot be read, in the order of body, address and
applications. -/
inductive FirstOffence [Url.International] (members : List (String × Value)) : HookFault -> Prop
  | body {fault : HookFault} (hoffends : OffendsBody (members.lookup "body") fault) :
      FirstOffence members fault
  | url {fault : HookFault} (hbody : Fits ReadsBody (members.lookup "body"))
      (hoffends : OffendsUrl (members.lookup "url") fault) : FirstOffence members fault
  | applications {fault : HookFault} (hbody : Fits ReadsBody (members.lookup "body"))
      (hurl : Fits ReadsUrl (members.lookup "url"))
      (hoffends : OffendsApplications (members.lookup "allowedApplications") fault) :
      FirstOffence members fault

theorem FirstOffence.ne_notAnObject [Url.International] {members : List (String × Value)}
    {fault : HookFault} (hoffence : FirstOffence members fault) (kind : String) :
    fault ≠ .notAnObject kind := by
  intro heq
  subst heq
  cases hoffence with
  | body hoffends =>
      generalize members.lookup "body" = given at hoffends
      cases hoffends
  | url hbody hoffends =>
      generalize members.lookup "url" = given at hoffends
      cases hoffends
  | applications hbody hurl hoffends =>
      generalize members.lookup "allowedApplications" = given at hoffends
      cases hoffends

theorem bodyOf_eq_error_iff (given : Option Value) (fault : HookFault) :
    bodyOf given = .error fault <-> OffendsBody given fault := by
  constructor
  · intro h
    unfold bodyOf at h
    split at h <;> cases h
    rename_i v hnull hobject
    exact .kind hnull hobject
  · intro h
    cases h with
    | @kind v hnull hkind =>
        cases v with
        | null => exact absurd rfl hnull
        | object members => exact absurd rfl (hkind members)
        | bool b => rfl
        | number n => rfl
        | string s => rfl
        | array items => rfl

theorem urlOf_eq_error_iff [Url.International] (given : Option Value) (fault : HookFault) :
    urlOf given = .error fault <-> OffendsUrl given fault := by
  constructor
  · intro h
    unfold urlOf at h
    split at h
    · cases h
    · cases h
    · split at h
      · cases h
      · rename_i hurl
        cases h
        rcases Provider.webUrl_eq_error_iff.mp hurl with ⟨cause, hparse, rfl⟩ | ⟨hparse, rfl⟩
        · exact .unparsed hparse
        · exact .scheme hparse (Url.not_hasScheme_of_parse hparse)
    · rename_i v hnull hstring
      cases h
      exact .kind hnull hstring
  · intro h
    cases h with
    | @kind v hnull hkind =>
        cases v with
        | null => exact absurd rfl hnull
        | string raw => exact absurd rfl (hkind raw)
        | bool b => rfl
        | number n => rfl
        | array items => rfl
        | object members => rfl
    | unparsed hparse =>
        simp only [urlOf, Provider.webUrl_eq_error_iff.mpr (Or.inl ⟨_, hparse, rfl⟩)]
    | scheme hparse =>
        simp only [urlOf, Provider.webUrl_eq_error_iff.mpr (Or.inr ⟨hparse, rfl⟩)]

theorem strings_eq_error_iff (items : List Value) (fault : HookFault) :
    strings items = .error fault <->
      fault = invalidApplications ∧ forall names : List String, items ≠ names.map .string := by
  cases hread : strings items with
  | ok names =>
      constructor
      · intro h
        cases h
      · intro h
        exact absurd (eq_map_of_strings hread) (h.right names)
  | error found =>
      have hfound : found = invalidApplications := by
        induction items with
        | nil => cases hread
        | cons item rest ih =>
            cases item with
            | string s =>
                unfold strings at hread
                split at hread
                · cases hread
                · rename_i hrest
                  cases hread
                  exact ih hrest
            | null => exact (Except.error.inj hread).symm
            | bool b => exact (Except.error.inj hread).symm
            | number n => exact (Except.error.inj hread).symm
            | array items => exact (Except.error.inj hread).symm
            | object members => exact (Except.error.inj hread).symm
      constructor
      · intro h
        refine ⟨(Except.error.inj h).symm.trans hfound, ?_⟩
        intro names heq
        rw [heq, strings_map] at hread
        cases hread
      · intro h
        rw [hfound, h.left]

theorem applicationsOf_eq_error_iff (given : Option Value) (fault : HookFault) :
    applicationsOf given = .error fault <-> OffendsApplications given fault := by
  constructor
  · intro h
    unfold applicationsOf at h
    split at h
    · cases h
    · cases h
    · rename_i items
      split at h
      · cases h
      · rename_i hread
        cases h
        rcases (strings_eq_error_iff items _).mp hread with ⟨rfl, hnames⟩
        exact .kind (by simp) fun names heq => hnames names (Value.array.inj heq)
    · rename_i v hnull harray
      cases h
      exact .kind hnull fun names => harray _
  · intro h
    cases h with
    | @kind v hnull hkind =>
        cases v with
        | null => exact absurd rfl hnull
        | array items =>
            have hread := (strings_eq_error_iff items _).mpr
              ⟨rfl, fun names heq => hkind names (congrArg Value.array heq)⟩
            simp only [applicationsOf, hread]
            rfl
        | bool b => rfl
        | number n => rfl
        | string s => rfl
        | object members => rfl

/-!
# Outputs
-/

section

variable [Url.International]

theorem exists_describes_iff (members : List (String × Value)) :
    (exists decision, Describes members decision) <->
      Fits ReadsBody (members.lookup "body") ∧ Fits ReadsUrl (members.lookup "url") ∧
        Fits ReadsApplications (members.lookup "allowedApplications") := by
  constructor
  · rintro ⟨decision, hdescribes⟩
    exact ⟨⟨_, hdescribes.body⟩, ⟨_, hdescribes.url⟩, ⟨_, hdescribes.applications⟩⟩
  · rintro ⟨⟨body, hbody⟩, ⟨url, hurl⟩, ⟨applications, happlications⟩⟩
    exact ⟨⟨body, url, applications⟩, hbody, hurl, happlications⟩

theorem ofMembers_eq_error_iff (members : List (String × Value)) (fault : HookFault) :
    ofMembers members = .error fault <-> FirstOffence members fault := by
  unfold ofMembers
  simp only [except_bind_eq_error, bodyOf_eq_error_iff, bodyOf_eq_ok_iff, urlOf_eq_error_iff,
    urlOf_eq_ok_iff, applicationsOf_eq_error_iff, applicationsOf_eq_ok_iff]
  constructor
  · rintro (hbody | ⟨body, hbody, hurl | ⟨url, hurl, happlications | ⟨_, _, hpure⟩⟩⟩)
    · exact .body hbody
    · exact .url ⟨body, hbody⟩ hurl
    · exact .applications ⟨body, hbody⟩ ⟨url, hurl⟩ happlications
    · cases hpure
  · intro h
    cases h with
    | body hoffends => exact Or.inl hoffends
    | url hbody hoffends =>
        rcases hbody with ⟨body, hbody⟩
        exact Or.inr ⟨body, hbody, Or.inl hoffends⟩
    | applications hbody hurl hoffends =>
        rcases hbody with ⟨body, hbody⟩
        rcases hurl with ⟨url, hurl⟩
        exact Or.inr ⟨body, hbody, Or.inr ⟨url, hurl, Or.inl hoffends⟩⟩

@[simp] theorem ofOutput_object (members : List (String × Value)) :
    ofOutput (.object members) = (ofMembers members).map some := rfl

theorem ofOutput_object_eq_error_iff (members : List (String × Value)) (fault : HookFault) :
    ofOutput (.object members) = .error fault <-> FirstOffence members fault := by
  rw [ofOutput_object, ← ofMembers_eq_error_iff]
  cases ofMembers members <;> simp [Except.map]

theorem ofOutput_of_isOther {output : Value} {kind : String} (hother : IsOther output kind) :
    ofOutput output = .error (.notAnObject kind) := by
  cases hother with
  | boolean => rfl
  | @number n hzero =>
      have hnot : n.isZero = false := by
        rw [← Bool.not_eq_true, Number.isZero_iff]
        exact hzero
      simp [ofOutput, isYes, Value.kind, hnot]
  | string hempty => simp [ofOutput, isYes, Value.kind, hempty]
  | array => rfl

theorem ofOutput_eq_notAnObject_iff (output : Value) (kind : String) :
    ofOutput output = .error (.notAnObject kind) <-> IsOther output kind := by
  constructor
  · intro h
    rcases saysNo_or_isOther_or_object output with hno | ⟨other, hother⟩ | ⟨members, rfl⟩
    · rw [(ofOutput_eq_none_iff output).mpr hno] at h
      cases h
    · rw [ofOutput_of_isOther hother] at h
      cases h
      exact hother
    · rw [ofOutput_object_eq_error_iff] at h
      exact absurd rfl (h.ne_notAnObject kind)
  · exact ofOutput_of_isOther

def SameParts (members others : List (String × Value)) : Prop :=
  forall key, key ∈ ["body", "url", "allowedApplications"] ->
    others.lookup key = members.lookup key

theorem ofMembers_eq_of_sameParts {members others : List (String × Value)}
    (hsame : SameParts members others) : ofMembers others = ofMembers members := by
  unfold ofMembers
  rw [hsame "body" (by simp), hsame "url" (by simp), hsame "allowedApplications" (by simp)]

/-- Null, false, zero and the empty string reject an attempt, and nothing else does.  Any other
output that is no object is refused by its kind.  An object is read when each of its parts can be,
and then gives these parts and no more; else the first part that cannot be read is named.  Other
members change nothing. -/
theorem ofOutput_answers (output : Value) :
    (ofOutput output = .ok none <-> SaysNo output) ∧
    (forall n, SaysNo (.number n) <-> n.value = 0) ∧
    (forall kind, ofOutput output = .error (.notAnObject kind) <-> IsOther output kind) ∧
    forall members, output = .object members ->
      (forall decision, ofOutput output = .ok (some decision) <-> Describes members decision) ∧
      ((exists decision, ofOutput output = .ok (some decision)) <->
        Fits ReadsBody (members.lookup "body") ∧ Fits ReadsUrl (members.lookup "url") ∧
          Fits ReadsApplications (members.lookup "allowedApplications")) ∧
      (forall fault, ofOutput output = .error fault <-> FirstOffence members fault) ∧
      forall others, SameParts members others -> ofOutput (.object others) = ofOutput output := by
  refine ⟨ofOutput_eq_none_iff output, ?_, ofOutput_eq_notAnObject_iff output, ?_⟩
  · intro n
    rw [← isYes_eq_false_iff, ← Number.isZero_iff, isYes, Bool.not_eq_false']
  · rintro members rfl
    have hread : forall decision, ofOutput (.object members) = .ok (some decision) <->
        Describes members decision := by
      intro decision
      rw [ofOutput_eq_some_iff]
      constructor
      · rintro ⟨others, heq, hdescribes⟩
        rw [Value.object.inj heq]
        exact hdescribes
      · intro hdescribes
        exact ⟨members, rfl, hdescribes⟩
    refine ⟨hread, ?_, ofOutput_object_eq_error_iff members, ?_⟩
    · rw [← exists_describes_iff]
      exact exists_congr hread
    · intro others hsame
      rw [ofOutput_object, ofOutput_object, ofMembers_eq_of_sameParts hsame]

end

/-!
An output with two faults, of which the first is named, outputs that are no objects, and an output
that restricts the token to no application at all, beside a member that does not count.
-/

attribute [local instance] Url.International.bookshop

theorem ofOutput_answers_twoFaults :
    ofOutput (.object [("body", .string "login=alice"), ("url", .bool true)]) =
        .error (.invalidField "body" "an object") ∧
      ofOutput (.bool true) = .error (.notAnObject "boolean") ∧
      ofOutput (.number (.integer 1)) = .error (.notAnObject "number") ∧
      ofOutput (.string "alice") = .error (.notAnObject "string") ∧
      ofOutput (.array []) = .error (.notAnObject "array") ∧
      ofOutput (.object [("url", .string "ftp://idp.local/")]) =
        .error (.invalidUrl (.unsupportedScheme "ftp://idp.local/")) ∧
      ofOutput (.object [("allowedApplications", .array []), ("note", .null)]) =
        .ok (some ⟨none, none, some []⟩) := by
  refine ⟨?_, ?_, ?_, ?_, ?_, ?_, ?_⟩
  · refine (((ofOutput_answers _).right.right.right _ rfl).right.right.left _).mpr (.body ?_)
    exact .kind (by simp) (by simp)
  · exact ((ofOutput_answers _).right.right.left _).mpr .boolean
  · exact ((ofOutput_answers _).right.right.left _).mpr (.number (by decide))
  · exact ((ofOutput_answers _).right.right.left _).mpr (.string (by decide))
  · exact ((ofOutput_answers _).right.right.left _).mpr .array
  · have hparse : Url.parse "ftp://idp.local/" = .ok .other := by decide +kernel
    refine (((ofOutput_answers _).right.right.right _ rfl).right.right.left _).mpr ?_
    exact .url ⟨none, .absent⟩ (.scheme hparse (Url.not_hasScheme_of_parse hparse))
  · have hanswers := ofOutput_answers (.object [("allowedApplications", .array [])])
    have hparts := hanswers.right.right.right _ rfl
    have hsame : SameParts [("allowedApplications", .array [])]
        [("allowedApplications", .array []), ("note", .null)] := by
      intro key hmem
      simp only [List.mem_cons, List.not_mem_nil, or_false] at hmem
      rcases hmem with rfl | rfl | rfl <;> rfl
    rw [hparts.right.right.right _ hsame]
    exact (hparts.left _).mpr ⟨.absent, .absent, .given rfl⟩

end Decision
end Gatekeeper
