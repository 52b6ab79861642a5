import Gatekeeper.Proofs.Token.Decoding
import Gatekeeper.Proofs.Token.Restrictions

/-!
# Acceptance

Which tokens a verifier accepts that asks for an issuer or an audience.  A member
that is there and can be read must meet what is asked for; a token is not refused
for lack of it.
-/

namespace Gatekeeper

open Json

theorem Names.strings?_eq_some_iff (items : List Value) (names : List String) :
    strings? items = some names <-> items = names.map .string := by
  induction items generalizing names with
  | nil =>
      cases names with
      | nil => simp [strings?]
      | cons name rest => simp [strings?]
  | cons item items ih =>
      cases item with
      | string s =>
          unfold strings?
          rw [Option.map_eq_some_iff]
          constructor
          · rintro ⟨rest, hrest, rfl⟩
            rw [(ih rest).mp hrest, List.map_cons]
          · intro h
            cases names with
            | nil => cases h
            | cons name rest =>
                injection h with hhead hrest
                injection hhead with hhead
                exact ⟨rest, (ih rest).mpr hrest, by rw [hhead]⟩
      | null => cases names <;> simp [strings?]
      | bool b => cases names <;> simp [strings?]
      | number n => cases names <;> simp [strings?]
      | array items => cases names <;> simp [strings?]
      | object members => cases names <;> simp [strings?]

namespace Verifier

/-!
# Members of a payload
-/

def IssuerPasses (issuer : Option String) (member : Option Value) : Prop :=
  forall name, issuer = some name ->
    member = none ∨ member = some .null ∨ member = some (.string name)

/-- The audience of the payload meets the one asked for, or is neither a name nor a list of
names. -/
def AudiencePasses (audience : Option (List String)) (member : Option Value) : Prop :=
  forall accepted, audience = some accepted ->
    (forall name, member = some (.string name) -> name ∈ accepted) ∧
      forall names : List String, member = some (.array (names.map .string)) ->
        exists name, name ∈ names ∧ name ∈ accepted

@[simp] theorem refuses_absent (asked : Option (List String)) :
    Restriction.refuses .absent asked = false := by
  cases asked <;> rfl

@[simp] theorem refuses_read_eq_false_iff (names : Names) (accepted : List String) :
    Restriction.refuses (.read names) (some accepted) = false <->
      names.meets accepted = true := by
  simp [Restriction.refuses]

theorem issuerPasses_iff {members : List (String × Value)} {claims : Claims}
    {restriction : Restriction} (hsaid : SaidBy members claims restriction)
    (issuer : Option String) :
    Restriction.refuses restriction.issuer (issuer.map fun issuer => [issuer]) = false <->
      IssuerPasses issuer (members.lookup "iss") := by
  rw [hsaid.issuer]
  have hiss := hsaid.iss
  generalize members.lookup "iss" = member at hiss
  generalize claims.iss = text at hiss
  unfold IssuerPasses
  cases hiss with
  | absent =>
      exact ⟨fun _ _ _ => Or.inl rfl, fun _ => refuses_absent _⟩
  | null =>
      exact ⟨fun _ _ _ => Or.inr (Or.inl rfl), fun _ => refuses_absent _⟩
  | given htext =>
      rename_i text
      rw [htext]
      have htried : Restriction.tried (some (.string text)) = .read (.one text) := rfl
      rw [htried]
      cases issuer with
      | none =>
          constructor
          · intro _ name hname
            cases hname
          · intro _
            rfl
      | some asked =>
          rw [Option.map_some, refuses_read_eq_false_iff]
          simp only [Names.meets, List.mem_singleton, decide_eq_true_eq]
          constructor
          · intro htext name hname
            cases hname
            rw [htext]
            exact Or.inr (Or.inr rfl)
          · intro hpasses
            rcases hpasses asked rfl with h | h | h
            · cases h
            · cases h
            · injection h with h
              injection h

@[simp] theorem refuses_unasked (member : Tried Names) :
    Restriction.refuses member none = false := by
  cases member <;> rfl

theorem audiencePasses_of_other {member : Option Value}
    (hname : forall name, member ≠ some (.string name))
    (hnames : forall names : List String, member ≠ some (.array (names.map .string)))
    (audience : Option (List String)) : AudiencePasses audience member := by
  intro accepted _
  constructor
  · intro name h
    exact absurd h (hname name)
  · intro names h
    exact absurd h (hnames names)

theorem audiencePasses_string (accepted : List String) (s : String) :
    (Names.one s).meets accepted = true <->
      AudiencePasses (some accepted) (some (.string s)) := by
  unfold AudiencePasses
  simp [Names.meets]

theorem audiencePasses_names (accepted names : List String) :
    (Names.many names).meets accepted = true <->
      AudiencePasses (some accepted) (some (.array (names.map .string))) := by
  simp only [Names.meets, List.any_eq_true, decide_eq_true_eq]
  constructor
  · intro hmeets asked hasked
    cases hasked
    constructor
    · intro name h
      cases h
    · intro names' h
      injection h with h
      injection h with h
      have hsome := (Names.strings?_eq_some_iff _ names').mpr h
      rw [(Names.strings?_eq_some_iff _ names).mpr rfl] at hsome
      cases hsome
      exact hmeets
  · intro hpasses
    exact (hpasses accepted rfl).right names rfl

theorem audiencePasses_iff (member : Option Value) (audience : Option (List String)) :
    Restriction.refuses (Restriction.tried member) audience = false <->
      AudiencePasses audience member := by
  cases audience with
  | none =>
      constructor
      · intro _ accepted haccepted
        cases haccepted
      · intro _
        exact refuses_unasked _
  | some accepted =>
      cases member with
      | none => exact ⟨fun _ => audiencePasses_of_other (by simp) (by simp) _, fun _ => rfl⟩
      | some v =>
          cases v with
          | string s =>
              exact (refuses_read_eq_false_iff _ _).trans (audiencePasses_string accepted s)
          | array items =>
              have htried : Restriction.tried (some (.array items)) =
                  ((Names.strings? items).map Names.many).elim .unreadable .read := rfl
              rw [htried]
              cases hstrings : Names.strings? items with
              | none =>
                  have hnames : forall names : List String,
                      some (Value.array items) ≠ some (.array (names.map .string)) := by
                    intro names h
                    injection h with h
                    injection h with h
                    rw [(Names.strings?_eq_some_iff items names).mpr h] at hstrings
                    cases hstrings
                  exact ⟨fun _ => audiencePasses_of_other (by simp) hnames _, fun _ => rfl⟩
              | some names =>
                  rw [(Names.strings?_eq_some_iff items names).mp hstrings]
                  exact (refuses_read_eq_false_iff _ _).trans (audiencePasses_names accepted names)
          | null =>
              exact ⟨fun _ => audiencePasses_of_other (by simp) (by simp) _, fun _ => rfl⟩
          | bool b =>
              exact ⟨fun _ => audiencePasses_of_other (by simp) (by simp) _, fun _ => rfl⟩
          | number n =>
              exact ⟨fun _ => audiencePasses_of_other (by simp) (by simp) _, fun _ => rfl⟩
          | object members =>
              exact ⟨fun _ => audiencePasses_of_other (by simp) (by simp) _, fun _ => rfl⟩

/-!
# Accepted tokens
-/

def Meets (verifier : Verifier) (restriction : Restriction) : Prop :=
  (forall issuer names, verifier.issuer = some issuer -> restriction.issuer = .read names ->
    names.meets [issuer] = true) ∧
  forall accepted names, verifier.audience = some accepted ->
    restriction.audience = .read names -> names.meets accepted = true

theorem refuses_eq_false_iff (member : Tried Names) (accepted : Option (List String)) :
    Restriction.refuses member accepted = false <->
      forall asked names, accepted = some asked -> member = .read names ->
        names.meets asked = true := by
  cases accepted with
  | none => simp
  | some asked =>
      cases member with
      | absent => simp
      | unreadable => simp [Restriction.refuses]
      | read names => simp

theorem permits_eq_ok_iff {verifier : Verifier} {restriction : Restriction} :
    verifier.permits restriction = .ok () <->
      Restriction.refuses restriction.issuer (verifier.issuer.map fun issuer => [issuer]) =
          false ∧
        Restriction.refuses restriction.audience verifier.audience = false := by
  unfold permits
  cases Restriction.refuses restriction.issuer (verifier.issuer.map fun issuer => [issuer]) with
  | true => simp
  | false =>
      cases Restriction.refuses restriction.audience verifier.audience with
      | true => simp
      | false => simp

theorem permits_iff_meets {verifier : Verifier} {restriction : Restriction} :
    verifier.permits restriction = .ok () <-> verifier.Meets restriction := by
  rw [permits_eq_ok_iff, refuses_eq_false_iff, refuses_eq_false_iff]
  unfold Meets
  refine and_congr ?_ Iff.rfl
  cases verifier.issuer with
  | none => simp
  | some issuer =>
      constructor
      · intro h issuer names hissuer hread
        cases hissuer
        exact h [_] names rfl hread
      · intro h asked names hasked hread
        cases hasked
        exact h issuer names rfl hread

theorem permits_iff_passes {verifier : Verifier} {members : List (String × Value)} {claims : Claims}
    {restriction : Restriction} (hsaid : SaidBy members claims restriction) :
    verifier.permits restriction = .ok () <->
      IssuerPasses verifier.issuer (members.lookup "iss") ∧
        AudiencePasses verifier.audience (members.lookup "aud") := by
  rw [permits_eq_ok_iff, issuerPasses_iff hsaid, hsaid.audience, audiencePasses_iff]

/-- A token is accepted exactly if it is signed, its payload can be read both for its claims and
for its restrictions, what was read meets what is asked for, and it is not too old.  In a payload
that is an object, only members that are there stand against what is asked for. -/
theorem verify_eq_ok_iff_passes (verifier : Verifier) (now : Int) (token : String)
    (claims : Claims) :
    (verifier.verify now token = .ok claims <->
      exists parts bytes restriction,
        verifier.signed token.toList = .ok parts ∧ decoded parts.payload = .ok bytes ∧
        Claims.parse bytes = .ok claims ∧ Restriction.parse bytes = .ok restriction ∧
        verifier.Meets restriction ∧ verifier.checkAge claims now = .ok ()) ∧
    forall (parts : Compact) (bytes : List UInt8)
      (members : List (String × Value)),
      verifier.signed token.toList = .ok parts -> decoded parts.payload = .ok bytes ->
      Value.parse bytes = .ok (.object members) ->
        (verifier.verify now token = .ok claims <->
          Claims.parse bytes = .ok claims ∧
          (exists restriction, Restriction.parse bytes = .ok restriction) ∧
          IssuerPasses verifier.issuer (members.lookup "iss") ∧
          AudiencePasses verifier.audience (members.lookup "aud") ∧
          verifier.checkAge claims now = .ok ()) := by
  have hstages : verifier.verify now token = .ok claims <->
      exists parts bytes restriction,
        verifier.signed token.toList = .ok parts ∧ decoded parts.payload = .ok bytes ∧
        Claims.parse bytes = .ok claims ∧ Restriction.parse bytes = .ok restriction ∧
        verifier.Meets restriction ∧ verifier.checkAge claims now = .ok () := by
    rw [verify_eq_ok_iff, decode_eq_ok_iff]
    constructor
    · rintro ⟨⟨parts, restriction, hsigned, hpayload, hpermits⟩, hage⟩
      rcases payload_eq_ok_iff.mp hpayload with ⟨bytes, hbytes, hclaims, hrestriction⟩
      exact ⟨parts, bytes, restriction, hsigned, hbytes, hclaims, hrestriction,
        permits_iff_meets.mp hpermits, hage⟩
    · rintro ⟨parts, bytes, restriction, hsigned, hbytes, hclaims, hrestriction, hmeets, hage⟩
      have hpayload := payload_eq_ok_iff.mpr ⟨bytes, hbytes, hclaims, hrestriction⟩
      exact ⟨⟨parts, restriction, hsigned, hpayload, permits_iff_meets.mpr hmeets⟩, hage⟩
  refine ⟨hstages, ?_⟩
  intro parts bytes members hsigned hbytes hobject
  rw [hstages]
  constructor
  · rintro ⟨parts', bytes', restriction, hsigned', hbytes', hclaims, hrestriction, hmeets,
      hage⟩
    rw [hsigned] at hsigned'
    cases hsigned'
    rw [hbytes] at hbytes'
    cases hbytes'
    have hsaid := saidBy_of_parse hobject hclaims hrestriction
    have hpasses := (permits_iff_passes hsaid).mp (permits_iff_meets.mpr hmeets)
    exact ⟨hclaims, ⟨restriction, hrestriction⟩, hpasses.left, hpasses.right, hage⟩
  · rintro ⟨hclaims, ⟨restriction, hrestriction⟩, hissuer, haudience, hage⟩
    have hsaid := saidBy_of_parse hobject hclaims hrestriction
    have hpermits := (permits_iff_passes hsaid).mpr ⟨hissuer, haudience⟩
    exact ⟨parts, bytes, restriction, hsigned, hbytes, hclaims, hrestriction,
      permits_iff_meets.mp hpermits, hage⟩

/-!
A verifier that asks for an issuer and an audience, and a token of its key whose
payload is the empty object.
-/

def asking : Verifier :=
  ⟨.hs256, Key.ofSecret [0x6B], some "issuer", some ["gateway"], 0⟩

def bareParts : Compact :=
  ⟨"eyJhbGciOiJIUzI1NiJ9".toList, "e30".toList,
    "CYG8qKSuUG1cj5ZM7YUE3kRjuUjOfiv14zgdYx-7pLo".toList⟩

def bareToken : String :=
  "eyJhbGciOiJIUzI1NiJ9.e30.CYG8qKSuUG1cj5ZM7YUE3kRjuUjOfiv14zgdYx-7pLo"

theorem mac_bareParts : Hmac.mac .sha256 [0x6B] bareParts.signedBytes =
    [0x09, 0x81, 0xBC, 0xA8, 0xA4, 0xAE, 0x50, 0x6D, 0x5C, 0x8F, 0x96, 0x4C, 0xED, 0x85, 0x04, 0xDE,
      0x44, 0x63, 0xB9, 0x48, 0xCE, 0x7E, 0x2B, 0xF5, 0xE3, 0x38, 0x1D, 0x63, 0x1F, 0xBB, 0xA4,
      0xBA] := by
  decide +kernel

theorem signed_bareToken : asking.signed bareToken.toList = .ok bareParts := by
  refine signed_eq_ok_iff.mpr
    ⟨rfl, by decide +kernel, eq_ok_of_toOption (by decide +kernel), ?_⟩
  have haccepts : asking.key.accepts asking.algorithm bareParts.signedBytes
      (Utf8.encodeChars bareParts.signature) =
        .ok (Base64.encode Base64.urlSafe (Hmac.mac .sha256 [0x6B] bareParts.signedBytes) =
          Utf8.encodeChars bareParts.signature) := rfl
  rw [haccepts, mac_bareParts]
  exact congrArg Except.ok (by decide +kernel)

theorem verify_eq_ok_iff_passes_bareToken : asking.verify 0 bareToken = .ok Claims.none := by
  refine ((verify_eq_ok_iff_passes asking 0 bareToken Claims.none).right bareParts [0x7B, 0x7D] []
    signed_bareToken rfl rfl).mpr ⟨rfl, ⟨Restriction.none, rfl⟩, ?_, ?_, rfl⟩
  · intro name _
    exact Or.inl rfl
  · intro accepted _
    constructor
    · intro name h
      cases h
    · intro names h
      cases h

end Verifier
end Gatekeeper
