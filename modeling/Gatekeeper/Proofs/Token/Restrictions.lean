import Gatekeeper.Proofs.Json.Objects
import Gatekeeper.Proofs.Json.Records
import Gatekeeper.Token.Claims
import Gatekeeper.Token.Restriction

/-!
# The two readings of a payload

A payload is read once for its claims and once more, leniently, for its
restrictions.  If the payload is an object, both readings are about its members.
-/

namespace Gatekeeper

open Json Reader

variable {input rest : List UInt8}

/-!
# Members of the claims
-/

namespace Claims

def ReadsText (v : Value) (text : String) : Prop :=
  v = .string text

theorem value_of_read {m : Member Claims} (hm : m ∈ record.known) {depth depth' : Nat}
    {put : Claims → Claims} (hread : m.read depth input = .ok put rest) :
    exists v, value depth' input = .ok v rest := by
  simp only [record, List.mem_cons, List.not_mem_nil, or_false] at hm
  rcases hm with rfl | rfl | rfl | rfl | rfl | rfl <;>
    rcases map_eq_ok.mp hread with ⟨found, hfound, _⟩
  · exact ⟨_, value_of_optional_int64 depth' hfound⟩
  · exact ⟨_, value_of_optional_int64 depth' hfound⟩
  · exact ⟨_, value_of_optional_int64 depth' hfound⟩
  · exact ⟨_, value_of_optional_string depth' hfound⟩
  · exact ⟨_, value_of_optional_string depth' hfound⟩
  · exact ⟨_, value_of_optional_string depth' hfound⟩

theorem iss_of_read {m : Member Claims} (hm : m ∈ record.known) {depth depth' : Nat} {v : Value}
    {put : Claims → Claims} (hvalue : value depth' input = .ok v rest)
    (hread : m.read depth input = .ok put rest) (claims : Claims) :
    (m.name = "iss" ∧ Part ReadsText (some v) (put claims).iss) ∨
      (m.name ≠ "iss" ∧ (put claims).iss = claims.iss) := by
  simp only [record, List.mem_cons, List.not_mem_nil, or_false] at hm
  rcases hm with rfl | rfl | rfl | rfl | rfl | rfl <;>
    rcases map_eq_ok.mp hread with ⟨found, hfound, rfl⟩
  case inr.inr.inr.inl =>
    have hv := value_of_optional_string depth' hfound
    rw [hvalue] at hv
    cases hv
    refine Or.inl ⟨rfl, ?_⟩
    cases found with
    | none => exact .null
    | some text => exact .given rfl
  all_goals exact Or.inr ⟨by simp [time, text, Member.free], rfl⟩

theorem string_of_read {m : Member Claims} (hm : m ∈ record.known) (hname : m.name = "sub")
    {depth : Nat} {put : Claims → Claims} (hread : m.read depth input = .ok put rest) :
    exists found, optional string input = .ok found rest := by
  simp only [record, List.mem_cons, List.not_mem_nil, or_false] at hm
  rcases hm with rfl | rfl | rfl | rfl | rfl | rfl
  case inr.inr.inr.inr.inl =>
    rcases map_eq_ok.mp hread with ⟨found, hfound, _⟩
    exact ⟨found, hfound⟩
  all_goals simp [time, text, Member.free] at hname

theorem member_of_value {depth : Nat} {progress progress' : Record.Progress Claims}
    {key : String} {entered : List UInt8} {v : Value} {rest' : List UInt8}
    (hcolon : colon input = .ok () entered) (hvalue : value (depth + 1) entered = .ok v rest)
    (hread : record.member (depth + 1) progress key input = .ok progress' rest') :
    rest' = rest ∧
      ((key = "iss" ∧ Part ReadsText (some v) progress'.state.iss) ∨
        (key ≠ "iss" ∧ progress'.state.iss = progress.state.iss)) ∧
      (key = "sub" -> exists found, optional string entered = .ok found rest) := by
  rcases Record.member_eq_ok hread with ⟨entered', hcolon', hread⟩
  rw [hcolon] at hcolon'
  cases hcolon'
  rcases hread with ⟨hfind, hskipped, rfl⟩ | ⟨m, put, hfind, hm, hstate⟩
  · rw [skip_of_value hvalue] at hskipped
    cases hskipped
    refine ⟨rfl, Or.inr ⟨?_, rfl⟩, ?_⟩ <;>
      · intro h
        rw [h] at hfind
        cases hfind
  · rcases Record.mem_of_find? hfind with ⟨hmem, hname⟩
    have hextent : exists v, value (depth + 1) entered = .ok v rest' := value_of_read hmem hm
    rcases hextent with ⟨v', hv'⟩
    rw [hvalue] at hv'
    cases hv'
    rw [hstate, ← hname]
    exact ⟨rfl, iss_of_read hmem hvalue hm _, fun hsub => string_of_read hmem hsub hm⟩

end Claims

/-!
# Members of the restrictions
-/

namespace Restriction

def tried (member : Option Value) : Tried Names :=
  match member.bind unlessNull with
  | .none => .absent
  | .some v => (Names.ofValue? v).elim .unreadable .read

theorem tolerant_of_ok {reader : Reader (Option α)} {found : Option α}
    (hread : reader input = .ok found rest) :
    tolerant reader input = .ok (found.elim .absent .read) rest := by
  unfold tolerant
  rw [hread]
  cases found <;> rfl

theorem names_of_value {depth : Nat} {v : Value} (hvalue : value (depth + 1) input = .ok v rest) :
    names (depth + 1) input = .ok (tried (some v)) rest := by
  unfold names tried
  rw [tolerant_of_ok (optional_value hvalue), Option.bind_some]
  cases unlessNull v <;> rfl

def keep (name : String) (v : Value) (restriction : Restriction) : Restriction :=
  if name = "iss" then { restriction with issuer := tried (some v) }
  else if name = "aud" then { restriction with audience := tried (some v) }
  else restriction

theorem keep_of_read {m : Member Restriction} (hm : m ∈ record.known) {depth : Nat} {v : Value}
    {put : Restriction → Restriction} {rest' : List UInt8}
    (hvalue : value (depth + 1) input = .ok v rest)
    (hsub : m.name = "sub" -> exists found, optional string input = .ok found rest)
    (hread : m.read (depth + 1) input = .ok put rest') :
    rest' = rest ∧ put = keep m.name v := by
  simp only [record, List.mem_cons, List.not_mem_nil, or_false] at hm
  rcases hm with rfl | rfl | rfl | rfl | rfl
  · rcases bind_eq_ok.mp hread with ⟨found, middle, hfound, hput⟩
    rw [tolerant_of_ok (optional_value hvalue)] at hfound
    cases hfound
    cases hput
    exact ⟨rfl, rfl⟩
  · rcases bind_eq_ok.mp hread with ⟨found, middle, hfound, hput⟩
    rw [tolerant_of_ok (optional_value hvalue)] at hfound
    cases hfound
    cases hput
    exact ⟨rfl, rfl⟩
  · rcases hsub rfl with ⟨text, htext⟩
    rcases bind_eq_ok.mp hread with ⟨found, middle, hfound, hput⟩
    rw [tolerant_of_ok htext] at hfound
    cases hfound
    cases hput
    exact ⟨rfl, rfl⟩
  · rcases map_eq_ok.mp hread with ⟨found, hfound, rfl⟩
    rw [names_of_value hvalue] at hfound
    cases hfound
    exact ⟨rfl, rfl⟩
  · rcases map_eq_ok.mp hread with ⟨found, hfound, rfl⟩
    rw [names_of_value hvalue] at hfound
    cases hfound
    exact ⟨rfl, rfl⟩

theorem member_of_value {depth : Nat} {progress progress' : Record.Progress Restriction}
    {key : String} {entered : List UInt8} {v : Value} {rest' : List UInt8}
    (hcolon : colon input = .ok () entered) (hvalue : value (depth + 1) entered = .ok v rest)
    (hsub : key = "sub" -> exists found, optional string entered = .ok found rest)
    (hread : record.member (depth + 1) progress key input = .ok progress' rest') :
    rest' = rest ∧ progress'.state = keep key v progress.state := by
  rcases Record.member_eq_ok hread with ⟨entered', hcolon', hread⟩
  rw [hcolon] at hcolon'
  cases hcolon'
  rcases hread with ⟨hfind, hskipped, rfl⟩ | ⟨m, put, hfind, hm, hstate⟩
  · rw [skip_of_value hvalue] at hskipped
    cases hskipped
    refine ⟨rfl, ?_⟩
    unfold keep
    rw [if_neg, if_neg] <;>
      · intro h
        rw [h] at hfind
        cases hfind
  · rcases Record.mem_of_find? hfind with ⟨hmem, hname⟩
    rw [← hname] at hsub
    rcases keep_of_read hmem hvalue hsub hm with ⟨hrest, hput⟩
    rw [hstate, hput, hname]
    exact ⟨hrest, rfl⟩

end Restriction

/-!
# Payloads that are objects
-/

/-- The claims and the restrictions are what the members of the object say. -/
structure SaidBy (members : List (String × Value)) (claims : Claims)
    (restriction : Restriction) : Prop where
  iss : Part Claims.ReadsText (members.lookup "iss") claims.iss
  issuer : restriction.issuer = Restriction.tried (members.lookup "iss")
  audience : restriction.audience = Restriction.tried (members.lookup "aud")

theorem SaidBy.insert {members : List (String × Value)} {claims claims' : Claims}
    {restriction : Restriction} (hsaid : SaidBy members claims restriction) {key : String}
    {v : Value}
    (hiss : (key = "iss" ∧ Part Claims.ReadsText (some v) claims'.iss) ∨
      (key ≠ "iss" ∧ claims'.iss = claims.iss)) :
    SaidBy (Members.insert key v members) claims' (Restriction.keep key v restriction) := by
  have hlookup := fun other => Members.lookup_insert key other v members
  unfold Restriction.keep
  rcases hiss with ⟨rfl, hiss⟩ | ⟨hkey, hiss⟩
  · rw [if_pos rfl]
    constructor
    · rw [hlookup, if_pos rfl]
      exact hiss
    · rw [hlookup, if_pos rfl]
    · rw [hlookup, if_neg (by decide)]
      exact hsaid.audience
  · rw [if_neg hkey]
    have hissuer : (Members.insert key v members).lookup "iss" = members.lookup "iss" := by
      rw [hlookup, if_neg (fun h => hkey h.symm)]
    constructor
    · rw [hissuer, hiss]
      exact hsaid.iss
    · rw [hissuer]
      split <;> exact hsaid.issuer
    · by_cases haud : key = "aud"
      · rw [if_pos haud, hlookup, if_pos haud.symm]
      · rw [if_neg haud, hlookup, if_neg (fun h => haud h.symm)]
        exact hsaid.audience

def InStep (o : Object) (claims : Record.Progress Claims)
    (restriction : Record.Progress Restriction) : Prop :=
  SaidBy o.members claims.state restriction.state

theorem inStep_step {depth : Nat} {o : Object} {claims : Record.Progress Claims}
    {restriction : Record.Progress Restriction} {key : String} {input : List UInt8} {o' : Object}
    {claims' : Record.Progress Claims} {restriction' : Record.Progress Restriction}
    {rest rest₂ rest₃ : List UInt8} (hsaid : InStep o claims restriction)
    (hobject : putMember (depth + 1) o key input = .ok o' rest)
    (hclaims : Claims.record.member (depth + 1) claims key input = .ok claims' rest₂)
    (hrestriction :
      Restriction.record.member (depth + 1) restriction key input = .ok restriction' rest₃) :
    rest₂ = rest ∧ rest₃ = rest ∧ InStep o' claims' restriction' := by
  rcases bind_eq_ok.mp hobject with ⟨v, middle, hmember, hput⟩
  cases hput
  rcases bind_eq_ok.mp hmember with ⟨_, entered, hcolon, hwithin⟩
  have hvalue := within_eq_ok.mp hwithin
  -- The claims go first, as their reading of the subject is needed for the restrictions.
  rcases Claims.member_of_value hcolon hvalue hclaims with ⟨hrest₂, hiss, hsub⟩
  rcases Restriction.member_of_value hcolon hvalue hsub hrestriction with ⟨hrest₃, hkept⟩
  refine ⟨hrest₂, hrest₃, ?_⟩
  unfold InStep
  rw [hkept]
  exact SaidBy.insert hsaid hiss

theorem saidBy_of_parse {document : List UInt8} {members : List (String × Value)}
    {claims : Claims} {restriction : Restriction}
    (hobject : Value.parse document = .ok (.object members))
    (hclaims : Claims.parse document = .ok claims)
    (hrestriction : Restriction.parse document = .ok restriction) :
    SaidBy members claims restriction := by
  rcases whole_outcome_eq_ok hobject with ⟨rest, hobject⟩
  rcases whole_outcome_eq_ok hclaims with ⟨rest₂, hclaims⟩
  rcases whole_outcome_eq_ok hrestriction with ⟨rest₃, hrestriction⟩
  rcases object_eq_ok hobject with ⟨o, tail, middle, rfl, hinput, hmembers, _⟩
  rcases Record.read_eq_ok_of_object hinput hclaims with ⟨progress₂, _, hmembers₂, rfl, _⟩
  rcases Record.read_eq_ok_of_object hinput hrestriction with ⟨progress₃, _, hmembers₃, rfl, _⟩
  have hstart : InStep Object.empty ⟨Claims.record.start, []⟩ ⟨Restriction.record.start, []⟩ :=
    ⟨.absent, rfl, rfl⟩
  exact (membersFrom_inStep inStep_step _ hstart hmembers hmembers₂ hmembers₃).2.2

end Gatekeeper
