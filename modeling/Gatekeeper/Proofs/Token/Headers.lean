import Gatekeeper.Proofs.Json.Objects
import Gatekeeper.Proofs.Json.Records
import Gatekeeper.Proofs.Results
import Gatekeeper.Token.Header

/-!
# Algorithms of headers

A header that is an object names its algorithm in one member, by a string or as
the only key of an object.
-/

namespace Gatekeeper

namespace Jwk

open Json Reader Skip

theorem passes_of_read {depth : Nat} {input rest : List UInt8} {a : Unit}
    (hread : read depth input = .ok a rest) : Passes input rest := by
  have hlength := length_unblanked_le input
  unfold read onValue at hread
  rw [next_bind] at hread
  cases hinput : unblanked input with
  | nil =>
      rw [hinput] at hread
      cases hread
  | cons b tail =>
      rw [hinput, List.length_cons] at hlength
      simp only [hinput, List.head?_cons] at hread
      by_cases hbrace : b = 0x7B
      · rw [if_pos hbrace] at hread
        cases depth with
        | zero => cases hread
        | succ depth =>
            change (do advance 1; enclosed (checked depth) closeObject) (b :: tail) = _ at hread
            rw [advance_bind] at hread
            rcases enclosed_eq_ok.mp hread with ⟨middle, hchecked, hclose⟩
            rcases bind_eq_ok.mp hchecked with ⟨found, last, hmembers, hcheck⟩
            have hlast : last = middle := by
              cases hpassed : check found with
              | ok passed =>
                  rw [hpassed] at hcheck
                  cases hcheck
                  rfl
              | error fault =>
                  rw [hpassed] at hcheck
                  cases hcheck
            subst hlast
            refine passes_of_container (opening_of_container hinput (Or.inr ⟨hbrace, rfl⟩))
              (by omega) (passesWithin_members ?_ _ hmembers hclose)
            intro members key input members' rest hentry
            rcases bind_eq_ok.mp hentry with ⟨v, last, hmember, hadded⟩
            cases hadded
            rcases bind_eq_ok.mp hmember with ⟨_, entered, hcolon, hvalue⟩
            exact ⟨entered, hcolon, passes_of_value depth (within_eq_ok.mp hvalue)⟩
      · rw [if_neg hbrace] at hread
        exact absurd hread not_mismatch

theorem sameExtent_read (depth depth' : Nat) : SameExtent depth (read depth') :=
  sameExtent_of_passes depth fun _ _ _ hread => passes_of_read hread

end Jwk

namespace Header

open Json Reader

variable {input rest : List UInt8}

/-- How a member of a header gives a name: as a string, or as the one key of an object. -/
inductive Spells : Value -> String -> Prop
  | name (name : String) : Spells (.string name) name
  | key (name : String) : Spells (.object [(name, .null)]) name

theorem Spells.unique {v : Value} {name other : String} (hname : Spells v name)
    (hother : Spells v other) : name = other := by
  cases hname with
  | name =>
      cases hother with
      | name => rfl
  | key =>
      cases hother with
      | key => rfl

def Names (v : Value) (algorithm : Algorithm) : Prop :=
  Spells v algorithm.name

theorem algorithmName_eq_ok {tail : List UInt8} {algorithm : Algorithm}
    (hread : algorithmName (0x22 :: tail) = .ok algorithm rest) :
    stringTail tail = .ok algorithm.name rest := by
  unfold algorithmName at hread
  rw [advance_bind] at hread
  rcases bind_eq_ok.mp hread with ⟨name, middle, hname, hread⟩
  cases hfound : Algorithm.ofName? name with
  | none =>
      rw [hfound] at hread
      cases hread
  | some found =>
      rw [hfound] at hread
      cases hread
      rw [← Algorithm.ofName?_eq_some_iff.mp hfound]
      exact hname

theorem algorithmKey_eq_ok {algorithm : Algorithm}
    (hread : algorithmKey input = .ok algorithm rest) :
    exists quoted, unblanked input = 0x22 :: quoted ∧
      stringTail quoted = .ok algorithm.name rest := by
  unfold algorithmKey at hread
  rw [next_bind] at hread
  cases hinput : unblanked input with
  | nil =>
      rw [hinput] at hread
      cases hread
  | cons b tail =>
      simp only [hinput, List.head?_cons] at hread
      by_cases hquote : b = 0x22
      · rw [if_pos hquote] at hread
        subst hquote
        exact ⟨tail, rfl, algorithmName_eq_ok hread⟩
      · rw [if_neg hquote] at hread
        split at hread <;> cases hread

theorem unit_eq_ok (hread : Header.unit input = .ok () rest) (depth : Nat) :
    value depth input = .ok .null rest := by
  unfold Header.unit onValue at hread
  rw [next_bind] at hread
  cases hinput : unblanked input with
  | nil =>
      rw [hinput] at hread
      cases hread
  | cons b tail =>
      simp only [hinput, List.head?_cons] at hread
      by_cases hnull : b = 0x6E
      · subst hnull
        rw [if_pos rfl, advance_bind] at hread
        exact value_of_null depth hinput hread
      · rw [if_neg hnull] at hread
        exact absurd hread not_mismatch

theorem closeName_eq_ok (hread : closeName input = .ok () rest) :
    unblanked input = 0x7D :: rest := by
  unfold closeName at hread
  rw [next_bind] at hread
  cases hinput : unblanked input with
  | nil =>
      rw [hinput] at hread
      cases hread
  | cons b tail =>
      simp only [hinput, List.head?_cons] at hread
      by_cases hbrace : b = 0x7D
      · rw [if_pos hbrace] at hread
        cases hread
        rw [hbrace]
        rfl
      · rw [if_neg hbrace] at hread
        cases hread

theorem value_of_algorithm {depth : Nat} {algorithm : Algorithm}
    (hread : Header.algorithm (depth + 1) input = .ok algorithm rest) :
    exists v, value (depth + 1) input = .ok v rest ∧ Names v algorithm := by
  unfold Header.algorithm onValue at hread
  rw [next_bind] at hread
  cases hinput : unblanked input with
  | nil =>
      rw [hinput] at hread
      cases hread
  | cons b tail =>
      simp only [hinput, List.head?_cons] at hread
      by_cases hbrace : b = 0x7B
      · subst hbrace
        rw [if_pos rfl] at hread
        unfold descend at hread
        simp only at hread
        rw [advance_bind] at hread
        rcases bind_eq_ok.mp hread with ⟨found, named, hkey, hread⟩
        rcases bind_eq_ok.mp hread with ⟨_, entered, hcolon, hread⟩
        rcases bind_eq_ok.mp hread with ⟨_, after, hunit, hread⟩
        rcases bind_eq_ok.mp hread with ⟨_, closed, hclose, hread⟩
        cases hread
        rcases algorithmKey_eq_ok hkey with ⟨quoted, hquoted, hname⟩
        exact ⟨_, value_of_member hinput hquoted hname hcolon (unit_eq_ok hunit depth)
          (closeName_eq_ok hclose), .key algorithm.name⟩
      · rw [if_neg hbrace] at hread
        by_cases hquote : b = 0x22
        · subst hquote
          rw [if_pos rfl] at hread
          have hname := algorithmName_eq_ok hread
          have hscalar : scalar 0x22 (0x22 :: tail) =
              .ok (some (.string algorithm.name)) rest := by
            change (stringTail >>= fun s => pure (some (Found.string s))) tail = _
            rw [bind_of_ok hname]
            rfl
          exact ⟨_, value_of_scalar (depth + 1) hinput hscalar, .name algorithm.name⟩
        · rw [if_neg hquote] at hread
          cases hread

/-!
# Headers that are objects
-/

theorem checked_of_value {depth : Nat} {name : String} {reader : Nat → Reader α}
    (hreader : SameExtent depth (reader depth)) {v : Value}
    {put : Option Algorithm → Option Algorithm} {rest' : List UInt8}
    (hvalue : value depth input = .ok v rest)
    (hread : (checked name reader).read depth input = .ok put rest') :
    rest' = rest ∧ put = id := by
  rcases bind_eq_ok.mp hread with ⟨found, middle, hfound, hput⟩
  cases hput
  exact ⟨hreader.optional hvalue hfound, rfl⟩

theorem read_of_value {m : Member (Option Algorithm)} (hm : m ∈ record.known) {depth : Nat}
    {v : Value} {put : Option Algorithm → Option Algorithm} {rest' : List UInt8}
    (hvalue : value (depth + 1) input = .ok v rest)
    (hread : m.read (depth + 1) input = .ok put rest') :
    rest' = rest ∧
      ((m.name = "alg" ∧ exists algorithm, Names v algorithm ∧ put = fun _ => some algorithm) ∨
        (m.name ≠ "alg" ∧ put = id)) := by
  simp only [record, List.mem_cons, List.not_mem_nil, or_false] at hm
  rcases hm with rfl | rfl | rfl | rfl | rfl | rfl | rfl | rfl | rfl | rfl
  case inr.inl =>
    rcases map_eq_ok.mp hread with ⟨algorithm, halgorithm, rfl⟩
    rcases value_of_algorithm halgorithm with ⟨v', hvalue', hnames⟩
    rw [hvalue] at hvalue'
    cases hvalue'
    exact ⟨rfl, Or.inl ⟨rfl, algorithm, hnames, rfl⟩⟩
  case inr.inr.inr.inr.inl =>
    rcases checked_of_value (Jwk.sameExtent_read (depth + 1) (depth + 1)) hvalue hread with
      ⟨hrest, hput⟩
    exact ⟨hrest, Or.inr ⟨by simp [checked], hput⟩⟩
  case inr.inr.inr.inr.inr.inr.inr.inl =>
    rcases checked_of_value (sameExtent_strings (depth + 1) (depth + 1)) hvalue hread with
      ⟨hrest, hput⟩
    exact ⟨hrest, Or.inr ⟨by simp [checked], hput⟩⟩
  all_goals
    rcases checked_of_value (sameExtent_string (depth + 1)) hvalue hread with ⟨hrest, hput⟩
    exact ⟨hrest, Or.inr ⟨by simp [text, checked], hput⟩⟩

def InStep (o : Object) (progress : Record.Progress (Option Algorithm)) : Prop :=
  Part Names (o.get? "alg") progress.state

theorem inStep_step {depth : Nat} {o o' : Object}
    {progress progress' : Record.Progress (Option Algorithm)} {key : String}
    {input rest rest' : List UInt8} (hstep : InStep o progress)
    (hobject : putMember (depth + 1) o key input = .ok o' rest)
    (hheader : record.member (depth + 1) progress key input = .ok progress' rest') :
    rest' = rest ∧ InStep o' progress' := by
  rcases bind_eq_ok.mp hobject with ⟨v, middle, hmember, hput⟩
  cases hput
  rcases bind_eq_ok.mp hmember with ⟨_, entered, hcolon, hwithin⟩
  have hvalue := within_eq_ok.mp hwithin
  rcases Record.member_eq_ok hheader with ⟨entered', hcolon', hread⟩
  rw [hcolon] at hcolon'
  cases hcolon'
  have hother : key ≠ "alg" -> progress'.state = progress.state ->
      InStep (o.insert key v) progress' := by
    intro hkey hstate
    unfold InStep
    rw [Object.get?_insert_of_ne o v hkey.symm, hstate]
    exact hstep
  rcases hread with ⟨hfind, hskipped, rfl⟩ | ⟨m, put, hfind, hm, hstate⟩
  · refine ⟨sameExtent_skip _ hvalue hskipped, hother ?_ rfl⟩
    intro hkey
    rw [hkey] at hfind
    cases hfind
  · rcases Record.mem_of_find? hfind with ⟨hmem, hname⟩
    rcases read_of_value hmem hvalue hm with ⟨hrest, ⟨halg, algorithm, hnames, hput⟩ | ⟨halg, hput⟩⟩
    · refine ⟨hrest, ?_⟩
      unfold InStep
      rw [← hname, halg, Object.get?_insert_self, hstate, hput]
      exact .given hnames
    · rw [hname] at halg
      exact ⟨hrest, hother halg (by rw [hstate, hput]; rfl)⟩

theorem names_of_parse {document : List UInt8} {members : List (String × Value)}
    {algorithm : Algorithm} (hobject : Value.parse document = .ok (.object members))
    (hheader : parse document = .ok algorithm) :
    exists v, members.lookup "alg" = some v ∧ Names v algorithm := by
  rcases except_bind_eq_ok.mp hheader with ⟨found, hfound, hsome⟩
  cases found with
  | none => cases hsome
  | some found =>
      cases hsome
      rcases whole_outcome_eq_ok hobject with ⟨rest, hobject⟩
      rcases whole_outcome_eq_ok hfound with ⟨rest₂, hfound⟩
      rcases object_eq_ok hobject with ⟨o, tail, middle, rfl, hinput, hmembers, _⟩
      rcases Record.read_eq_ok_of_object hinput hfound with ⟨progress, _, hrecord, hstate, _⟩
      have hstart : InStep Object.empty ⟨record.start, []⟩ := .absent
      have hpart := (membersFrom_agree inStep_step _ hstart hmembers hrecord).2
      unfold InStep at hpart
      rw [hstate] at hpart
      unfold Object.get? at hpart
      generalize o.members.lookup "alg" = member at hpart
      cases hpart with
      | given hnames => exact ⟨_, rfl, hnames⟩

end Header
end Gatekeeper
