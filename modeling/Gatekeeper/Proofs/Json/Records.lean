import Gatekeeper.Json.Record
import Gatekeeper.Proofs.Json.Typed

/-!
# Readings of one object

What has been read when a record or a value is read from an object, and when
several readings of one object stay in step.
-/

namespace Gatekeeper
namespace Json
namespace Reader

variable {input rest : List UInt8}

/-!
# Objects as values
-/

theorem yields_scalar (b : UInt8) :
    Yields (fun found => (found = some .null -> b = 0x6E) ∧ found ≠ some .map)
      (scalar b) := by
  have hother : forall {found : Found}, found ≠ .null -> found ≠ .map ->
      Yields (fun found => (found = some .null -> b = 0x6E) ∧ found ≠ some .map)
        (pure (some found) : Reader (Option Found)) := by
    intro found hnull hmap
    apply yields_pure
    constructor
    · intro h
      exact absurd (Option.some.inj h) hnull
    · intro h
      exact hmap (Option.some.inj h)
  unfold scalar
  split
  · rename_i hb
    refine yields_bind fun _ => yields_bind fun _ => yields_pure ⟨fun _ => hb, by simp⟩
  split
  · exact yields_bind fun _ => yields_bind fun _ => hother (by simp) (by simp)
  split
  · exact yields_bind fun _ => yields_bind fun _ => hother (by simp) (by simp)
  split
  · exact yields_bind fun _ => yields_bind fun _ => hother (by simp) (by simp)
  split
  · exact yields_bind fun _ => hother (by simp) (by simp)
  split
  · exact yields_bind fun _ => yields_bind fun _ => hother (by simp) (by simp)
  · exact yields_pure ⟨by simp, by simp⟩

theorem value_eq_ok {depth : Nat} {v : Value} (hread : value (depth + 1) input = .ok v rest) :
    exists b tail, unblanked input = b :: tail ∧
      ((exists found, scalar b (b :: tail) = .ok (some found) rest ∧ v = foundValue found) ∨
        (exists items, b = 0x5B ∧ v = .array items ∧
          listBody (value depth) (b :: tail) = .ok items rest) ∨
        (exists o : Object, b = 0x7B ∧ v = .object o.members ∧
          objectBody (value depth) (b :: tail) = .ok o rest)) := by
  unfold value valueOf onValue at hread
  rw [next_bind] at hread
  cases hinput : unblanked input with
  | nil =>
      rw [hinput] at hread
      cases hread
  | cons b tail =>
      refine ⟨b, tail, rfl, ?_⟩
      simp only [hinput, List.head?_cons] at hread
      rcases bind_eq_ok.mp hread with ⟨found, middle, hscalar, hread⟩
      cases found with
      | some found =>
          cases hread
          exact Or.inl ⟨found, hscalar, rfl⟩
      | none =>
          rw [scalar_eq_none hscalar] at hread
          by_cases hbracket : b = 0x5B
          · simp only [if_pos hbracket] at hread
            rcases map_eq_ok.mp hread with ⟨items, hitems, hv⟩
            exact Or.inr (Or.inl ⟨items, hbracket, hv.symm, hitems⟩)
          · simp only [if_neg hbracket] at hread
            by_cases hbrace : b = 0x7B
            · simp only [if_pos hbrace] at hread
              rcases map_eq_ok.mp hread with ⟨o, ho, hv⟩
              exact Or.inr (Or.inr ⟨o, hbrace, hv.symm, ho⟩)
            · simp only [if_neg hbrace] at hread
              cases hread

theorem foundValue_ne_object {b : UInt8} {found : Found} {tail : List UInt8}
    {members : List (String × Value)} (hscalar : scalar b tail = .ok (some found) rest) :
    foundValue found ≠ .object members := by
  have hmap := (yields_scalar b tail (some found) rest hscalar).2
  cases found with
  | map => exact absurd rfl hmap
  | _ => simp [foundValue]

def putMember (depth : Nat) (o : Object) (key : String) : Reader Object := do
  let v ← memberValue key (value depth)
  pure (o.insert key v)

theorem object_eq_ok {depth : Nat} {members : List (String × Value)}
    (hread : value (depth + 1) input = .ok (.object members) rest) :
    exists (o : Object) (tail middle : List UInt8), members = o.members ∧
      unblanked input = 0x7B :: tail ∧
      membersFrom (putMember depth) Object.empty true (tail.length + 1) tail = .ok o middle ∧
      closeObject middle = .ok () rest := by
  rcases value_eq_ok hread with
    ⟨b, tail, hinput, ⟨found, hscalar, hv⟩ | ⟨items, _, hv, _⟩ | ⟨o, rfl, hv, hbody⟩⟩
  · exact absurd hv.symm (foundValue_ne_object hscalar)
  · cases hv
  · cases hv
    unfold objectBody at hbody
    rw [advance_bind] at hbody
    rcases enclosed_eq_ok.mp hbody with ⟨middle, hmembers, hclose⟩
    exact ⟨o, tail, middle, rfl, hinput, hmembers, hclose⟩

def unlessNull : Value → Option Value
  | .null => none
  | v => some v

theorem optional_value {depth : Nat} {v : Value} (hread : value (depth + 1) input = .ok v rest) :
    optional (value (depth + 1)) input = .ok (unlessNull v) rest := by
  rcases value_eq_ok hread with ⟨b, tail, hinput, hv⟩
  rw [optional_eq, hinput]
  by_cases hnull : b = 0x6E
  · subst hnull
    rw [List.head?_cons, if_pos rfl, advance_bind]
    rcases hv with ⟨found, hscalar, rfl⟩ | ⟨items, hb, _⟩ | ⟨members, hb, _⟩
    · change (nullTail >>= fun _ => pure (some Found.null)) tail = _ at hscalar
      rcases bind_eq_ok.mp hscalar with ⟨_, middle, hword, hfound⟩
      cases hfound
      rw [bind_of_ok hword]
      rfl
    · cases hb
    · cases hb
  · have hhead : (b :: tail).head? ≠ some 0x6E := fun h => hnull (Option.some.inj h)
    have hnot : unlessNull v = some v := by
      rcases hv with ⟨found, hscalar, rfl⟩ | ⟨items, _, rfl, _⟩ | ⟨members, _, rfl, _⟩
      · have hfound := (yields_scalar b (b :: tail) (some found) rest hscalar).1
        cases found with
        | null => exact absurd (hfound rfl) hnull
        | _ => rfl
      · rfl
      · rfl
    rw [if_neg hhead, ← hinput, hnot]
    exact map_eq_ok.mpr ⟨v, by rw [value_unblanked]; exact hread, rfl⟩

/-!
# Readings in step
-/

/-- Three readings of the members of one object stay in step if each of their steps does. -/
theorem membersFrom_inStep {one : σ → String → Reader σ} {two : τ → String → Reader τ}
    {three : υ → String → Reader υ} {Agree : σ → τ → υ → Prop}
    (hstep : forall {s t u key input s' t' u' rest rest₂ rest₃}, Agree s t u ->
      one s key input = .ok s' rest -> two t key input = .ok t' rest₂ ->
        three u key input = .ok u' rest₃ -> rest₂ = rest ∧ rest₃ = rest ∧ Agree s' t' u')
    (bound : Nat) {s s' : σ} {t t' : τ} {u u' : υ} {isFirst : Bool}
    {input rest rest₂ rest₃ : List UInt8} (hagree : Agree s t u)
    (hone : membersFrom one s isFirst bound input = .ok s' rest)
    (htwo : membersFrom two t isFirst bound input = .ok t' rest₂)
    (hthree : membersFrom three u isFirst bound input = .ok u' rest₃) :
    rest₂ = rest ∧ rest₃ = rest ∧ Agree s' t' u' := by
  induction bound generalizing s t u isFirst input with
  | zero => cases hone
  | succ bound ih =>
      unfold membersFrom at hone htwo hthree
      rcases bind_eq_ok.mp hone with ⟨found, named, hfound, hone⟩
      rw [bind_of_ok hfound] at htwo hthree
      cases found with
      | none =>
          cases hone
          cases htwo
          cases hthree
          exact ⟨rfl, rfl, hagree⟩
      | some key =>
          rcases bind_eq_ok.mp hone with ⟨s₁, after, hs, hone⟩
          rcases bind_eq_ok.mp htwo with ⟨t₁, after₂, ht, htwo⟩
          rcases bind_eq_ok.mp hthree with ⟨u₁, after₃, hu, hthree⟩
          rcases hstep hagree hs ht hu with ⟨rfl, rfl, hagree⟩
          exact ih hagree hone htwo hthree

theorem membersFrom_agree {one : σ → String → Reader σ} {two : τ → String → Reader τ}
    {Agree : σ → τ → Prop}
    (hstep : forall {s t key input s' t' rest rest₂}, Agree s t ->
      one s key input = .ok s' rest -> two t key input = .ok t' rest₂ ->
        rest₂ = rest ∧ Agree s' t')
    (bound : Nat) {s s' : σ} {t t' : τ} {isFirst : Bool} {input rest rest₂ : List UInt8}
    (hagree : Agree s t) (hone : membersFrom one s isFirst bound input = .ok s' rest)
    (htwo : membersFrom two t isFirst bound input = .ok t' rest₂) :
    rest₂ = rest ∧ Agree s' t' := by
  let Both : σ → τ → τ → Prop := fun s t u => Agree s t ∧ t = u
  have hboth : forall {s t u key input s' t' u' rest rest₂ rest₃}, Both s t u ->
      one s key input = .ok s' rest -> two t key input = .ok t' rest₂ ->
        two u key input = .ok u' rest₃ -> rest₂ = rest ∧ rest₃ = rest ∧ Both s' t' u' := by
    rintro s t u key input s' t' u' rest rest₂ rest₃ ⟨hagree, rfl⟩ hone htwo hthree
    rw [htwo] at hthree
    cases hthree
    rcases hstep hagree hone htwo with ⟨hrest, hagree⟩
    exact ⟨hrest, hrest, hagree, rfl⟩
  have hstart : Both s t t := ⟨hagree, rfl⟩
  rcases membersFrom_inStep hboth bound hstart hone htwo htwo with ⟨hrest, _, hend⟩
  exact ⟨hrest, hend.left⟩

/-!
# Objects with one member
-/

theorem value_of_object {depth : Nat} {o : Object} {tail middle : List UInt8}
    (hinput : unblanked input = 0x7B :: tail)
    (hmembers : membersFrom (putMember depth) Object.empty true (tail.length + 1) tail =
      .ok o middle)
    (hclose : closeObject middle = .ok () rest) :
    value (depth + 1) input = .ok (.object o.members) rest := by
  have hbody : objectBody (value depth) (0x7B :: tail) = .ok o rest := by
    unfold objectBody
    rw [advance_bind]
    exact enclosed_eq_ok.mpr ⟨middle, hmembers, hclose⟩
  unfold value valueOf onValue
  rw [next_bind, hinput]
  simp only [List.head?_cons]
  have hscalar : scalar 0x7B (0x7B :: tail) = .ok none (0x7B :: tail) := rfl
  rw [bind_of_ok hscalar]
  exact map_eq_ok.mpr ⟨o, hbody, rfl⟩

theorem nextKey_first {quoted : List UInt8} {key : String}
    (hinput : unblanked input = 0x22 :: quoted) (hkey : stringTail quoted = .ok key rest) :
    nextKey true input = .ok (some key) rest := by
  apply within_eq_ok.mpr
  have hmore : moreMembers true input = .ok true (0x22 :: quoted) := by
    unfold moreMembers
    rw [next_bind, hinput]
    rfl
  rw [bind_of_ok hmore]
  simp only [if_true]
  rw [advance_bind, bind_of_ok hkey]
  rfl

theorem nextKey_closed (isFirst : Bool) {tail : List UInt8}
    (hinput : unblanked input = 0x7D :: tail) :
    nextKey isFirst input = .ok none (0x7D :: tail) := by
  apply within_eq_ok.mpr
  have hmore : moreMembers isFirst input = .ok false (0x7D :: tail) := by
    unfold moreMembers
    rw [next_bind, hinput]
    rfl
  rw [bind_of_ok hmore]
  rfl

theorem value_of_member {depth : Nat} {tail quoted named entered after : List UInt8}
    {key : String} {v : Value} (hinput : unblanked input = 0x7B :: tail)
    (hquoted : unblanked tail = 0x22 :: quoted) (hkey : stringTail quoted = .ok key named)
    (hcolon : colon named = .ok () entered) (hvalue : value depth entered = .ok v after)
    (hclosed : unblanked after = 0x7D :: rest) :
    value (depth + 1) input = .ok (.object [(key, v)]) rest := by
  have hmember : putMember depth Object.empty key named =
      .ok (Object.empty.insert key v) after := by
    have hread : memberValue key (value depth) named = .ok v after := by
      unfold memberValue
      rw [bind_of_ok hcolon]
      exact within_eq_ok.mpr hvalue
    unfold putMember
    rw [bind_of_ok hread]
    rfl
  have hlast : forall bound, membersFrom (putMember depth) (Object.empty.insert key v) false
      (bound + 1) after = .ok (Object.empty.insert key v) (0x7D :: rest) := by
    intro bound
    unfold membersFrom
    rw [bind_of_ok (nextKey_closed false hclosed)]
    rfl
  have hmembers : membersFrom (putMember depth) Object.empty true (tail.length + 1) tail =
      .ok (Object.empty.insert key v) (0x7D :: rest) := by
    have hlength := length_unblanked_le tail
    rw [hquoted, List.length_cons] at hlength
    have hbound : tail.length = tail.length - 1 + 1 := by omega
    unfold membersFrom
    rw [bind_of_ok (nextKey_first hquoted hkey)]
    simp only
    rw [bind_of_ok hmember, hbound]
    exact hlast _
  refine value_of_object hinput hmembers ?_
  unfold closeObject
  rw [next_bind]
  rfl

end Reader

/-!
# Objects as records
-/

namespace Record

open Reader

variable {σ : Type} {record : Record σ} {input rest : List UInt8}

theorem mem_of_find? {key : String} {m : Member σ} (hfind : record.find? key = some m) :
    m ∈ record.known ∧ m.name = key := by
  refine ⟨List.mem_of_find?_eq_some hfind, ?_⟩
  have h := List.find?_some hfind
  simpa using h

theorem member_eq_ok {depth : Nat} {progress progress' : Progress σ} {key : String}
    (hread : record.member depth progress key input = .ok progress' rest) :
    exists entered, colon input = .ok () entered ∧
      ((record.find? key = none ∧ skip entered = .ok () rest ∧ progress' = progress) ∨
        exists m put, record.find? key = some m ∧ m.read depth entered = .ok put rest ∧
          progress'.state = put progress.state) := by
  unfold Record.member at hread
  cases hfind : record.find? key with
  | none =>
      simp only [hfind] at hread
      rcases bind_eq_ok.mp hread with ⟨_, middle, hvalue, hread⟩
      cases hread
      rcases bind_eq_ok.mp hvalue with ⟨_, entered, hcolon, hskip⟩
      exact ⟨entered, hcolon, Or.inl ⟨rfl, within_eq_ok.mp hskip, rfl⟩⟩
  | some m =>
      simp only [hfind] at hread
      split at hread
      · cases hread
      · rcases bind_eq_ok.mp hread with ⟨put, middle, hvalue, hread⟩
        cases hread
        rcases bind_eq_ok.mp hvalue with ⟨_, entered, hcolon, hm⟩
        exact ⟨entered, hcolon, Or.inr ⟨m, put, rfl, within_eq_ok.mp hm, rfl⟩⟩

theorem read_eq_ok_of_object {depth : Nat} {tail : List UInt8} {state : σ}
    (hinput : unblanked input = 0x7B :: tail)
    (hread : record.read (depth + 1) input = .ok state rest) :
    exists progress middle,
      membersFrom (record.member depth) ⟨record.start, []⟩ true (tail.length + 1) tail =
        .ok progress middle ∧
      progress.state = state ∧ closeObject middle = .ok () rest := by
  unfold read onValue at hread
  rw [next_bind, hinput] at hread
  change (record.objectBody depth) (0x7B :: tail) = _ at hread
  unfold objectBody at hread
  rw [advance_bind] at hread
  rcases enclosed_eq_ok.mp hread with ⟨middle, hbody, hclose⟩
  rcases bind_eq_ok.mp hbody with ⟨progress, last, hmembers, hcomplete⟩
  unfold complete at hcomplete
  cases hmissing : record.known.find? fun m => !m.mayLack && m.name ∉ progress.seen with
  | some m =>
      rw [hmissing] at hcomplete
      cases hcomplete
  | none =>
      rw [hmissing] at hcomplete
      cases hcomplete
      exact ⟨progress, middle, hmembers, rfl, hclose⟩

end Record
end Json
end Gatekeeper
