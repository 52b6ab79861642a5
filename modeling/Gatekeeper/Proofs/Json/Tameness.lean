import Gatekeeper.Proofs.Json.Locality

/-!
# Typed readings of a value

A typed reading takes one value of the grammar, whatever blanks are before it, and
takes it alike wherever it stands.
-/

namespace Gatekeeper
namespace Json
namespace Reader

open Skip

variable {input rest : List UInt8}

/-- The reader takes one value, and only that value tells what is read. -/
structure Tame (reader : Reader α) : Prop where
  grasps : Grasps Ended reader
  passed : forall input a rest, reader input = .ok a rest -> skip input = .ok () rest
  unhurried : forall input, reader (unblanked input) = reader input

def Gives (reader : Reader α) (v : List UInt8) (a : α) : Prop :=
  forall blanks rest, Blanks blanks -> Ended rest ->
    reader (blanks ++ (v ++ rest)) = .ok a rest

theorem Tame.skips {reader : Reader α} (htame : Tame reader) {blanks v rest' : List UInt8} {a : α}
    (hblanks : Blanks blanks) (hv : IsValue v) (hended : Ended rest)
    (hread : reader (blanks ++ (v ++ rest)) = .ok a rest') : rest' = rest := by
  have hskip := htame.passed _ _ _ hread
  rw [skip_of_isValue hblanks hv hended] at hskip
  cases hskip
  rfl

theorem Tame.gives {reader : Reader α} (htame : Tame reader) {blanks v rest' : List UInt8} {a : α}
    (hblanks : Blanks blanks) (hv : IsValue v) (hended : Ended rest)
    (hread : reader (blanks ++ (v ++ rest)) = .ok a rest') : Gives reader v a := by
  have hrest := htame.skips hblanks hv hended hread
  rw [hrest] at hread
  rcases htame.grasps hread with ⟨taken, _, hinput, hsame⟩
  rw [← List.append_assoc] at hinput
  rw [← List.append_cancel_right hinput] at hsame
  intro others after hothers hafter
  have hsolid : forall {some : List UInt8}, Blanks some ->
      reader (some ++ (v ++ after)) = reader (v ++ after) := by
    intro some hsome
    rw [← htame.unhurried, unblanked_append hsome, hv.unblanked_eq]
  rw [hsolid hothers, ← hsolid hblanks, ← List.append_assoc]
  exact hsame after hafter

theorem Gives.map {reader : Reader α} {v : List UInt8} {a : α} (hgives : Gives reader v a)
    (f : α → β) : Gives (f <$> reader) v (f a) :=
  fun lead rest hlead hrest => map_eq_ok.mpr ⟨a, hgives lead rest hlead hrest, rfl⟩

theorem Gives.unique {reader : Reader α} {v : List UInt8} {a b : α} (ha : Gives reader v a)
    (hb : Gives reader v b) : a = b := by
  have hread := ha [] [] blanks_nil ended_nil
  rw [hb [] [] blanks_nil ended_nil] at hread
  cases hread
  rfl

/-!
# Fronts of texts
-/

/-- After blanks the text starts with the value. -/
structure StartsWith (text v rest : List UInt8) : Prop where
  value : IsValue v
  split : exists blanks, Blanks blanks ∧ text = blanks ++ (v ++ rest)

section Fronts

variable {reader : Reader α} {a : α} {text v : List UInt8}

theorem Tame.front (htame : Tame reader) (hsealed : Grasps Anything reader)
    (hstarts : StartsWith text v rest) (hread : reader.outcome v = .ok a) :
    reader text = .ok a rest := by
  rcases hstarts with ⟨hv, blanks, hblanks, rfl⟩
  rcases Reader.outcome_eq_ok.mp hread with ⟨left, hread⟩
  have hwhole : reader ([] ++ (v ++ [])) = .ok a left := by
    rw [List.nil_append, List.append_nil]
    exact hread
  rw [htame.skips blanks_nil hv ended_nil hwhole] at hread
  rcases hsealed hread with ⟨taken, _, htaken, hsame⟩
  rw [List.append_nil] at htaken
  rw [← htame.unhurried, unblanked_append hblanks, hv.unblanked_eq, htaken]
  exact hsame rest trivial

/-- A reading that nothing after it can change is that of the value in front. -/
theorem Tame.outcome_eq_ok_iff (htame : Tame reader) (hsealed : Grasps Anything reader) :
    reader.outcome text = .ok a <->
      exists v rest, StartsWith text v rest ∧ reader.outcome v = .ok a := by
  constructor
  · intro hread
    rcases outcome_eq_ok.mp hread with ⟨rest, hread⟩
    rcases (extent_of_skip (htame.passed _ _ _ hread)).value with ⟨blanks, v, hblanks, hv, rfl⟩
    rcases hsealed hread with ⟨taken, _, hinput, hsame⟩
    rw [← List.append_assoc] at hinput
    have halone := hsame [] trivial
    rw [← List.append_cancel_right hinput, List.append_nil, ← htame.unhurried,
      unblanked_append hblanks, htame.unhurried] at halone
    exact ⟨v, rest, ⟨hv, blanks, hblanks, rfl⟩, outcome_eq_ok.mpr ⟨[], halone⟩⟩
  · rintro ⟨v, rest, hstarts, hread⟩
    exact outcome_eq_ok.mpr ⟨rest, htame.front hsealed hstarts hread⟩

/-- A text that is read by its front is a document exactly if only blanks are left. -/
theorem Tame.isDocument_iff (htame : Tame reader) (hsealed : Grasps Anything reader)
    (hstarts : StartsWith text v rest) (hread : reader.outcome v = .ok a) :
    IsDocument text <-> Blanks rest := by
  constructor
  · rintro ⟨blanks, other, trail, hblanks, hother, htrail, rfl⟩
    have hended : Ended trail := by
      rw [← List.append_nil trail]
      exact ended_append htrail ended_nil
    have hskip := htame.passed _ _ _ (htame.front hsealed hstarts hread)
    rw [skip_of_isValue hblanks hother hended] at hskip
    cases hskip
    exact htrail
  · intro hrest
    rcases hstarts with ⟨hv, blanks, hblanks, rfl⟩
    exact ⟨blanks, v, rest, hblanks, hv, hrest, rfl⟩

theorem StartsWith.append (hstarts : StartsWith text v rest) (more : List UInt8) :
    StartsWith (text ++ more) v (rest ++ more) := by
  rcases hstarts with ⟨hv, blanks, hblanks, rfl⟩
  exact ⟨hv, blanks, hblanks, by simp only [List.append_assoc]⟩

theorem Tame.outcome_append (htame : Tame reader) (hsealed : Grasps Anything reader)
    (hread : reader.outcome text = .ok a) (more : List UInt8) :
    reader.outcome (text ++ more) = .ok a := by
  rcases (htame.outcome_eq_ok_iff hsealed).mp hread with ⟨v, rest, hstarts, hv⟩
  exact (htame.outcome_eq_ok_iff hsealed).mpr ⟨v, rest ++ more, hstarts.append more, hv⟩

end Fronts

/-!
# Readings of one type
-/

theorem unhurried_onValue (read : UInt8 → Reader α) (input : List UInt8) :
    onValue read (unblanked input) = onValue read input := by
  unfold onValue
  rw [next_bind, next_bind, unblanked_unblanked]

theorem Tame.map {reader : Reader α} (htame : Tame reader) (f : α → β) : Tame (f <$> reader) where
  grasps := htame.grasps.map f
  passed := by
    intro input b rest hread
    rcases map_eq_ok.mp hread with ⟨a, ha, _⟩
    exact htame.passed _ _ _ ha
  unhurried := by
    intro input
    simp only [Functor.map, EStateM.map, htame.unhurried]

theorem Tame.optional {reader : Reader α} (htame : Tame reader) : Tame (optional reader) where
  grasps := grasps_optional htame.grasps
  passed := by
    intro input found rest hread
    rcases optional_eq_ok hread with ⟨tail, hinput, hword, _⟩ | ⟨a, _, ha⟩
    · exact skip_of_value (value_of_null 0 hinput hword)
    · rw [htame.unhurried] at ha
      exact htame.passed _ _ _ ha
  unhurried := by
    intro input
    rw [optional_eq, optional_eq, unblanked_unblanked]

theorem tame_string : Tame string where
  grasps := grasps_string
  passed := fun _ _ _ hread => skip_of_value (value_of_string 0 hread)
  unhurried := unhurried_onValue _

theorem tame_uint64 : Tame uint64 where
  grasps := grasps_uint64
  passed := by
    intro input n rest hread
    rcases map_eq_ok.mp hread with ⟨m, hm, _⟩
    rcases number_eq_ok (integerWithin_eq_ok hm).left with ⟨b, tail, hinput, hscalar⟩
    exact skip_of_value (value_of_scalar 0 hinput hscalar)
  unhurried := by
    intro input
    have hnumber : number "u64" (unblanked input) = number "u64" input := unhurried_onValue _ input
    simp only [uint64, integerWithin, Functor.map, EStateM.map, Bind.bind, EStateM.bind, hnumber]

theorem tame_strings (depth : Nat) : Tame (strings depth) where
  grasps := grasps_strings depth
  passed := fun _ _ _ hread => skip_of_passes
    (passes_of_list (fun _ _ _ _ h => passes_of_value 0 (value_of_string 0 h)) hread)
  unhurried := unhurried_onValue _

theorem onValue_eq_ok_iff {read : UInt8 → Reader α} {a : α} :
    onValue read input = .ok a rest <->
      exists b tail, unblanked input = b :: tail ∧ read b (b :: tail) = .ok a rest := by
  unfold onValue
  rw [next_bind]
  cases hinput : unblanked input with
  | nil =>
      constructor
      · intro h
        cases h
      · rintro ⟨b, tail, htail, _⟩
        cases htail
  | cons b tail =>
      constructor
      · intro h
        exact ⟨b, tail, rfl, h⟩
      · rintro ⟨_, _, hsame, h⟩
        cases hsame
        exact h

theorem objectBody_eq_ok_iff {reader : Reader Value} {b : UInt8} {tail : List UInt8} {o : Object} :
    objectBody reader (b :: tail) = .ok o rest <-> exists middle,
      membersFrom (fun o key => do
        let v ← memberValue key reader
        pure (o.insert key v)) Object.empty true (tail.length + 1) tail = .ok o middle ∧
          closeObject middle = .ok () rest := by
  unfold objectBody
  rw [advance_bind]
  exact enclosed_eq_ok

theorem not_object_of_shallow {members : List (String × Value)} :
    value 0 input ≠ .ok (.object members) rest := by
  intro hread
  rcases onValue_eq_ok_iff.mp hread with ⟨b, tail, hinput, hread⟩
  rcases bind_eq_ok.mp hread with ⟨found, middle, hscalar, hread⟩
  cases found with
  | none =>
      simp only at hread
      split at hread
      · cases hread
      split at hread
      · cases hread
      · cases hread
  | some found =>
      have hne : foundValue found ≠ .object members := foundValue_ne_object hscalar
      cases found <;> cases hread
      exact absurd rfl hne

theorem object_eq_ok_iff {depth : Nat} {o : Object} :
    object depth input = .ok o rest <-> value depth input = .ok (.object o.members) rest := by
  constructor
  · intro hread
    rcases onValue_eq_ok_iff.mp hread with ⟨b, tail, hinput, hread⟩
    by_cases hbrace : b = 0x7B
    · rw [if_pos hbrace] at hread
      subst hbrace
      cases depth with
      | zero => cases hread
      | succ depth =>
          rcases objectBody_eq_ok_iff.mp hread with ⟨middle, hmembers, hclose⟩
          exact value_of_object hinput hmembers hclose
    · rw [if_neg hbrace] at hread
      exact absurd hread not_mismatch
  · intro hread
    cases depth with
    | zero => exact absurd hread not_object_of_shallow
    | succ depth =>
        rcases object_eq_ok hread with ⟨o', tail, middle, heq, hinput, hmembers, hclose⟩
        rw [Object.ext heq]
        exact onValue_eq_ok_iff.mpr
          ⟨0x7B, tail, hinput, objectBody_eq_ok_iff.mpr ⟨middle, hmembers, hclose⟩⟩

theorem tame_object (depth : Nat) : Tame (object depth) where
  grasps := grasps_object depth
  passed := fun _ _ _ hread => skip_of_value (object_eq_ok_iff.mp hread)
  unhurried := unhurried_onValue _

end Reader

/-!
# Records
-/

namespace Record

open Reader Skip

variable {σ : Type} {record : Record σ} {input rest : List UInt8}

def Tame (record : Record σ) : Prop :=
  forall m, m ∈ record.known -> forall depth, Reader.Tame (m.read depth)

theorem Tame.graspable (htame : record.Tame) : record.Graspable :=
  fun m hm depth => (htame m hm depth).grasps

theorem passes_member (htame : record.Tame) {depth : Nat} {progress progress' : Progress σ}
    {key : String} (hread : record.member depth progress key input = .ok progress' rest) :
    exists entered, colon input = .ok () entered ∧ Passes entered rest := by
  rcases member_eq_ok hread with ⟨entered, hcolon, ⟨_, hskip, _⟩ | ⟨m, put, hfind, hput, _⟩⟩
  · exact ⟨entered, hcolon, (extent_of_skip hskip).passes⟩
  · have hskip := (htame m (mem_of_find? hfind).left depth).passed _ _ _ hput
    exact ⟨entered, hcolon, (extent_of_skip hskip).passes⟩

theorem passesWithin_listMembers {depth : Nat} {known : List (Member σ)}
    (htame : forall m, m ∈ known -> forall depth, Reader.Tame (m.read depth)) {i : Nat}
    {state state' : σ} {middle : List UInt8}
    (hread : record.listMembers depth known i state input = .ok state' middle)
    (hclose : closeList middle = .ok () rest) : PassesWithin (i = 0) .list input rest := by
  induction known generalizing i state input with
  | nil =>
      cases hread
      exact passesWithin_closed _ (closeList_eq_ok_iff.mp hclose)
  | cons m known ih =>
      rcases List.forall_mem_cons.mp htame with ⟨hm, htame⟩
      unfold listMembers at hread
      rcases bind_eq_ok.mp hread with ⟨more, entered, hmore, hread⟩
      rcases moreElements_eq_ok hmore with
        ⟨rfl, rfl, tail, htail⟩ | ⟨rfl, hfirst, rfl, b, tail, htail, hb⟩ |
          ⟨rfl, hlater, tail, htail, rfl⟩
      · simp only [Bool.false_eq_true, if_false] at hread
        rcases still_listEnd (m :: known) i state hread with ⟨rfl, _⟩
        rw [closeList_eq_ok_iff, unblanked_unblanked] at hclose
        exact passesWithin_closed _ hclose
      all_goals
        simp only [if_true] at hread
        rcases bind_eq_ok.mp hread with ⟨put, after, hput, hothers⟩
        have hskip := (hm depth).passed _ _ _ (within_eq_ok.mp hput)
        have hpasses := (extent_of_skip hskip).passes
        have hwithin : PassesWithin false .list after rest := by
          have h := ih htame hothers
          simpa using h
      · refine hpasses.before hwithin (length_unblanked_le input) fun bound frames => ?_
        rw [hfirst]
        have hopen : b ≠ Frame.list.closer := hb
        have hunwind := unwind_first htail hopen frames
        rw [← htail] at hunwind
        exact settle_of_entry hunwind rfl _
      · have hlength := length_unblanked_le input
        rw [htail, List.length_cons] at hlength
        have hafter := length_unblanked_le tail
        refine hpasses.before hwithin (by omega) fun bound frames => ?_
        rw [hlater, rounds_unblanked]
        exact settle_of_entry (unwind_comma htail frames) rfl _

theorem passes_of_read (htame : record.Tame) {depth : Nat} {state : σ}
    (hread : record.read depth input = .ok state rest) : Passes input rest := by
  have hlength := length_unblanked_le input
  have hall := hread
  rcases onValue_eq_ok_iff.mp hread with ⟨b, tail, hinput, hread⟩
  rw [hinput, List.length_cons] at hlength
  by_cases hbrace : b = 0x7B
  · rw [if_pos hbrace] at hread
    cases depth with
    | zero => cases hread
    | succ depth =>
        rw [hbrace] at hinput
        rcases read_eq_ok_of_object hinput hall with ⟨progress, middle, hmembers, _, hclose⟩
        exact passes_of_container (opening_of_container hinput (Or.inr ⟨rfl, rfl⟩)) (by omega)
          (passesWithin_members (fun _ _ _ _ _ h => passes_member htame h) _ hmembers hclose)
  · rw [if_neg hbrace] at hread
    by_cases hbracket : b = 0x5B
    · rw [if_pos hbracket] at hread
      cases depth with
      | zero => cases hread
      | succ depth =>
          change record.listBody depth (b :: tail) = _ at hread
          unfold listBody at hread
          rw [advance_bind] at hread
          rcases enclosed_eq_ok.mp hread with ⟨middle, hmembers, hclose⟩
          exact passes_of_container (opening_of_container hinput (Or.inl ⟨hbracket, rfl⟩))
            (by omega) (passesWithin_listMembers htame hmembers hclose)
    · rw [if_neg hbracket] at hread
      exact absurd hread not_mismatch

theorem tame_read (htame : record.Tame) (depth : Nat) : Reader.Tame (record.read depth) where
  grasps := grasps_read htame.graspable depth
  passed := fun _ _ _ hread => skip_of_passes (passes_of_read htame hread)
  unhurried := unhurried_onValue _

end Record

theorem Member.tame_free {reader : Nat → Reader α}
    (hreader : forall depth, Reader.Tame (reader depth)) (name : String) (put : α → σ → σ)
    (depth : Nat) : Reader.Tame ((Member.free name reader put).read depth) :=
  (hreader depth).map put

end Json
end Gatekeeper
