import Gatekeeper.Proofs.Json.PrintedRecords
import Gatekeeper.Proofs.Json.Tameness

/-!
# Objects as they are written

An object that is read as a record is a list of written members.  What is read of it
is what the members bring, one after the other: nothing if the name is unknown, and
otherwise what the value says, if the name has not come before.
-/

namespace Gatekeeper
namespace Json

open Reader Skip

/-!
# Written members
-/

/-- A member of an object with the blanks around its parts. -/
structure Written where
  lead : List UInt8
  name : List UInt8
  mid : List UInt8
  gap : List UInt8
  value : List UInt8
  trail : List UInt8
  blankLead : Blanks lead
  blankMid : Blanks mid
  blankGap : Blanks gap
  blankTrail : Blanks trail
  quotable : Quotable name
  isValue : IsValue value

namespace Written

def HasKey (m : Written) (key : String) : Prop :=
  Spells m.name (Utf8.encode key)

def front (m : Written) : List UInt8 :=
  m.lead ++ 0x22 :: (m.name ++ 0x22 :: (m.mid ++ 0x3A :: m.gap))

def item (m : Written) : Item :=
  ⟨m.front, m.value, m.trail⟩

def core (m : Written) : List UInt8 × List UInt8 :=
  (m.name, m.value)

theorem hasFront (m : Written) : Front .object m.front :=
  Front.object m.blankLead m.quotable m.blankMid m.blankGap

def tight (key : String) (hkey : forall b, b ∈ Utf8.encode key -> IsPlain b) {value : List UInt8}
    (hvalue : IsValue value) : Written :=
  ⟨[], Utf8.encode key, [], [], value, [], blanks_nil, blanks_nil, blanks_nil, blanks_nil,
    (spells_of_plain hkey).quotable, hvalue⟩

theorem hasKey_tight {key : String} (hkey : forall b, b ∈ Utf8.encode key -> IsPlain b)
    {value : List UInt8} (hvalue : IsValue value) : (tight key hkey hvalue).HasKey key :=
  spells_of_plain hkey

theorem HasKey.unique {m : Written} {key other : String} (hkey : m.HasKey key)
    (hother : m.HasKey other) : key = other :=
  Spells.unique hkey hother

end Written

def objectText (ms : List Written) (gap : List UInt8) : List UInt8 :=
  containerText .object (ms.map Written.item) gap

theorem isValue_objectText (ms : List Written) {gap : List UInt8} (hgap : Blanks gap) :
    IsValue (objectText ms gap) := by
  refine .container ?_ ?_ hgap ?_
  · exact List.forall_mem_map.mpr fun m _ => m.hasFront
  · exact List.forall_mem_map.mpr fun m _ => m.blankTrail
  · exact List.forall_mem_map.mpr fun m _ => m.isValue

theorem exists_objectText {v more : List UInt8} (hv : IsValue v) (hbrace : v = 0x7B :: more) :
    exists ms gap, Blanks gap ∧ v = objectText ms gap := by
  cases hv with
  | wordNull => cases hbrace
  | wordTrue => cases hbrace
  | wordFalse => cases hbrace
  | number htext =>
      rcases htext.exists_digit with ⟨d, digits, rfl, hdigit⟩
      rw [(List.cons.inj hbrace).left] at hdigit
      cases hdigit
  | negative => cases hbrace
  | string => cases hbrace
  | @container frame items gap hfronts htrails hgap hvalues =>
      cases frame with
      | list => cases hbrace
      | object =>
          have hwritten : exists ms : List Written, ms.map Written.item = items := by
            clear hbrace
            induction items with
            | nil => exact ⟨[], rfl⟩
            | cons item items ih =>
                rcases List.forall_mem_cons.mp hfronts with ⟨hfront, hfronts⟩
                rcases List.forall_mem_cons.mp htrails with ⟨htrail, htrails⟩
                rcases List.forall_mem_cons.mp hvalues with ⟨hvalue, hvalues⟩
                rcases ih htrails hvalues hfronts with ⟨ms, rfl⟩
                rcases item with ⟨front, value, trail⟩
                cases hfront with
                | @object lead name mid space hlead hname hmid hspace =>
                    exact ⟨⟨lead, name, mid, space, value, trail, hlead, hmid, hspace, htrail,
                      hname, hvalue⟩ :: ms, rfl⟩
          rcases hwritten with ⟨ms, rfl⟩
          exact ⟨ms, gap, hgap, rfl⟩

/-!
# Names that are read
-/

namespace Reader

variable {input rest : List UInt8}

theorem stringTail_of_quotable {name : List UInt8} (hname : Quotable name) {key : String}
    {more : List UInt8} (hread : stringTail (name ++ 0x22 :: more) = .ok key rest) :
    Spells name (Utf8.encode key) ∧ rest = more := by
  rcases stringTail_eq_ok_iff.mp hread with ⟨text, hspells, hsplit⟩
  have hskip := skipString_of_quotable hspells.quotable rest
  rw [← hsplit, skipString_of_quotable hname more] at hskip
  cases hskip
  rw [List.append_cancel_right hsplit]
  exact ⟨hspells, rfl⟩

theorem front_unblanked (m : Written) (after : List UInt8) :
    unblanked (m.front ++ after) =
      0x22 :: (m.name ++ 0x22 :: (m.mid ++ 0x3A :: (m.gap ++ after))) := by
  simp only [Written.front, List.append_assoc, List.cons_append]
  exact unblanked_append_cons m.blankLead rfl _

def mark (isFirst : Bool) (trail : List UInt8) : List UInt8 :=
  if isFirst then [] else trail ++ [0x2C]

theorem nextKey_written_iff {isFirst : Bool} {trail : List UInt8} (htrail : Blanks trail)
    (m : Written) (after : List UInt8) {found : Option String} :
    nextKey isFirst (mark isFirst trail ++ (m.front ++ after)) = .ok found rest <->
      exists key, m.HasKey key ∧ found = some key ∧ rest = m.mid ++ 0x3A :: (m.gap ++ after) := by
  have hquoted := front_unblanked m after
  have hcomma : unblanked (mark false trail ++ (m.front ++ after)) =
      0x2C :: (m.front ++ after) := by
    rw [mark, if_neg (by decide), List.append_assoc]
    exact unblanked_append_cons htrail rfl _
  constructor
  · intro hread
    have hnamed : forall {quoted : List UInt8} {key : String},
        unblanked (m.front ++ after) = 0x22 :: quoted -> stringTail quoted = .ok key rest ->
          m.HasKey key ∧ rest = m.mid ++ 0x3A :: (m.gap ++ after) := by
      intro quoted key hfirst hkey
      rw [hquoted] at hfirst
      rw [← (List.cons.inj hfirst).right] at hkey
      exact stringTail_of_quotable m.quotable hkey
    rcases nextKey_eq_ok hread with
      ⟨_, _, tail, htail⟩ | ⟨key, quoted, hfound, hkey, ⟨rfl, hfirst⟩ | ⟨rfl, tail, htail, hlater⟩⟩
    · cases isFirst with
      | true =>
          rw [mark, if_pos rfl, List.nil_append, hquoted] at htail
          cases htail
      | false =>
          rw [hcomma] at htail
          cases htail
    · rw [mark, if_pos rfl, List.nil_append] at hfirst
      exact ⟨key, (hnamed hfirst hkey).left, hfound, (hnamed hfirst hkey).right⟩
    · rw [hcomma] at htail
      rw [← (List.cons.inj htail).right] at hlater
      exact ⟨key, (hnamed hlater hkey).left, hfound, (hnamed hlater hkey).right⟩
  · rintro ⟨key, hkey, rfl, rfl⟩
    have hread : stringTail (m.name ++ 0x22 :: (m.mid ++ 0x3A :: (m.gap ++ after))) =
        .ok key (m.mid ++ 0x3A :: (m.gap ++ after)) :=
      stringTail_eq_ok_iff.mpr ⟨m.name, hkey, rfl⟩
    cases isFirst with
    | true => exact nextKey_first hquoted hread
    | false => exact nextKey_comma hcomma hquoted hread

end Reader

namespace Record

variable {σ : Type} {record : Record σ} {depth : Nat}

/-!
# What members bring
-/

/-- From one progress to the next by a member: an unknown one changes nothing, and a known one, if
it has not come before, puts what its value says. -/
inductive Steps (record : Record σ) (depth : Nat) (progress : Progress σ) (key : String)
    (v : List UInt8) : Progress σ -> Prop
  | pass (hfind : record.find? key = none) : Steps record depth progress key v progress
  | put {known : Member σ} {put : σ → σ} (hfind : record.find? key = some known)
      (hfresh : key ∉ progress.seen) (hgives : Gives (known.read depth) v put) :
      Steps record depth progress key v ⟨put progress.state, key :: progress.seen⟩

theorem steps_unknown_iff {progress next : Progress σ} {key : String} {v : List UInt8}
    (hfind : record.find? key = none) :
    Steps record depth progress key v next <-> next = progress := by
  constructor
  · intro hstep
    cases hstep with
    | pass => rfl
    | put hknown =>
        rw [hfind] at hknown
        cases hknown
  · rintro rfl
    exact .pass hfind

theorem steps_known_iff {progress next : Progress σ} {key : String} {v : List UInt8}
    {known : Member σ} (hfind : record.find? key = some known) :
    Steps record depth progress key v next <-> key ∉ progress.seen ∧
      exists put, Gives (known.read depth) v put ∧
        next = ⟨put progress.state, key :: progress.seen⟩ := by
  constructor
  · intro hstep
    cases hstep with
    | pass hnone =>
        rw [hfind] at hnone
        cases hnone
    | put hknown hfresh hgives =>
        rw [hfind] at hknown
        cases hknown
        exact ⟨hfresh, _, hgives, rfl⟩
  · rintro ⟨hfresh, put, hgives, rfl⟩
    exact .put hfind hfresh hgives

inductive Brings (record : Record σ) (depth : Nat) :
    Progress σ -> List (List UInt8 × List UInt8) -> σ -> Prop
  | nil {progress : Progress σ} : Brings record depth progress [] progress.state
  | cons {name v : List UInt8} {key : String} {cores : List (List UInt8 × List UInt8)}
      {progress next : Progress σ} {final : σ} (hkey : Spells name (Utf8.encode key))
      (hstep : Steps record depth progress key v next)
      (hrest : Brings record depth next cores final) :
      Brings record depth progress ((name, v) :: cores) final

theorem memberValue_written_iff {reader : Reader α} {a : α} (key : String) (m : Written)
    {after rest : List UInt8} :
    memberValue key reader (m.mid ++ 0x3A :: (m.gap ++ (m.value ++ after))) = .ok a rest <->
      reader (m.gap ++ (m.value ++ after)) = .ok a rest := by
  have hcolon := colon_eq_ok_iff.mpr
    (unblanked_append_cons m.blankMid (b := 0x3A) rfl (m.gap ++ (m.value ++ after)))
  rw [memberValue, bind_of_ok hcolon, within_eq_ok]

theorem member_written_iff (htame : record.Tame) {progress next : Progress σ} {key : String}
    (m : Written) {after rest : List UInt8} (hended : Ended after) :
    record.member depth progress key (m.mid ++ 0x3A :: (m.gap ++ (m.value ++ after))) =
        .ok next rest <->
      rest = after ∧ Steps record depth progress key m.value next := by
  unfold Record.member
  cases hfind : record.find? key with
  | none =>
      have hskip := skip_of_isValue m.blankGap m.isValue hended
      rw [steps_unknown_iff hfind]
      simp only [bind_of_ok ((memberValue_written_iff key m).mpr hskip)]
      constructor
      · intro hread
        cases hread
        exact ⟨rfl, rfl⟩
      · rintro ⟨rfl, rfl⟩
        rfl
  | some known =>
      have hreader := htame known (mem_of_find? hfind).left depth
      rw [steps_known_iff hfind]
      by_cases hseen : key ∈ progress.seen
      · simp only [if_pos hseen]
        constructor
        · intro hread
          cases hread
        · rintro ⟨_, hfresh, _⟩
          exact absurd hseen hfresh
      · simp only [if_neg hseen]
        constructor
        · intro hread
          rcases bind_eq_ok.mp hread with ⟨put, middle, hvalue, hpure⟩
          rw [memberValue_written_iff] at hvalue
          cases hpure
          exact ⟨hreader.skips m.blankGap m.isValue hended hvalue, hseen, put,
            hreader.gives m.blankGap m.isValue hended hvalue, rfl⟩
        · rintro ⟨rfl, _, put, hgives, rfl⟩
          have hvalue := (memberValue_written_iff key m).mpr (hgives _ _ m.blankGap hended)
          rw [bind_of_ok hvalue]
          rfl

def remaining (isFirst : Bool) (trail : List UInt8) (ms : List Written) (after : List UInt8) :
    List UInt8 :=
  match ms with
  | [] => trail ++ after
  | m :: ms => mark isFirst trail ++ (m.front ++ (m.value ++ remaining false m.trail ms after))

theorem following_remaining (trail : List UInt8) (ms : List Written) (after : List UInt8) :
    trail ++ (following ((ms.map Written.item).map Item.text) ++ after) =
      remaining false trail ms after := by
  induction ms generalizing trail with
  | nil => rfl
  | cons m ms ih =>
      rw [List.map_cons, following_cons, remaining, ← ih]
      simp only [mark, Bool.false_eq_true, if_false, List.append_assoc, List.cons_append,
        List.nil_append, Written.item]

theorem separated_remaining (ms : List Written) (after : List UInt8) :
    separated ((ms.map Written.item).map Item.text) ++ after = remaining true [] ms after := by
  cases ms with
  | nil => rfl
  | cons m ms =>
      rw [List.map_cons, separated_cons, remaining, ← following_remaining]
      rfl

theorem ended_remaining {trail : List UInt8} (htrail : Blanks trail) (ms : List Written)
    {after : List UInt8} (hafter : Ended after) : Ended (remaining false trail ms after) := by
  cases ms with
  | nil => exact ended_append htrail hafter
  | cons m ms =>
      rw [remaining, mark, if_neg (by decide), List.append_assoc]
      exact ended_append htrail (ended_cons ⟨rfl, by decide, rfl⟩ _)

theorem membersFrom_cons_iff (htame : record.Tame) {isFirst : Bool} {trail : List UInt8}
    (htrail : Blanks trail) (m : Written) {after rest : List UInt8} (hended : Ended after)
    {progress final : Progress σ} {bound : Nat} :
    membersFrom (record.member depth) progress isFirst (bound + 1)
        (mark isFirst trail ++ (m.front ++ (m.value ++ after))) = .ok final rest <->
      exists key next, m.HasKey key ∧ Steps record depth progress key m.value next ∧
        membersFrom (record.member depth) next false bound after = .ok final rest := by
  rw [membersFrom]
  constructor
  · intro hread
    rcases bind_eq_ok.mp hread with ⟨found, named, hnext, hread⟩
    rcases (nextKey_written_iff htrail m _).mp hnext with ⟨key, hkey, rfl, rfl⟩
    rcases bind_eq_ok.mp hread with ⟨next, middle, hmember, hothers⟩
    rcases (member_written_iff htame m hended).mp hmember with ⟨rfl, hstep⟩
    exact ⟨key, next, hkey, hstep, hothers⟩
  · rintro ⟨key, next, hkey, hstep, hothers⟩
    rw [bind_of_ok ((nextKey_written_iff htrail m _).mpr ⟨key, hkey, rfl, rfl⟩)]
    exact bind_eq_ok.mpr
      ⟨next, after, (member_written_iff htame m hended).mpr ⟨rfl, hstep⟩, hothers⟩

theorem membersFrom_written_iff (htame : record.Tame) {gap rest rest' : List UInt8}
    (hgap : Blanks gap) (ms : List Written) {isFirst : Bool} {trail : List UInt8}
    (htrail : Blanks trail) {bound : Nat} (hbound : ms.length < bound) {progress : Progress σ}
    {state : σ} :
    (exists final, membersFrom (record.member depth) progress isFirst bound
        (remaining isFirst trail ms (gap ++ 0x7D :: rest)) = .ok final rest' ∧
          final.state = state) <->
      rest' = 0x7D :: rest ∧ Brings record depth progress (ms.map Written.core) state := by
  induction ms generalizing isFirst trail bound progress with
  | nil =>
      rcases Nat.exists_eq_add_one_of_ne_zero (Nat.ne_zero_of_lt hbound) with ⟨less, rfl⟩
      have hclosed : unblanked (trail ++ (gap ++ 0x7D :: rest)) = 0x7D :: rest := by
        rw [unblanked_append htrail]
        exact unblanked_append_cons hgap rfl rest
      rw [remaining, membersFrom, bind_of_ok (nextKey_closed isFirst hclosed)]
      constructor
      · rintro ⟨final, hread, rfl⟩
        cases hread
        exact ⟨rfl, .nil⟩
      · rintro ⟨rfl, hbrings⟩
        cases hbrings
        exact ⟨progress, rfl, rfl⟩
  | cons m ms ih =>
      rcases Nat.exists_eq_add_one_of_ne_zero (Nat.ne_zero_of_lt hbound) with ⟨less, rfl⟩
      have hshorter : ms.length < less := Nat.lt_of_succ_lt_succ hbound
      have hended : Ended (remaining false m.trail ms (gap ++ 0x7D :: rest)) :=
        ended_remaining m.blankTrail ms (ended_append hgap (ended_cons ⟨rfl, by decide, rfl⟩ rest))
      rw [remaining]
      constructor
      · rintro ⟨final, hread, hfinal⟩
        rcases (membersFrom_cons_iff htame htrail m hended).mp hread with
          ⟨key, next, hkey, hstep, hothers⟩
        rcases (ih m.blankTrail hshorter).mp ⟨final, hothers, hfinal⟩ with ⟨hrest, hbrings⟩
        exact ⟨hrest, .cons hkey hstep hbrings⟩
      · rintro ⟨hrest, hbrings⟩
        cases hbrings with
        | cons hkey hstep hbrings =>
            rcases (ih m.blankTrail hshorter).mpr ⟨hrest, hbrings⟩ with ⟨final, hothers, hfinal⟩
            exact ⟨final, (membersFrom_cons_iff htame htrail m hended).mpr
              ⟨_, _, hkey, hstep, hothers⟩, hfinal⟩

theorem length_le_remaining (isFirst : Bool) (trail : List UInt8) (ms : List Written)
    (after : List UInt8) : ms.length ≤ (remaining isFirst trail ms after).length := by
  induction ms generalizing isFirst trail with
  | nil => exact Nat.zero_le _
  | cons m ms ih =>
      have hrest := ih false m.trail
      simp only [remaining, Written.front, List.length_append, List.length_cons]
      omega

def Lenient (record : Record σ) : Prop :=
  forall m, m ∈ record.known -> m.mayLack = true

/-- An object is read as a record exactly if its members lead from the start somewhere. -/
theorem read_written_iff (htame : record.Tame) (hlenient : record.Lenient) {lead gap : List UInt8}
    (hlead : Blanks lead) (hgap : Blanks gap) {ms : List Written} {rest rest' : List UInt8}
    {state : σ} :
    record.read (depth + 1) (lead ++ (objectText ms gap ++ rest)) = .ok state rest' <->
      rest' = rest ∧ Brings record depth ⟨record.start, []⟩ (ms.map Written.core) state := by
  have hopen : unblanked (lead ++ (objectText ms gap ++ rest)) =
      0x7B :: remaining true [] ms (gap ++ 0x7D :: rest) := by
    rw [← separated_remaining]
    simp only [objectText, containerText, opener, List.cons_append, List.append_assoc,
      List.nil_append]
    exact unblanked_append_cons hlead rfl _
  have hbound : ms.length < (remaining true [] ms (gap ++ 0x7D :: rest)).length + 1 :=
    Nat.lt_succ_of_le (length_le_remaining true [] ms _)
  have hclose : closeObject (0x7D :: rest) = .ok () rest := closeObject_eq_ok_iff.mpr rfl
  constructor
  · intro hread
    rcases read_eq_ok_of_object hopen hread with ⟨final, middle, hmembers, hfinal, hclosed⟩
    rcases (membersFrom_written_iff htame hgap ms blanks_nil hbound).mp
      ⟨final, hmembers, hfinal⟩ with ⟨rfl, hbrings⟩
    rw [hclose] at hclosed
    cases hclosed
    exact ⟨rfl, hbrings⟩
  · rintro ⟨rfl, hbrings⟩
    rcases (membersFrom_written_iff htame hgap ms blanks_nil hbound).mpr ⟨rfl, hbrings⟩ with
      ⟨final, hmembers, rfl⟩
    have hcomplete : record.complete final = pure final.state :=
      complete_of_seen fun m hm => Or.inl (hlenient m hm)
    refine onValue_eq_ok_iff.mpr ⟨0x7B, _, hopen, ?_⟩
    change record.objectBody depth _ = _
    unfold objectBody
    rw [advance_bind]
    refine enclosed_eq_ok.mpr ⟨_, ?_, hclose⟩
    have hall : Reader.members (record.member depth) ⟨record.start, []⟩
        (remaining true [] ms (gap ++ 0x7D :: rest')) = .ok final (0x7D :: rest') := hmembers
    rw [bind_of_ok hall, hcomplete]
    rfl

theorem gives_written_iff (htame : record.Tame) (hlenient : record.Lenient) {gap : List UInt8}
    (hgap : Blanks gap) {ms : List Written} {state : σ} :
    Gives (record.read (depth + 1)) (objectText ms gap) state <->
      Brings record depth ⟨record.start, []⟩ (ms.map Written.core) state := by
  constructor
  · intro hgives
    exact ((read_written_iff htame hlenient blanks_nil hgap).mp
      (hgives [] [] blanks_nil ended_nil)).right
  · intro hbrings lead rest hlead _
    exact (read_written_iff htame hlenient hlead hgap).mpr ⟨rfl, hbrings⟩

end Record
end Json
end Gatekeeper
