import Gatekeeper.Proofs.Json.WrittenMembers
import Mathlib.Data.List.Pairwise

/-!
# Objects written otherwise

An object is read as the same record when its members are put in another order, when
members with unknown names come or go, and when a member that says only what holds
without it comes or goes.
-/

namespace Gatekeeper
namespace Json

open Reader

variable {σ : Type}

/-!
# Members that do not meet
-/

def Member.Commute (m n : Member σ) : Prop :=
  forall depth v w put put', Gives (m.read depth) v put -> Gives (n.read depth) w put' ->
    forall state, put (put' state) = put' (put state)

instance : Std.Symm (Member.Commute (σ := σ)) where
  symm _ _ hcommute depth v w put put' hn hm state :=
    (hcommute depth w v put' put hm hn state).symm

theorem Member.gives_free {name : String} {reader : Nat → Reader α} {put : α → σ → σ} {depth : Nat}
    {v : List UInt8} {f : σ → σ} (hgives : Gives ((Member.free name reader put).read depth) v f) :
    exists a, f = put a := by
  rcases map_eq_ok.mp (hgives [] [] blanks_nil ended_nil) with ⟨a, _, rfl⟩
  exact ⟨a, rfl⟩

theorem Member.commute_free {name name' : String} {reader : Nat → Reader α}
    {reader' : Nat → Reader β} {put : α → σ → σ} {put' : β → σ → σ}
    (hputs : forall a b state, put a (put' b state) = put' b (put a state)) :
    (Member.free name reader put).Commute (Member.free name' reader' put') := by
  intro depth v w f g hf hg state
  rcases gives_free hf with ⟨a, rfl⟩
  rcases gives_free hg with ⟨b, rfl⟩
  exact hputs a b state

namespace Record

variable {record : Record σ} {depth : Nat} {progress other next : Progress σ} {state : σ}
variable {cores cores' : List (List UInt8 × List UInt8)} {name name' v v' : List UInt8}
variable {key : String} {known : Member σ} {put : σ → σ}

def Unordered (record : Record σ) : Prop :=
  record.known.Pairwise Member.Commute

theorem Unordered.commute (hunordered : record.Unordered) {m n : Member σ} (hm : m ∈ record.known)
    (hn : n ∈ record.known) (hne : m.name ≠ n.name) : m.Commute n :=
  List.Pairwise.forall hunordered hm hn fun hsame => hne (congrArg Member.name hsame)

/-!
# Names that come
-/

def Names (cores : List (List UInt8 × List UInt8)) (key : String) : Prop :=
  exists core, core ∈ cores ∧ Spells core.1 (Utf8.encode key)

theorem names_head (hkey : Spells name (Utf8.encode key)) : Names ((name, v) :: cores) key :=
  ⟨(name, v), List.mem_cons_self, hkey⟩

theorem Names.tail {core : List UInt8 × List UInt8} (hnames : Names cores key) :
    Names (core :: cores) key :=
  hnames.imp fun _ h => h.imp_left (List.mem_cons_of_mem core)

theorem Brings.unseen (hbrings : Brings record depth progress cores state)
    (hstate : other.state = progress.state)
    (hseen : forall key, Names cores key -> key ∈ other.seen -> key ∈ progress.seen) :
    Brings record depth other cores state := by
  induction hbrings generalizing other with
  | nil =>
      rw [← hstate]
      exact .nil
  | cons hkey hstep _ ih =>
      cases hstep with
      | pass hfind =>
          exact .cons hkey (.pass hfind) (ih hstate fun key hnames => hseen key hnames.tail)
      | put hfind hfresh hgives =>
          refine .cons hkey
            (.put hfind (fun hmem => hfresh (hseen _ (names_head hkey) hmem)) hgives)
            (ih (by rw [hstate]) fun key hnames hmem => ?_)
          rcases List.mem_cons.mp hmem with rfl | hmem
          · exact List.mem_cons_self
          · exact List.mem_cons_of_mem _ (hseen key hnames.tail hmem)

theorem Brings.fresh (hbrings : Brings record depth progress cores state)
    (hfind : record.find? key = some known) (hnames : Names cores key) : key ∉ progress.seen := by
  induction hbrings with
  | nil => exact absurd hnames.choose_spec.left List.not_mem_nil
  | cons hkey hstep _ ih =>
      rcases hnames with ⟨core, hcore, hspells⟩
      rcases List.mem_cons.mp hcore with rfl | hcore
      · cases Spells.unique hspells hkey
        exact ((steps_known_iff hfind).mp hstep).left
      · have hlater := ih ⟨core, hcore, hspells⟩
        cases hstep with
        | pass => exact hlater
        | put => exact fun hmem => hlater (List.mem_cons_of_mem _ hmem)

theorem Brings.distinct (hbrings : Brings record depth progress cores state) :
    cores.Pairwise fun core later => forall key known, record.find? key = some known ->
      Spells core.1 (Utf8.encode key) -> ¬ Spells later.1 (Utf8.encode key) := by
  induction hbrings with
  | nil => exact List.Pairwise.nil
  | cons hkey hstep hrest ih =>
      refine List.Pairwise.cons (fun later hlater key known hfind hspells hagain => ?_) ih
      have hfresh := hrest.fresh hfind ⟨later, hlater, hagain⟩
      cases Spells.unique hspells hkey
      rcases (steps_known_iff hfind).mp hstep with ⟨_, put, _, rfl⟩
      exact hfresh List.mem_cons_self

theorem Brings.keyed (hbrings : Brings record depth progress cores state)
    {core : List UInt8 × List UInt8} (hcore : core ∈ cores) :
    exists key, Spells core.1 (Utf8.encode key) := by
  induction hbrings with
  | nil => exact absurd hcore List.not_mem_nil
  | cons hkey _ _ ih =>
      rcases List.mem_cons.mp hcore with rfl | hcore
      · exact ⟨_, hkey⟩
      · exact ih hcore

theorem Brings.gives (hbrings : Brings record depth progress cores state)
    (hfind : record.find? key = some known) {core : List UInt8 × List UInt8} (hcore : core ∈ cores)
    (hspells : Spells core.1 (Utf8.encode key)) :
    exists put, Gives (known.read depth) core.2 put := by
  induction hbrings with
  | nil => exact absurd hcore List.not_mem_nil
  | cons hkey hstep _ ih =>
      rcases List.mem_cons.mp hcore with rfl | hcore
      · cases Spells.unique hspells hkey
        rcases (steps_known_iff hfind).mp hstep with ⟨_, put, hgives, _⟩
        exact ⟨put, hgives⟩
      · exact ih hcore

/-!
# Changes that are not seen
-/

theorem Steps.swap (hunordered : record.Unordered) {middle : Progress σ} {key' : String}
    (hone : Steps record depth progress key v middle)
    (htwo : Steps record depth middle key' v' next) :
    exists middle' next', Steps record depth progress key' v' middle' ∧
      Steps record depth middle' key v next' ∧ next'.state = next.state ∧
        forall k, k ∈ next'.seen -> k ∈ next.seen := by
  cases hone with
  | pass hfind => exact ⟨next, next, htwo, .pass hfind, rfl, fun _ hmem => hmem⟩
  | @put known put hfind hfresh hgives =>
      cases htwo with
      | pass hfind' =>
          exact ⟨_, _, .pass hfind', .put hfind hfresh hgives, rfl, fun _ hmem => hmem⟩
      | @put known' put' hfind' hfresh' hgives' =>
          rcases not_or.mp (mt List.mem_cons.mpr hfresh') with ⟨hne, hnew⟩
          rcases mem_of_find? hfind with ⟨hmem, rfl⟩
          rcases mem_of_find? hfind' with ⟨hmem', rfl⟩
          have hcommute := hunordered.commute hmem hmem' (Ne.symm hne)
          have hother : known.name ∉ known'.name :: progress.seen :=
            mt List.mem_cons.mp (not_or.mpr ⟨Ne.symm hne, hfresh⟩)
          refine ⟨_, _, .put hfind' hnew hgives', .put hfind hother hgives,
            hcommute depth v v' put put' hgives hgives' progress.state, fun k hk => ?_⟩
          exact (List.Perm.swap _ _ _).mem_iff.mp hk

theorem Brings.perm (hunordered : record.Unordered) (hperm : cores.Perm cores')
    (hbrings : Brings record depth progress cores state) :
    Brings record depth progress cores' state := by
  induction hperm generalizing progress with
  | nil => exact hbrings
  | cons core _ ih =>
      cases hbrings with
      | cons hkey hstep hrest => exact .cons hkey hstep (ih hrest)
  | swap core core' cores =>
      cases hbrings with
      | cons hkey hstep hrest =>
          cases hrest with
          | cons hkey' hstep' hrest =>
              rcases hstep.swap hunordered hstep' with ⟨_, _, hone, htwo, hstate, hseen⟩
              exact .cons hkey' hone (.cons hkey htwo (hrest.unseen hstate fun k _ => hseen k))
  | trans _ _ ihone ihtwo => exact ihtwo (ihone hbrings)

theorem brings_unknown_iff (hkey : Spells name (Utf8.encode key))
    (hfind : record.find? key = none) :
    Brings record depth progress ((name, v) :: cores) state <->
      Brings record depth progress cores state := by
  constructor
  · intro hbrings
    cases hbrings with
    | cons hkey' hstep hrest =>
        cases Spells.unique hkey hkey'
        cases (steps_unknown_iff hfind).mp hstep
        exact hrest
  · exact .cons hkey (.pass hfind)

theorem brings_idle_iff (hkey : Spells name (Utf8.encode key))
    (hfind : record.find? key = some known) (hgives : Gives (known.read depth) v put)
    (hidle : put progress.state = progress.state) (hfresh : key ∉ progress.seen)
    (habsent : ¬ Names cores key) :
    Brings record depth progress ((name, v) :: cores) state <->
      Brings record depth progress cores state := by
  constructor
  · intro hbrings
    cases hbrings with
    | cons hkey' hstep hrest =>
        cases Spells.unique hkey hkey'
        rcases (steps_known_iff hfind).mp hstep with ⟨_, put, hputs, rfl⟩
        rw [hputs.unique hgives] at hrest
        exact hrest.unseen hidle.symm fun _ _ hmem => List.mem_cons_of_mem _ hmem
  · intro hbrings
    refine .cons hkey (.put hfind hfresh hgives) (hbrings.unseen hidle fun k hnames hmem => ?_)
    rcases List.mem_cons.mp hmem with rfl | hmem
    · exact absurd hnames habsent
    · exact hmem

theorem brings_of_values (hkey : Spells name (Utf8.encode key))
    (hkey' : Spells name' (Utf8.encode key)) (hfind : record.find? key = some known)
    (hsame : forall put, Gives (known.read depth) v put -> Gives (known.read depth) v' put)
    (hbrings : Brings record depth progress ((name, v) :: cores) state) :
    Brings record depth progress ((name', v') :: cores) state := by
  cases hbrings with
  | cons hspells hstep hrest =>
      cases Spells.unique hkey hspells
      rcases (steps_known_iff hfind).mp hstep with ⟨hfresh, put, hgives, rfl⟩
      exact .cons hkey' (.put hfind hfresh (hsame put hgives)) hrest

/-!
# Edits
-/

/-- A change of the members that is not meant to change what they say. -/
inductive Edit (record : Record σ) (Default : String -> List UInt8 -> Prop) :
    List Written -> List Written -> Prop
  | order {ms ms' : List Written} (hperm : (ms.map Written.core).Perm (ms'.map Written.core)) :
      Edit record Default ms ms'
  | unknown {m : Written} {ms : List Written} {key : String} (hkey : m.HasKey key)
      (hfind : record.find? key = none) : Edit record Default ms (m :: ms)
  | spelled {m : Written} {ms : List Written} {key : String} {known : Member σ}
      (hkey : m.HasKey key) (hfind : record.find? key = some known) (hdefault : Default key m.value)
      (habsent : forall n, n ∈ ms -> ¬ n.HasKey key) : Edit record Default ms (m :: ms)

/-- The spelled defaults are read as what a record starts with. -/
def Defaults (record : Record σ) (depth : Nat) (Default : String -> List UInt8 -> Prop) : Prop :=
  forall key known v, record.find? key = some known -> Default key v ->
    exists put, Gives (known.read depth) v put ∧ put record.start = record.start

/-- Records for which it only matters what each of the members says. -/
structure Plain (record : Record σ) (Default : String -> List UInt8 -> Prop) : Prop where
  tame : record.Tame
  lenient : record.Lenient
  unordered : record.Unordered
  defaults : forall depth, record.Defaults (depth + 1) Default

section Plain

variable {Default : String -> List UInt8 -> Prop} {ms ms' : List Written}

theorem Edit.brings_iff (hplain : record.Plain Default) (hedit : Edit record Default ms ms') :
    Brings record (depth + 1) ⟨record.start, []⟩ (ms.map Written.core) state <->
      Brings record (depth + 1) ⟨record.start, []⟩ (ms'.map Written.core) state := by
  cases hedit with
  | order hperm =>
      exact ⟨Brings.perm hplain.unordered hperm, Brings.perm hplain.unordered hperm.symm⟩
  | unknown hkey hfind => exact (brings_unknown_iff hkey hfind).symm
  | @spelled m _ key known hkey hfind hdefault habsent =>
      rcases hplain.defaults depth key known m.value hfind hdefault with ⟨put, hgives, hidle⟩
      refine (brings_idle_iff hkey hfind hgives hidle List.not_mem_nil ?_).symm
      rintro ⟨core, hcore, hspells⟩
      rcases List.mem_map.mp hcore with ⟨n, hn, rfl⟩
      exact habsent n hn hspells

structure Twice (record : Record σ) (ms : List Written) : Prop where
  pair : exists m n key known, [m, n].Sublist ms ∧ m.HasKey key ∧ n.HasKey key ∧
    record.find? key = some known

theorem Twice.not_brings (htwice : record.Twice ms) :
    ¬ Brings record depth progress (ms.map Written.core) state := by
  rcases htwice.pair with ⟨m, n, key, known, hsub, hm, hn, hfind⟩
  intro hbrings
  exact List.pairwise_iff_forall_sublist.mp hbrings.distinct (hsub.map Written.core) key known hfind
    hm hn

end Plain

end Record
end Json
end Gatekeeper
