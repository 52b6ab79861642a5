import Gatekeeper.Json.Record

/-!
# What readers yield

A property of all that a reader can yield, whatever its input, goes through the
moves that readers are built from.  For a record it is enough that the property
holds of its start and that each of its members keeps it.
-/

namespace Gatekeeper
namespace Json
namespace Reader

def Yields (property : α → Prop) (reader : Reader α) : Prop :=
  forall input a rest, reader input = .ok a rest -> property a

variable {property : α → Prop}

theorem Yields.of_forall {reader : Reader α} (h : forall a, property a) :
    Yields property reader := by
  intro input a rest _
  exact h a

theorem yields_pure {a : α} (h : property a) : Yields property (pure a) := by
  intro input b rest hok
  cases hok
  exact h

theorem yields_fail (fault : Fault) : Yields property (fail fault) := by
  intro input a rest hok
  cases hok

theorem Yields.bind {first : β → Prop} {reader : Reader β} {next : β → Reader α}
    (hreader : Yields first reader) (hnext : forall b, first b -> Yields property (next b)) :
    Yields property (reader >>= next) := by
  intro input a rest hok
  simp only [Bind.bind, EStateM.bind] at hok
  cases hfirst : reader input with
  | ok b middle =>
      rw [hfirst] at hok
      exact hnext b (hreader input b middle hfirst) middle a rest hok
  | error failure middle =>
      rw [hfirst] at hok
      cases hok

theorem yields_bind {reader : Reader β} {next : β → Reader α}
    (hnext : forall b, Yields property (next b)) : Yields property (reader >>= next) :=
  Yields.bind (Yields.of_forall fun _ => trivial) fun b (_ : True) => hnext b

theorem Yields.map {first : β → Prop} {reader : Reader β} {f : β → α}
    (hreader : Yields first reader) (hf : forall b, first b -> property (f b)) :
    Yields property (f <$> reader) := by
  intro input a rest hok
  simp only [Functor.map, EStateM.map] at hok
  cases hfirst : reader input with
  | ok b middle =>
      rw [hfirst] at hok
      cases hok
      exact hf b (hreader input b rest hfirst)
  | error failure middle =>
      rw [hfirst] at hok
      cases hok

theorem Yields.within {step : Step} {reader : Reader α} (hreader : Yields property reader) :
    Yields property (within step reader) := by
  intro input a rest hok
  unfold Reader.within at hok
  cases hread : reader input with
  | ok b middle =>
      rw [hread] at hok
      cases hok
      exact hreader input a rest hread
  | error failure middle =>
      rw [hread] at hok
      cases hok

theorem Yields.enclosed {body : Reader α} {closing : Reader Unit}
    (hbody : Yields property body) : Yields property (enclosed body closing) := by
  intro input a rest hok
  unfold Reader.enclosed at hok
  cases hread : body input with
  | ok b middle =>
      simp only [hread] at hok
      cases hclose : closing middle with
      | ok u last =>
          rw [hclose] at hok
          cases hok
          exact hbody input a middle hread
      | error failure last =>
          rw [hclose] at hok
          cases hok
  | error failure middle =>
      simp only [hread] at hok
      cases hclose : closing middle <;> rw [hclose] at hok <;> cases hok

theorem yields_onValue {read : UInt8 → Reader α} (hread : forall b, Yields property (read b)) :
    Yields property (onValue read) := by
  unfold onValue
  apply yields_bind
  intro found
  cases found with
  | none => exact yields_fail _
  | some b => exact hread b

theorem yields_mismatch (expected : String) (b : UInt8) :
    Yields property (mismatch expected b : Reader α) := by
  unfold mismatch
  apply yields_bind
  intro found
  cases found with
  | some value => exact yields_fail _
  | none =>
      by_cases hlist : b = 0x5B
      · rw [if_pos hlist]
        exact yields_fail _
      · rw [if_neg hlist]
        by_cases hobject : b = 0x7B
        · rw [if_pos hobject]
          exact yields_fail _
        · rw [if_neg hobject]
          exact yields_fail _

theorem yields_descend {depth : Nat} {body : Nat → Reader α}
    (hbody : forall depth, Yields property (body depth)) :
    Yields property (descend depth body) := by
  cases depth with
  | zero => exact yields_fail _
  | succ depth => exact hbody depth

theorem Yields.outcome {reader : Reader α} (hreader : Yields property reader)
    {input : List UInt8} {a : α} (hok : reader.outcome input = .ok a) : property a := by
  unfold Reader.outcome at hok
  cases hread : reader input with
  | ok b rest =>
      rw [hread] at hok
      cases hok
      exact hreader input a rest hread
  | error failure rest =>
      rw [hread] at hok
      cases hok

theorem Yields.whole {reader : Reader α} (hreader : Yields property reader) :
    Yields property (whole reader) := by
  refine hreader.bind ?_
  intro a ha
  apply yields_bind
  intro _
  exact yields_pure ha

/-!
# Scalars
-/

theorem Yields.optional {reader : Reader α} (hreader : Yields property reader) :
    Yields (fun found => forall a, found = some a -> property a) (optional reader) := by
  unfold Reader.optional
  apply yields_bind
  intro found
  split
  · apply yields_bind
    intro _
    apply yields_bind
    intro _
    apply yields_pure
    intro a ha
    cases ha
  · refine hreader.map ?_
    intro b hb a ha
    cases ha
    exact hb

theorem yields_integerWithin (least most : Int) (expected : String) :
    Yields (fun n => least ≤ n ∧ n ≤ most) (integerWithin least most expected) := by
  unfold integerWithin
  apply yields_bind
  intro number
  cases number with
  | float x => exact yields_fail _
  | integer n =>
      by_cases hrange : least ≤ n ∧ n ≤ most
      · simp only [if_pos hrange]
        exact yields_pure hrange
      · simp only [if_neg hrange]
        exact yields_fail _

/-!
# Members and records
-/

theorem yields_membersFrom {σ : Type} {property : σ → Prop} {member : σ → String → Reader σ}
    (hmember : forall state key, property state -> Yields property (member state key))
    (bound : Nat) {state : σ} (hstate : property state) (isFirst : Bool) :
    Yields property (membersFrom member state isFirst bound) := by
  induction bound generalizing state isFirst with
  | zero => exact yields_fail _
  | succ bound ih =>
      unfold membersFrom
      apply yields_bind
      intro key
      cases key with
      | none => exact yields_pure hstate
      | some key =>
          refine (hmember state key hstate).bind ?_
          intro state hstate
          exact ih hstate false

end Reader

namespace Record

open Reader

variable {σ : Type} {property : σ → Prop} {record : Record σ}

def Keeps (property : σ → Prop) (put : σ → σ) : Prop :=
  forall state, property state -> property (put state)

theorem yields_objectBody (hstart : property record.start)
    (hknown : forall m, m ∈ record.known ->
      forall depth, Yields (Keeps property) (m.read depth)) (depth : Nat) :
    Yields property (record.objectBody depth) := by
  apply yields_bind
  intro _
  apply Yields.enclosed
  have hmember : forall (progress : Progress σ) (key : String), property progress.state ->
      Yields (fun progress => property progress.state) (record.member depth progress key) := by
    intro progress key hprogress
    unfold Record.member
    cases hfind : record.find? key with
    | none =>
        apply yields_bind
        intro _
        exact yields_pure hprogress
    | some m =>
        by_cases hseen : key ∈ progress.seen
        · simp only [if_pos hseen]
          exact yields_fail _
        · simp only [if_neg hseen]
          have hread : Yields (Keeps property) (memberValue key (m.read depth)) := by
            apply yields_bind
            intro _
            exact (hknown m (List.mem_of_find?_eq_some hfind) depth).within
          refine hread.bind ?_
          intro put hput
          exact yields_pure (hput progress.state hprogress)
  have hmembers : Yields (fun progress : Progress σ => property progress.state)
      (members (record.member depth) ⟨record.start, []⟩) := by
    intro input
    have hempty : property (Progress.mk record.start []).state := hstart
    exact yields_membersFrom hmember (input.length + 1) hempty true input
  refine hmembers.bind ?_
  intro progress hprogress
  unfold Record.complete
  split
  · exact yields_fail _
  · exact yields_pure hprogress

theorem yields_listMembers (depth : Nat) {known : List (Member σ)}
    (hknown : forall m, m ∈ known -> Yields (Keeps property) (m.read depth))
    (i : Nat) {state : σ} (hstate : property state) :
    Yields property (record.listMembers depth known i state) := by
  induction known generalizing i state with
  | nil => exact yields_pure hstate
  | cons m rest ih =>
      unfold Record.listMembers
      apply yields_bind
      intro more
      cases more with
      | true =>
          have hread : Yields (Keeps property) (within (.index i) (m.read depth)) :=
            (hknown m List.mem_cons_self).within
          refine hread.bind ?_
          intro put hput
          exact ih (fun n hn => hknown n (List.mem_cons_of_mem m hn)) (i + 1) (hput state hstate)
      | false =>
          simp only [Bool.false_eq_true, if_false]
          split
          · exact yields_fail _
          · exact yields_pure hstate

/-- A record has a property if it starts with it and each member keeps it. -/
theorem yields_read (hstart : property record.start)
    (hknown : forall m, m ∈ record.known ->
      forall depth, Yields (Keeps property) (m.read depth)) (depth : Nat) :
    Yields property (record.read depth) := by
  apply yields_onValue
  intro b
  by_cases hobject : b = 0x7B
  · rw [if_pos hobject]
    exact yields_descend (yields_objectBody hstart hknown)
  · rw [if_neg hobject]
    by_cases hlist : b = 0x5B
    · rw [if_pos hlist]
      apply yields_descend
      intro depth
      apply yields_bind
      intro _
      exact Yields.enclosed
        (yields_listMembers depth (fun m hm => hknown m hm depth) 0 hstart)
    · rw [if_neg hlist]
      exact yields_mismatch _ _

end Record
end Json
end Gatekeeper
