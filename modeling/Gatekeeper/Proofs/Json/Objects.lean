import Gatekeeper.Json.Object

/-!
# Members of objects

What an insertion does to the member of each key, and that an object is known by
its members.
-/

namespace Gatekeeper
namespace Json

namespace Members

theorem lookup_cons (k other : String) (v : Value) (rest : List (String × Value)) :
    ((k, v) :: rest).lookup other = if other = k then some v else rest.lookup other := by
  rw [List.lookup_cons]
  by_cases hkey : other = k
  · rw [if_pos hkey, beq_iff_eq.mpr hkey]
  · rw [if_neg hkey, beq_eq_false_iff_ne.mpr hkey]

theorem lookup_insert (key other : String) (value : Value) (members : List (String × Value)) :
    (insert key value members).lookup other =
      if other = key then some value else members.lookup other := by
  induction members with
  | nil => exact lookup_cons key other value []
  | cons member rest ih =>
      rcases member with ⟨k, v⟩
      unfold insert
      by_cases hless : key < k
      · rw [if_pos hless]
        exact lookup_cons key other value ((k, v) :: rest)
      · rw [if_neg hless]
        by_cases hkey : key = k
        · rw [if_pos hkey, lookup_cons, lookup_cons, hkey]
          by_cases hother : other = k
          · rw [if_pos hother, if_pos hother]
          · rw [if_neg hother, if_neg hother, if_neg hother]
        · rw [if_neg hkey, lookup_cons, lookup_cons, ih]
          by_cases hother : other = k
          · have hne : ¬ other = key := fun h => hkey (h.symm.trans hother)
            rw [if_pos hother, if_neg hne, if_pos hother]
          · rw [if_neg hother, if_neg hother]

theorem lookup_eq_none_of_forall_lt {members : List (String × Value)} {key : String}
    (hless : forall member, member ∈ members -> key < member.1) :
    members.lookup key = none := by
  induction members with
  | nil => rfl
  | cons member rest ih =>
      have hne : key ≠ member.1 := by
        intro heq
        have hself := hless member List.mem_cons_self
        rw [heq] at hself
        exact String.lt_irrefl _ hself
      rw [lookup_cons, if_neg hne]
      exact ih fun other hmem => hless other (List.mem_cons_of_mem _ hmem)

/-- Members in order are known by what stands under each key. -/
theorem Ascending.eq_of_lookup_eq {one other : List (String × Value)} (hone : Ascending one)
    (hother : Ascending other) (hlookup : forall key, one.lookup key = other.lookup key) :
    one = other := by
  induction one generalizing other with
  | nil =>
      cases other with
      | nil => rfl
      | cons member rest =>
          have h := hlookup member.1
          rw [lookup_cons, if_pos rfl] at h
          cases h
  | cons member rest ih =>
      cases other with
      | nil =>
          have h := hlookup member.1
          rw [lookup_cons, if_pos rfl] at h
          cases h
      | cons member' rest' =>
          rcases member with ⟨k, v⟩
          rcases member' with ⟨k', v'⟩
          have hone := List.pairwise_cons.mp hone
          have hother := List.pairwise_cons.mp hother
          have hfirst := hlookup k
          have hfirst' := hlookup k'
          rw [lookup_cons, lookup_cons, if_pos rfl] at hfirst hfirst'
          rcases Std.lt_trichotomy k k' with hlt | heq | hlt
          · rw [if_neg (fun h => String.lt_irrefl _ (h ▸ hlt)), lookup_eq_none_of_forall_lt
              fun m hm => String.lt_trans hlt (hother.1 m hm)] at hfirst
            cases hfirst
          · subst heq
            rw [if_pos rfl] at hfirst
            cases hfirst
            have hrest : rest = rest' := by
              refine ih hone.2 hother.2 fun key => ?_
              by_cases hkey : key = k
              · rw [hkey, lookup_eq_none_of_forall_lt hone.1, lookup_eq_none_of_forall_lt hother.1]
              · have h := hlookup key
                rw [lookup_cons, lookup_cons, if_neg hkey, if_neg hkey] at h
                exact h
            rw [hrest]
          · rw [if_neg (fun h => String.lt_irrefl _ (h ▸ hlt)), lookup_eq_none_of_forall_lt
              fun m hm => String.lt_trans hlt (hone.1 m hm)] at hfirst'
            cases hfirst'

end Members

namespace Object

theorem get?_insert (o : Object) (key other : String) (value : Value) :
    (o.insert key value).get? other = if other = key then some value else o.get? other :=
  Members.lookup_insert key other value o.members

@[simp] theorem get?_insert_self (o : Object) (key : String) (value : Value) :
    (o.insert key value).get? key = some value := by
  rw [get?_insert, if_pos rfl]

@[simp] theorem get?_insert_of_ne (o : Object) {key other : String} (value : Value)
    (hne : other ≠ key) :
    (o.insert key value).get? other = o.get? other := by
  rw [get?_insert, if_neg hne]

theorem eq_of_get?_eq {o p : Object} (hget : forall key, o.get? key = p.get? key) :
    o = p := by
  rcases o with ⟨members, hascending⟩
  rcases p with ⟨members', hascending'⟩
  have hmembers : members = members' := hascending.eq_of_lookup_eq hascending' hget
  subst hmembers
  rfl

/-- The object has under each key what stands last under it. -/
def Collects (o : Object) (members : List (String × Value)) : Prop :=
  forall key, o.get? key = members.reverse.lookup key

theorem get?_foldl_insert (members : List (String × Value)) (o : Object) (key : String) :
    (members.foldl (fun o member => o.insert member.1 member.2) o).get? key =
      (members.reverse.lookup key).or (o.get? key) := by
  induction members generalizing o with
  | nil => rfl
  | cons member rest ih =>
      rcases member with ⟨k, v⟩
      rw [List.foldl_cons, ih, List.reverse_cons, List.lookup_append, Members.lookup_cons,
        get?_insert, Option.or_assoc]
      by_cases hkey : key = k
      · rw [if_pos hkey, if_pos hkey]
        rfl
      · rw [if_neg hkey, if_neg hkey]
        rfl

theorem collects_ofMembers (members : List (String × Value)) :
    (ofMembers members).Collects members := by
  intro key
  unfold ofMembers
  rw [get?_foldl_insert]
  exact Option.or_none

theorem collects_iff {o : Object} {members : List (String × Value)} :
    o.Collects members <-> o = ofMembers members := by
  constructor
  · intro hcollects
    apply eq_of_get?_eq
    intro key
    rw [hcollects key, collects_ofMembers members key]
  · rintro rfl
    exact collects_ofMembers members

end Object

/-!
# Parts of an object
-/

/-- A member that may be left out or be null, and otherwise gives something. -/
inductive Part (Reads : Value -> α -> Prop) : Option Value -> Option α -> Prop
  | absent : Part Reads none none
  | null : Part Reads (some .null) none
  | given {v : Value} {a : α} (hreads : Reads v a) : Part Reads (some v) (some a)

end Json
end Gatekeeper
