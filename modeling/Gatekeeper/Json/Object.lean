import Gatekeeper.Json.Value

/-!
# Objects

An object keeps its members in ascending order of their keys, each key once, so
two objects with the same members are equal.
-/

namespace Gatekeeper
namespace Json

namespace Members

def Ascending (members : List (String × Value)) : Prop :=
  members.Pairwise fun one other => one.1 < other.1

/-- Puts a member in its place; the last value given for a key stays. -/
def insert (key : String) (value : Value) : List (String × Value) → List (String × Value)
  | [] => [(key, value)]
  | (k, v) :: rest =>
    if key < k then (key, value) :: (k, v) :: rest
    else if key = k then (key, value) :: rest
    else (k, v) :: insert key value rest

theorem mem_of_mem_insert {members : List (String × Value)} {key : String} {value : Value}
    {member : String × Value} (hmem : member ∈ insert key value members) :
    member = (key, value) ∨ member ∈ members := by
  induction members with
  | nil => exact Or.inl (List.mem_singleton.mp hmem)
  | cons head rest ih =>
      rcases head with ⟨k, v⟩
      unfold insert at hmem
      by_cases hless : key < k
      · rw [if_pos hless] at hmem
        exact List.mem_cons.mp hmem
      · rw [if_neg hless] at hmem
        by_cases hkey : key = k
        · rw [if_pos hkey] at hmem
          exact (List.mem_cons.mp hmem).imp_right (List.mem_cons_of_mem _)
        · rw [if_neg hkey] at hmem
          rcases List.mem_cons.mp hmem with hhead | hrest
          · exact Or.inr (hhead ▸ List.mem_cons_self)
          · exact (ih hrest).imp_right (List.mem_cons_of_mem _)

theorem lt_of_not_lt_of_ne {key k : String} (hless : ¬ key < k) (hne : ¬ key = k) :
    k < key := by
  rcases Std.lt_trichotomy key k with h | h | h
  · exact absurd h hless
  · exact absurd h hne
  · exact h

theorem Ascending.insert {members : List (String × Value)} (hascending : Ascending members)
    (key : String) (value : Value) :
    Ascending (insert key value members) := by
  induction members with
  | nil => exact List.pairwise_singleton _ _
  | cons member rest ih =>
      rcases member with ⟨k, v⟩
      have hparts := List.pairwise_cons.mp hascending
      have hhead : forall other, other ∈ rest -> k < other.1 := hparts.1
      have hrest : Ascending rest := hparts.2
      unfold Members.insert
      by_cases hless : key < k
      · rw [if_pos hless]
        refine List.pairwise_cons.mpr ⟨?_, hascending⟩
        intro other hmem
        rcases List.mem_cons.mp hmem with heq | hmem
        · rw [heq]
          exact hless
        · exact String.lt_trans hless (hhead other hmem)
      · rw [if_neg hless]
        by_cases hkey : key = k
        · rw [if_pos hkey, hkey]
          exact List.pairwise_cons.mpr ⟨hhead, hrest⟩
        · rw [if_neg hkey]
          refine List.pairwise_cons.mpr ⟨?_, ih hrest⟩
          intro other hmem
          rcases mem_of_mem_insert hmem with heq | hmem
          · rw [heq]
            exact lt_of_not_lt_of_ne hless hkey
          · exact hhead other hmem

end Members

@[ext] structure Object where
  members : List (String × Value)
  ascending : Members.Ascending members

namespace Object

def empty : Object := ⟨[], List.Pairwise.nil⟩

def get? (o : Object) (key : String) : Option Value :=
  o.members.lookup key

def insert (o : Object) (key : String) (value : Value) : Object :=
  ⟨Members.insert key value o.members, o.ascending.insert key value⟩

def ofMembers (members : List (String × Value)) : Object :=
  members.foldl (fun o member => o.insert member.1 member.2) empty

end Object

end Json
end Gatekeeper
