import Gatekeeper.Cache.Store

/-!
# Slots of a store

Which slots there are after each operation, and what a look-up says about them.
Writing takes out the slot of its token first, so a token never has two slots
from it; sweeping and erasing only take slots away.  A store without a capacity
always has room for what is written.
-/

namespace Gatekeeper
namespace Store

theorem mem_erase {store : Store} {token other : BearerToken} {slot : Slot} :
    (other, slot) ∈ (store.erase token).slots <->
      (other, slot) ∈ store.slots ∧ other ≠ token := by
  simp [erase]

theorem mem_of_mem_sweep {store : Store} {clock : Nat} {token : BearerToken} {slot : Slot}
    (hmem : (token, slot) ∈ (store.sweep clock).slots) :
    (token, slot) ∈ store.slots := by
  simp only [sweep, List.mem_filter] at hmem
  exact hmem.left

theorem mem_insert {store : Store} {clock : Nat} {token other : BearerToken}
    {entry : Entry} {slot : Slot}
    (hmem : (other, slot) ∈ (store.insert clock token entry).slots) :
    (other = token ∧ slot.entry = entry) ∨ (other, slot) ∈ store.slots := by
  unfold insert at hmem
  by_cases hroom : (store.erase token).hasRoom clock = true
  · rw [if_pos hroom] at hmem
    cases hmem with
    | head => exact Or.inl ⟨rfl, rfl⟩
    | tail _ hrest => exact Or.inr (mem_erase.mp hrest).left
  · rw [if_neg hroom] at hmem
    exact Or.inr (mem_erase.mp hmem).left

theorem mem_insert_of_ne {store : Store} {clock : Nat} {token other : BearerToken}
    {entry : Entry} {slot : Slot} (hother : other ≠ token) :
    (other, slot) ∈ (store.insert clock token entry).slots <-> (other, slot) ∈ store.slots := by
  have herased : (other, slot) ∈ (store.erase token).slots <-> (other, slot) ∈ store.slots :=
    mem_erase.trans (and_iff_left hother)
  unfold insert
  by_cases hroom : (store.erase token).hasRoom clock = true
  · rw [if_pos hroom, List.mem_cons, Prod.mk.injEq]
    exact (or_iff_right fun hnew => hother hnew.left).trans herased
  · rw [if_neg hroom]
    exact herased

theorem mem_sweep {store : Store} {clock : Nat} {token : BearerToken} {slot : Slot} :
    (token, slot) ∈ (store.sweep clock).slots <->
      (token, slot) ∈ store.slots ∧ slot.isLive clock = true := by
  simp only [sweep, List.mem_filter]

theorem exists_isLive_of_get?_eq_some {store : Store} {clock : Nat} {token : BearerToken}
    {entry : Entry} (hget : store.get? clock token = some entry) :
    exists slot, (token, slot) ∈ store.slots ∧ slot.isLive clock = true ∧
      slot.entry = entry := by
  unfold get? at hget
  cases hslot : store.slot? token with
  | none =>
      rw [hslot] at hget
      cases hget
  | some slot =>
      simp only [hslot] at hget
      by_cases hlive : slot.isLive clock = true
      · rw [if_pos hlive] at hget
        injection hget with hentry
        rcases List.lookup_eq_some_iff.mp hslot with ⟨before, after, hslots, _⟩
        exact ⟨slot, by simp [hslots], hlive, hentry⟩
      · rw [if_neg hlive] at hget
        cases hget

theorem mem_of_get?_eq_some {store : Store} {clock : Nat} {token : BearerToken} {entry : Entry}
    (hget : store.get? clock token = some entry) :
    exists slot, (token, slot) ∈ store.slots ∧ slot.entry = entry := by
  rcases exists_isLive_of_get?_eq_some hget with ⟨slot, hmem, _, hentry⟩
  exact ⟨slot, hmem, hentry⟩

/-!
# Stores without a capacity
-/

def written (clock : Nat) (entry : Entry) : Slot :=
  ⟨entry, entry.lifetime.map (clock + ·)⟩

theorem hasRoom_of_unbounded {store : Store} (hunbounded : store.capacity = none) (clock : Nat) :
    store.hasRoom clock = true := by
  unfold hasRoom
  rw [hunbounded]

@[simp] theorem capacity_insert (store : Store) (clock : Nat) (token : BearerToken)
    (entry : Entry) : (store.insert clock token entry).capacity = store.capacity := by
  unfold insert
  dsimp only
  split <;> rfl

theorem mem_insert_of_unbounded {store : Store} (hunbounded : store.capacity = none)
    {clock : Nat} {token other : BearerToken} {entry : Entry} {slot : Slot} :
    (other, slot) ∈ (store.insert clock token entry).slots <->
      (other = token ∧ slot = written clock entry) ∨
        ((other, slot) ∈ store.slots ∧ other ≠ token) := by
  have herased : (store.erase token).capacity = none := hunbounded
  unfold insert
  rw [if_pos (hasRoom_of_unbounded herased clock), List.mem_cons, mem_erase, Prod.mk.injEq]
  exact Iff.rfl

/-!
# The slot of a token
-/

theorem slot?_erase (store : Store) (token : BearerToken) :
    (store.erase token).slot? token = none := by
  unfold slot? erase
  apply List.lookup_eq_none_iff.mpr
  intro slot hmem
  have hne : slot.1 ≠ token := by simpa using (List.mem_filter.mp hmem).right
  simpa using hne.symm

theorem slot?_erase_of_ne (store : Store) {token other : BearerToken} (hother : other ≠ token) :
    (store.erase token).slot? other = store.slot? other := by
  unfold slot? erase
  simp only
  induction store.slots with
  | nil => rfl
  | cons slot rest ih =>
      by_cases hslot : slot.1 = token
      · have hskipped : (other == slot.1) = false := by simpa [hslot] using hother
        rw [List.filter_cons_of_neg (by simpa using hslot), ih, List.lookup_cons, hskipped]
      · rw [List.filter_cons_of_pos (by simpa using hslot), List.lookup_cons, List.lookup_cons, ih]

theorem slot?_insert_of_ne (store : Store) (clock : Nat) {token other : BearerToken}
    (entry : Entry) (hother : other ≠ token) :
    (store.insert clock token entry).slot? other = store.slot? other := by
  rw [← slot?_erase_of_ne store hother]
  unfold insert
  by_cases hroom : (store.erase token).hasRoom clock = true
  · have hskipped : (other == token) = false := by simpa using hother
    rw [if_pos hroom]
    simp only [slot?, List.lookup_cons, hskipped]
  · rw [if_neg hroom]

theorem slot?_insert {store : Store} (hunbounded : store.capacity = none) (clock : Nat)
    (token : BearerToken) (entry : Entry) :
    (store.insert clock token entry).slot? token = some (written clock entry) := by
  have herased : (store.erase token).capacity = none := hunbounded
  unfold insert
  rw [if_pos (hasRoom_of_unbounded herased clock)]
  simp only [slot?, List.lookup_cons, beq_self_eq_true]
  rfl

theorem get?_of_slot? {store : Store} {token : BearerToken} {slot : Slot} {clock : Nat}
    (hslot : store.slot? token = some slot) (hlive : slot.isLive clock = true) :
    store.get? clock token = some slot.entry := by
  unfold get?
  rw [hslot]
  exact if_pos hlive

/-!
# Tokens with one slot
-/

/-- The token has the slot and no other. -/
structure Holds (store : Store) (token : BearerToken) (slot : Slot) : Prop where
  mem : (token, slot) ∈ store.slots
  only : forall other, (token, other) ∈ store.slots -> other = slot

theorem get?_eq_some_of_holds {store : Store} {token : BearerToken} {slot : Slot}
    (hholds : store.Holds token slot) {clock : Nat} (hlive : slot.isLive clock = true) :
    store.get? clock token = some slot.entry := by
  unfold get?
  cases hslot : store.slot? token with
  | none =>
      have hne := List.lookup_eq_none_iff.mp hslot (token, slot) hholds.mem
      simp at hne
  | some found =>
      rcases List.lookup_eq_some_iff.mp hslot with ⟨before, after, hslots, _⟩
      have hfound := hholds.only found (by simp [hslots])
      rw [hfound]
      exact if_pos hlive

theorem holds_insert {store : Store} (hunbounded : store.capacity = none) (clock : Nat)
    (token : BearerToken) (entry : Entry) :
    (store.insert clock token entry).Holds token (written clock entry) where
  mem := (mem_insert_of_unbounded hunbounded).mpr (Or.inl ⟨rfl, rfl⟩)
  only := by
    intro other hmem
    rcases (mem_insert_of_unbounded hunbounded).mp hmem with hnew | hold
    · exact hnew.right
    · exact absurd rfl hold.right

theorem Holds.of_iff {store later : Store} {token : BearerToken} {slot : Slot}
    (hholds : store.Holds token slot)
    (hsame : forall other, (token, other) ∈ later.slots <-> (token, other) ∈ store.slots) :
    later.Holds token slot where
  mem := (hsame slot).mpr hholds.mem
  only := fun other hmem => hholds.only other ((hsame other).mp hmem)

theorem Holds.sweep {store : Store} {token : BearerToken} {slot : Slot}
    (hholds : store.Holds token slot) {clock : Nat} (hlive : slot.isLive clock = true) :
    (store.sweep clock).Holds token slot where
  mem := mem_sweep.mpr ⟨hholds.mem, hlive⟩
  only := fun other hmem => hholds.only other (mem_sweep.mp hmem).left

end Store
end Gatekeeper
