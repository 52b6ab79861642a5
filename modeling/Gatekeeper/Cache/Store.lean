import Gatekeeper.Cache.Entry
import Gatekeeper.Secret

/-!
# The store of the cache

Entries by token.  An entry that has a lifetime is gone once the eviction clock
has moved by that much since the entry was written.
-/

namespace Gatekeeper

structure Slot where
  entry : Entry
  /-- The reading of the eviction clock from which on the slot is empty. -/
  deadline : Option Nat
deriving DecidableEq, Repr

def Slot.isLive (slot : Slot) (clock : Nat) : Bool :=
  match slot.deadline with
  | none => true
  | some deadline => clock < deadline

structure Store where
  capacity : Option Nat
  slots : List (BearerToken × Slot)

namespace Store

def empty (capacity : Option Nat) : Store := ⟨capacity, []⟩

def slot? (store : Store) (token : BearerToken) : Option Slot :=
  store.slots.lookup token

def get? (store : Store) (clock : Nat) (token : BearerToken) : Option Entry :=
  match store.slot? token with
  | some slot => if slot.isLive clock then some slot.entry else none
  | none => none

def erase (store : Store) (token : BearerToken) : Store :=
  { store with slots := store.slots.filter fun slot => slot.1 ≠ token }

def sweep (store : Store) (clock : Nat) : Store :=
  { store with slots := store.slots.filter fun slot => slot.2.isLive clock }

def count (store : Store) (clock : Nat) : Nat :=
  (store.sweep clock).slots.length

def hasRoom (store : Store) (clock : Nat) : Bool :=
  match store.capacity with
  | none => true
  | some capacity => store.count clock < capacity

/-- Writes the entry of a token over the one before it.  A store without room stays without the
entry. -/
def insert (store : Store) (clock : Nat) (token : BearerToken) (entry : Entry) : Store :=
  let others := store.erase token
  if others.hasRoom clock then
    { others with slots := (token, ⟨entry, entry.lifetime.map (clock + ·)⟩) :: others.slots }
  else others

def diagnostic (store : Store) (clock : Nat) : String :=
  Diagnostic.record "TokenValidityCache" [("entry_count", toString (store.count clock))]

end Store
end Gatekeeper
