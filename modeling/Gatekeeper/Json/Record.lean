import Gatekeeper.Json.Decode

/-!
# Records

A record is an object with known members, or the list of their values in the
order of declaration.  Other members of the object are passed over; a known
member may stand only once.
-/

namespace Gatekeeper
namespace Json

structure Member (σ : Type) where
  name : String
  read : Nat → Reader (σ → σ)
  /-- An object need not have the member. -/
  mayLack : Bool
  /-- A list may end before the member. -/
  mayTrail : Bool

structure Record (σ : Type) where
  name : String
  start : σ
  known : List (Member σ)

namespace Record

open Reader

def find? (record : Record σ) (key : String) : Option (Member σ) :=
  record.known.find? fun m => m.name = key

structure Progress (σ : Type) where
  state : σ
  seen : List String

def member (record : Record σ) (depth : Nat) (progress : Progress σ) (key : String) :
    Reader (Progress σ) :=
  match record.find? key with
  | none => do
    memberValue key skip
    pure progress
  | some m =>
    if key ∈ progress.seen then fail (.duplicateField key)
    else do
      let put ← memberValue key (m.read depth)
      pure ⟨put progress.state, key :: progress.seen⟩

def complete (record : Record σ) (progress : Progress σ) : Reader σ :=
  match record.known.find? fun m => !m.mayLack && m.name ∉ progress.seen with
  | some m => fail (.missingField m.name)
  | none => pure progress.state

def objectBody (record : Record σ) (depth : Nat) : Reader σ := do
  advance 1
  enclosed
    (do
      let progress ← members (record.member depth) ⟨record.start, []⟩
      record.complete progress)
    closeObject

def listForm (record : Record σ) : String :=
  record.name ++ " with " ++ toString record.known.length ++ " elements"

def listMembers (record : Record σ) (depth : Nat) : List (Member σ) → Nat → σ → Reader σ
  | [], _, state => pure state
  | m :: rest, i, state => do
    if ← moreElements (i = 0) then
      let put ← within (.index i) (m.read depth)
      listMembers record depth rest (i + 1) (put state)
    else
      match (m :: rest).findIdx? fun m => !m.mayTrail with
      | some k => fail (.wrongLength (i + k) record.listForm)
      | none => pure state

def listBody (record : Record σ) (depth : Nat) : Reader σ := do
  advance 1
  enclosed (record.listMembers depth record.known 0 record.start) closeList

def read (record : Record σ) (depth : Nat) : Reader σ :=
  onValue fun b =>
    if b = 0x7B then descend depth record.objectBody
    else if b = 0x5B then descend depth record.listBody
    else mismatch record.name b

end Record

namespace Member

def free (name : String) (reader : Nat → Reader α) (put : α → σ → σ) : Member σ where
  name := name
  read := fun depth => put <$> reader depth
  mayLack := true
  mayTrail := true

end Member

end Json
end Gatekeeper
