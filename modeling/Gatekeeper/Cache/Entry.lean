import Gatekeeper.Token.Verifier

/-!
# Cache entries

What is kept of a token that was verified: until when it is valid, and for how
long it may stay.
-/

namespace Gatekeeper

structure Entry where
  /-- In seconds since the epoch; zero stands for a token that does not expire. -/
  expiresAt : Int
  lifetime : Option Nat
deriving DecidableEq, Repr

namespace Entry

def neverExpires : Int := 0

def neverExpiring : Entry := ⟨neverExpires, none⟩

/-- The entry of a token that expires, if it does so after `now`.  A span that is longer than any
time is taken for none. -/
def expiringAt (expiresAt now : Int) : Option Entry :=
  let remaining := expiresAt - now
  if 0 < remaining ∧ remaining ≤ Verifier.mostTime then
    some ⟨expiresAt, some remaining.toNat⟩
  else none

def isValidAt (entry : Entry) (now : Int) : Bool :=
  entry.expiresAt = neverExpires || now < entry.expiresAt

def ofClaims (claims : Claims) (now : Int) : Option Entry :=
  match claims.expiresAt with
  | none => some neverExpiring
  | some expiresAt => expiringAt expiresAt now

end Entry
end Gatekeeper
