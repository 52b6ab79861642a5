/-!
# Modular arithmetic

Powers, inverses and differences of residues.
-/

namespace Gatekeeper
namespace Modular

def pow (base m : Nat) (e : Nat) : Nat :=
  if _ : e = 0 then 1 % m
  else
    let half := pow base m (e / 2)
    let square := half * half % m
    if e % 2 = 0 then square else square * base % m
termination_by e

def sub (p a b : Nat) : Nat :=
  (a % p + (p - b % p)) % p

def inverse (p a : Nat) : Nat :=
  pow a p (p - 2)

end Modular
end Gatekeeper
