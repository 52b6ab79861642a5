import Gatekeeper.Digest.Sha2

/-!
# Signature algorithms

The names under which tokens say how they are signed.
-/

namespace Gatekeeper

inductive KeyFamily where
  | secret
  | rsa
  | ec
  | ed
deriving DecidableEq, Repr

inductive Algorithm where
  | hs256
  | hs384
  | hs512
  | es256
  | es384
  | rs256
  | rs384
  | rs512
  | ps256
  | ps384
  | ps512
  | eddsa
deriving DecidableEq, Repr

namespace Algorithm

def all : List Algorithm :=
  [hs256, hs384, hs512, es256, es384, rs256, rs384, rs512, ps256, ps384, ps512, eddsa]

def name : Algorithm → String
  | hs256 => "HS256"
  | hs384 => "HS384"
  | hs512 => "HS512"
  | es256 => "ES256"
  | es384 => "ES384"
  | rs256 => "RS256"
  | rs384 => "RS384"
  | rs512 => "RS512"
  | ps256 => "PS256"
  | ps384 => "PS384"
  | ps512 => "PS512"
  | eddsa => "EdDSA"

def names : List String :=
  all.map name

def ofName? (s : String) : Option Algorithm :=
  all.find? fun algorithm => algorithm.name = s

theorem ofName?_eq_some_iff {name : String} {algorithm : Algorithm} :
    ofName? name = some algorithm <-> name = algorithm.name := by
  constructor
  · intro hfound
    have hname := List.find?_some hfound
    exact (of_decide_eq_true hname).symm
  · rintro rfl
    cases algorithm <;> decide

def family : Algorithm → KeyFamily
  | hs256 | hs384 | hs512 => .secret
  | es256 | es384 => .ec
  | rs256 | rs384 | rs512 | ps256 | ps384 | ps512 => .rsa
  | eddsa => .ed

def hash : Algorithm → Hash
  | hs256 | es256 | rs256 | ps256 => .sha256
  | hs384 | es384 | rs384 | ps384 => .sha384
  | hs512 | rs512 | ps512 | eddsa => .sha512

end Algorithm
end Gatekeeper
