import Gatekeeper.Json.Printer
import Gatekeeper.Json.Record

/-!
# Claims

What a token says about itself: times in seconds since the epoch, its issuer,
its subject and its identifier.
-/

namespace Gatekeeper

structure Claims where
  exp : Option Int
  iat : Option Int
  nbf : Option Int
  iss : Option String
  sub : Option String
  jti : Option String
deriving DecidableEq, Repr

namespace Claims

open Json

def none : Claims := ⟨.none, .none, .none, .none, .none, .none⟩

/-- The expiry that counts; an expiry at zero stands for none. -/
def expiresAt (claims : Claims) : Option Int :=
  claims.exp.filter (· ≠ 0)

/-!
# Reading
-/

def time (name : String) (put : Option Int → Claims → Claims) : Member Claims :=
  .free name (fun _ => Reader.optional Reader.int64) put

def text (name : String) (put : Option String → Claims → Claims) : Member Claims :=
  .free name (fun _ => Reader.optional Reader.string) put

def record : Record Claims where
  name := "struct StandardClaims"
  start := none
  known := [
    time "exp" fun v claims => { claims with exp := v },
    time "iat" fun v claims => { claims with iat := v },
    time "nbf" fun v claims => { claims with nbf := v },
    text "iss" fun v claims => { claims with iss := v },
    text "sub" fun v claims => { claims with sub := v },
    text "jti" fun v claims => { claims with jti := v }]

def reader : Reader Claims :=
  Reader.whole (record.read Reader.depthLimit)

def parse (document : List UInt8) : Except Failure Claims :=
  reader.outcome document

def ofObject (o : Object) : Except Failure Claims :=
  parse o.bytes

/-!
# Writing
-/

def number? (name : String) (v : Option Int) : List (String × Value) :=
  (v.map fun n => (name, Value.number (.integer n))).toList

def string? (name : String) (v : Option String) : List (String × Value) :=
  (v.map fun s => (name, Value.string s)).toList

def members (claims : Claims) : List (String × Value) :=
  number? "exp" claims.exp ++ number? "iat" claims.iat ++ number? "nbf" claims.nbf
    ++ string? "iss" claims.iss ++ string? "sub" claims.sub ++ string? "jti" claims.jti

def bytes (claims : Claims) : List UInt8 :=
  (Value.object claims.members).bytes

end Claims
end Gatekeeper
