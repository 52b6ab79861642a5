import Gatekeeper.Login.RequestBody
import Gatekeeper.Proofs.Json.Objects

/-!
# Bodies of requests

The body that is made of configured parameters carries the credentials of the
attempt, and everything else as it was configured.
-/

namespace Gatekeeper
namespace RequestBody

open Json

/-- The credentials of the attempt, and the parameters under all other keys. -/
structure Carries (parameters : Object) (attempt : Attempt) (o : Object) : Prop where
  username : o.get? "username" = some (.string attempt.username)
  password : o.get? "password" = some (.string attempt.password.value)
  others : forall key, key ≠ "username" -> key ≠ "password" ->
    o.get? key = parameters.get? key

theorem carries_ofParameters (parameters : Object) (attempt : Attempt) :
    Carries parameters attempt (ofParameters parameters attempt).toObject where
  username := by simp [ofParameters, usernameKey, passwordKey]
  password := by simp [ofParameters, passwordKey]
  others := by
    intro key husername hpassword
    simp [ofParameters, usernameKey, passwordKey, husername, hpassword]

theorem Carries.unique {parameters one other : Object} {attempt : Attempt}
    (hone : Carries parameters attempt one) (hother : Carries parameters attempt other) :
    one = other := by
  apply Object.eq_of_get?_eq
  intro key
  by_cases husername : key = "username"
  · rw [husername, hone.username, hother.username]
  · by_cases hpassword : key = "password"
    · rw [hpassword, hone.password, hother.password]
    · rw [hone.others key husername hpassword, hother.others key husername hpassword]

end RequestBody
end Gatekeeper
