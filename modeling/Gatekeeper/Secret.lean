import Gatekeeper.Digest.Sha2
import Gatekeeper.Text.Base64
import Gatekeeper.Text.Diagnostic
import Gatekeeper.Text.Utf8

/-!
# Secrets

Passwords and bearer tokens.  Neither shows itself in any text; a token can be
recognised by its fingerprint.
-/

namespace Gatekeeper

def hiddenSecret : String := "<redacted>"

structure Password where
  value : String
deriving DecidableEq

def Password.diagnostic (_ : Password) : String :=
  Diagnostic.applied "Password" (Diagnostic.quoted hiddenSecret)

structure BearerToken where
  value : String
deriving DecidableEq

namespace BearerToken

def diagnostic (_ : BearerToken) : String :=
  Diagnostic.applied "BearerToken" (Diagnostic.quoted hiddenSecret)

def fingerprintLength : Nat := 12

def fingerprint (token : BearerToken) : String :=
  Base64.asText
    ((Base64.encode Base64.standard (Sha2.sha256 (Utf8.encode token.value))).take
      fingerprintLength)

end BearerToken
end Gatekeeper
