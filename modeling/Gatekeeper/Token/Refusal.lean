import Gatekeeper.Json.Fault
import Gatekeeper.Text.Base64

/-!
# Refusals

Why a token is not accepted.  Refusals of some kinds only mean that the bearer
is not authenticated; the others are failures.
-/

namespace Gatekeeper

inductive RefusalKind where
  | expired
  | signatureInvalid
  | malformed
  | rejected
  | internal
deriving DecidableEq, Repr

namespace RefusalKind

def all : List RefusalKind :=
  [expired, signatureInvalid, malformed, rejected, internal]

def label : RefusalKind → String
  | expired => "expired"
  | signatureInvalid => "signature_invalid"
  | malformed => "malformed"
  | rejected => "rejected"
  | internal => "internal"

def ofLabel? (s : String) : Option RefusalKind :=
  all.find? fun kind => kind.label = s

/-- The kinds that are a plain negative answer. -/
def acceptable : List RefusalKind :=
  [expired, signatureInvalid]

def isAcceptable (kind : RefusalKind) : Bool :=
  kind ∈ acceptable

end RefusalKind

structure Refusal where
  kind : RefusalKind
  detail : String
  cause : Option String
deriving DecidableEq, Repr

namespace Refusal

def isAcceptable (refusal : Refusal) : Bool :=
  refusal.kind.isAcceptable

theorem isAcceptable_iff {refusal : Refusal} :
    refusal.isAcceptable = true <->
      refusal.kind = .expired ∨ refusal.kind = .signatureInvalid := by
  simp [isAcceptable, RefusalKind.isAcceptable, RefusalKind.acceptable]

def message (refusal : Refusal) : String :=
  "Token verification failed (" ++ refusal.kind.label ++ "): " ++ refusal.detail ++ "."

end Refusal

inductive TokenFault where
  | shape
  | signature
  | algorithm
  | issuer
  | audience
  | document (failure : Json.Failure)
  | encoding (fault : Base64.Fault)
deriving DecidableEq, Repr

namespace TokenFault

def message : TokenFault → String
  | .shape => "InvalidToken"
  | .signature => "InvalidSignature"
  | .algorithm => "InvalidAlgorithm"
  | .issuer => "InvalidIssuer"
  | .audience => "InvalidAudience"
  | .document failure => "JSON error: " ++ failure.fault.message
  | .encoding fault => "Base64 error: " ++ fault.message

def kind : TokenFault → RefusalKind
  | .signature => .signatureInvalid
  | .shape | .document _ | .encoding _ => .malformed
  | .algorithm | .issuer | .audience => .rejected

def refusal (fault : TokenFault) : Refusal :=
  ⟨fault.kind, fault.message, some fault.message⟩

end TokenFault
end Gatekeeper
