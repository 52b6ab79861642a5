import Gatekeeper.Token.Verifier

/-!
# Settings of a verifier

The key material and the checks that a configuration asks for.
-/

namespace Gatekeeper

structure VerifierSettings where
  algorithm : Option String
  secret : Option String
  publicKey : Option String
  issuer : Option String
  audience : Option (List String)
  leeway : Nat

inductive VerifierFault where
  | unknownAlgorithm (name : String)
  | noSecret (algorithm : Algorithm)
  | noPublicKey (algorithm : Algorithm)
  | invalidPublicKey (fault : Key.Fault)
deriving DecidableEq, Repr

namespace VerifierFault

def reason : VerifierFault → String
  | .unknownAlgorithm name => "unknown algorithm `" ++ name ++ "`: InvalidAlgorithmName"
  | .noSecret algorithm => algorithm.name ++ " requires a shared secret"
  | .noPublicKey algorithm => algorithm.name ++ " requires a public key"
  | .invalidPublicKey fault => "invalid public key: " ++ fault.message

def message (fault : VerifierFault) : String :=
  "Token verifier configuration is invalid: " ++ fault.reason ++ "."

end VerifierFault

namespace VerifierSettings

open Json

def none : VerifierSettings where
  algorithm := .none
  secret := .none
  publicKey := .none
  issuer := .none
  audience := .none
  leeway := 0

def text (name : String) (put : Option String → VerifierSettings → VerifierSettings) :
    Member VerifierSettings :=
  .free name (fun _ => Reader.optional Reader.string) put

def record : Record VerifierSettings where
  name := "struct VerifierConfig"
  start := none
  known := [
    text "algorithm" fun v settings => { settings with algorithm := v },
    text "secret" fun v settings => { settings with secret := v },
    text "public_key_pem" fun v settings => { settings with publicKey := v },
    text "issuer" fun v settings => { settings with issuer := v },
    .free "audience" (fun depth => Reader.optional (Reader.strings depth))
      fun v settings => { settings with audience := v },
    .free "leeway_secs" (fun _ => Reader.uint64)
      fun v settings => { settings with leeway := v }]

/-!
# Building
-/

def defaultAlgorithm : Algorithm := .hs256

def chosenAlgorithm (settings : VerifierSettings) : Except VerifierFault Algorithm :=
  match settings.algorithm with
  | .none => .ok defaultAlgorithm
  | some name =>
    match Algorithm.ofName? name with
    | some algorithm => .ok algorithm
    | .none => .error (.unknownAlgorithm name)

def key (settings : VerifierSettings) (algorithm : Algorithm) : Except VerifierFault Key :=
  match algorithm.family with
  | .secret =>
    match settings.secret with
    | some secret => .ok (Key.ofSecret (Utf8.encode secret))
    | .none => .error (.noSecret algorithm)
  | family =>
    match settings.publicKey with
    | some text => (Key.ofText family text).mapError .invalidPublicKey
    | .none => .error (.noPublicKey algorithm)

def build (settings : VerifierSettings) : Except VerifierFault Verifier := do
  let algorithm ← settings.chosenAlgorithm
  let key ← settings.key algorithm
  pure ⟨algorithm, key, settings.issuer, settings.audience, settings.leeway⟩

/-!
# Diagnostics

Secrets and keys show only whether they are set.
-/

def diagnostic (settings : VerifierSettings) : String :=
  Diagnostic.record "VerifierConfig" [
    ("algorithm", Diagnostic.optional (settings.algorithm.map Diagnostic.quoted)),
    ("secret_set", Diagnostic.flag settings.secret.isSome),
    ("public_key_set", Diagnostic.flag settings.publicKey.isSome),
    ("issuer", Diagnostic.optional (settings.issuer.map Diagnostic.quoted)),
    ("audience", Diagnostic.optional (settings.audience.map Diagnostic.quotedList)),
    ("leeway_secs", toString settings.leeway)]

end VerifierSettings
end Gatekeeper
