import Gatekeeper.Proofs.Results
import Gatekeeper.Proofs.Text.Base64
import Gatekeeper.Token.VerifierSettings

/-!
# Verifiers that are built from settings

What the verifier of some settings has: the algorithm that the settings name, and
the key that they give for it.  Which signatures its key accepts can be said from
the settings alone.
-/

namespace Gatekeeper

theorem Key.family_of_ofText {family : KeyFamily} {text : String} {key : Key}
    (hkey : Key.ofText family text = .ok key) : key.family = family := by
  unfold Key.ofText at hkey
  split at hkey
  · cases hkey
  split at hkey
  · cases hkey
  split at hkey
  · split at hkey
    · rename_i hrsa
      cases hkey
      exact hrsa.symm
    · cases hkey
  split at hkey
  · split at hkey
    · cases hkey
      rfl
    · cases hkey
  · cases hkey

theorem Key.accepts_of_secret {algorithm : Algorithm} (hfamily : algorithm.family = .secret)
    (key : Key) (message signature : List UInt8) :
    key.accepts algorithm message signature = .ok (decide
      (Base64.encode Base64.urlSafe (Hmac.mac algorithm.hash key.bytes message) = signature)) := by
  unfold accepts
  rw [hfamily]

theorem Key.accepts_of_public {algorithm : Algorithm} (hfamily : algorithm.family ≠ .secret)
    (key : Key) (message signature : List UInt8) :
    key.accepts algorithm message signature =
      (Base64.decode Base64.urlSafe .none signature).map (key.verifies algorithm message) := by
  unfold accepts
  cases h : algorithm.family with
  | secret => exact absurd h hfamily
  | rsa => rfl
  | ec => rfl
  | ed => rfl

namespace VerifierSettings

/-- The algorithm that is named, or the first of the keyed digests where none is. -/
inductive Chooses (settings : VerifierSettings) : Algorithm -> Prop
  | unnamed (hnone : settings.algorithm = .none) : Chooses settings .hs256
  | named {algorithm : Algorithm} (hname : settings.algorithm = some algorithm.name) :
      Chooses settings algorithm

theorem chosenAlgorithm_eq_ok_iff {settings : VerifierSettings} {algorithm : Algorithm} :
    settings.chosenAlgorithm = .ok algorithm <-> settings.Chooses algorithm := by
  constructor
  · intro hchosen
    unfold chosenAlgorithm at hchosen
    cases hname : settings.algorithm with
    | none =>
        rw [hname] at hchosen
        cases hchosen
        exact .unnamed hname
    | some name =>
        simp only [hname] at hchosen
        cases hfound : Algorithm.ofName? name with
        | none =>
            rw [hfound] at hchosen
            cases hchosen
        | some found =>
            rw [hfound] at hchosen
            cases hchosen
            rw [Algorithm.ofName?_eq_some_iff.mp hfound] at hname
            exact .named hname
  · intro hchooses
    cases hchooses with
    | unnamed hnone =>
        unfold chosenAlgorithm
        rw [hnone]
        rfl
    | named hname =>
        unfold chosenAlgorithm
        rw [hname]
        simp only [Algorithm.ofName?_eq_some_iff.mpr rfl]

theorem Chooses.unique {settings : VerifierSettings} {one other : Algorithm}
    (hone : settings.Chooses one) (hother : settings.Chooses other) : one = other := by
  have hone := chosenAlgorithm_eq_ok_iff.mpr hone
  rw [chosenAlgorithm_eq_ok_iff.mpr hother] at hone
  cases hone
  rfl

/-- The key that the settings give for an algorithm. -/
inductive Keys (settings : VerifierSettings) (algorithm : Algorithm) : Key -> Prop
  | secret {secret : String} (hfamily : algorithm.family = .secret)
      (hsecret : settings.secret = some secret) :
      Keys settings algorithm (Key.ofSecret (Utf8.encode secret))
  | text {text : String} {key : Key} (hfamily : algorithm.family ≠ .secret)
      (htext : settings.publicKey = some text)
      (hkey : Key.ofText algorithm.family text = .ok key) : Keys settings algorithm key

theorem keys_of_key {settings : VerifierSettings} {algorithm : Algorithm} {key : Key}
    (hkey : settings.key algorithm = .ok key) : settings.Keys algorithm key := by
  unfold VerifierSettings.key at hkey
  split at hkey
  · rename_i hfamily
    cases hsecret : settings.secret with
    | none =>
        rw [hsecret] at hkey
        cases hkey
    | some secret =>
        rw [hsecret] at hkey
        cases hkey
        exact .secret hfamily hsecret
  · rename_i hfamily
    cases htext : settings.publicKey with
    | none =>
        rw [htext] at hkey
        cases hkey
    | some text =>
        simp only [htext] at hkey
        exact .text hfamily htext (mapError_eq_ok.mp hkey)

theorem Keys.family {settings : VerifierSettings} {algorithm : Algorithm} {key : Key}
    (hkeys : settings.Keys algorithm key) : key.family = algorithm.family := by
  cases hkeys with
  | secret hfamily _ => exact hfamily.symm
  | text _ _ hkey => exact Key.family_of_ofText hkey

structure Builds (settings : VerifierSettings) (verifier : Verifier) : Prop where
  chooses : settings.Chooses verifier.algorithm
  keys : settings.Keys verifier.algorithm verifier.key
  issuer : verifier.issuer = settings.issuer
  audience : verifier.audience = settings.audience
  leeway : verifier.leeway = settings.leeway

theorem builds_of_build {settings : VerifierSettings} {verifier : Verifier}
    (hbuild : settings.build = .ok verifier) : settings.Builds verifier := by
  rcases except_bind_eq_ok.mp hbuild with ⟨algorithm, halgorithm, hbuild⟩
  rcases except_bind_eq_ok.mp hbuild with ⟨key, hkey, hverifier⟩
  cases hverifier
  exact ⟨chosenAlgorithm_eq_ok_iff.mp halgorithm, keys_of_key hkey, rfl, rfl, rfl⟩

/-!
# Signatures
-/

/-- A signature, as text, that is right for a message: the text of the keyed digest under the
secret, or the text of bytes that verify under the public key. -/
inductive Signs (settings : VerifierSettings) (algorithm : Algorithm)
    (message signature : List UInt8) : Prop
  | keyed {secret : String} (hfamily : algorithm.family = .secret)
      (hsecret : settings.secret = some secret)
      (htext : signature = Base64.encode Base64.urlSafe
        (Hmac.mac algorithm.hash (Utf8.encode secret) message)) :
      Signs settings algorithm message signature
  | verified {text : String} {key : Key} {bytes : List UInt8}
      (hfamily : algorithm.family ≠ .secret) (hpublic : settings.publicKey = some text)
      (hkey : Key.ofText algorithm.family text = .ok key)
      (htext : signature = Base64.encode Base64.urlSafe bytes)
      (hverifies : key.verifies algorithm message bytes = true) :
      Signs settings algorithm message signature

theorem Keys.accepts_eq_ok_true_iff {settings : VerifierSettings} {algorithm : Algorithm}
    {key : Key} (hkeys : settings.Keys algorithm key) {message signature : List UInt8} :
    key.accepts algorithm message signature = .ok true <->
      settings.Signs algorithm message signature := by
  cases hkeys with
  | @secret secret hfamily hsecret =>
      rw [Key.accepts_of_secret hfamily, Except.ok.injEq, decide_eq_true_eq]
      constructor
      · intro htext
        exact .keyed hfamily hsecret htext.symm
      · intro hsigns
        cases hsigns with
        | keyed _ hother htext =>
            rw [hsecret] at hother
            cases hother
            exact htext.symm
        | verified hother => exact absurd hfamily hother
  | text hfamily hpublic hkey =>
      rw [Key.accepts_of_public hfamily]
      constructor
      · intro haccepts
        cases hdecode : Base64.decode Base64.urlSafe .none signature with
        | error fault =>
            rw [hdecode] at haccepts
            cases haccepts
        | ok bytes =>
            rw [hdecode] at haccepts
            injection haccepts with hverifies
            have htext := (Base64.decode_eq_ok_iff Base64.Alphabet.urlSafe_isFaithful).mp hdecode
            exact .verified hfamily hpublic hkey htext hverifies
      · intro hsigns
        cases hsigns with
        | keyed hother => exact absurd hother hfamily
        | verified _ hotherPublic hotherKey htext hverifies =>
            rw [hpublic] at hotherPublic
            cases hotherPublic
            rw [hkey] at hotherKey
            cases hotherKey
            rw [(Base64.decode_eq_ok_iff Base64.Alphabet.urlSafe_isFaithful).mpr htext]
            exact congrArg Except.ok hverifies

theorem Keys.accepts_of_unsigned {settings : VerifierSettings} {algorithm : Algorithm} {key : Key}
    (hkeys : settings.Keys algorithm key) (signature : List UInt8) :
    (algorithm.family ≠ .secret ∧
        exists fault, forall message, key.accepts algorithm message signature = .error fault) ∨
      forall message, ¬settings.Signs algorithm message signature ->
        key.accepts algorithm message signature = .ok false := by
  have hwrong : forall message verified, ¬settings.Signs algorithm message signature ->
      key.accepts algorithm message signature = .ok verified -> verified = false := by
    intro message verified hunsigned haccepts
    cases verified with
    | true => exact absurd (hkeys.accepts_eq_ok_true_iff.mp haccepts) hunsigned
    | false => rfl
  by_cases hfamily : algorithm.family = .secret
  · refine Or.inr ?_
    intro message hunsigned
    have haccepts := Key.accepts_of_secret hfamily key message signature
    rw [hwrong message _ hunsigned haccepts] at haccepts
    exact haccepts
  · have haccepts := fun message => Key.accepts_of_public hfamily key message signature
    cases hdecode : Base64.decode Base64.urlSafe .none signature with
    | error fault =>
        rw [hdecode] at haccepts
        exact Or.inl ⟨hfamily, fault, haccepts⟩
    | ok bytes =>
        rw [hdecode] at haccepts
        refine Or.inr ?_
        intro message hunsigned
        have hverified := hwrong message _ hunsigned (haccepts message)
        exact (haccepts message).trans (congrArg Except.ok hverified)

end VerifierSettings
end Gatekeeper
