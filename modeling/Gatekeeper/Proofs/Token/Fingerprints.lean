import Gatekeeper.Proofs.Text.Sextets
import Gatekeeper.Secret

/-!
# Fingerprints of tokens

A fingerprint is cut from the text of a digest.  The cut falls where the groups
of bits meet the bytes, so that a fingerprint is the whole text of the first nine
bytes, with twelve letters for seventy-two bits.
-/

namespace Gatekeeper

/-!
# Digests
-/

namespace Sha2

theorem length_toBytes (word : BitVec n) : (toBytes word).length = n / 8 := by
  rw [toBytes, List.length_map, List.length_range]

theorem State.length_bytes (s : State n) : s.bytes.length = 8 * (n / 8) := by
  simp only [State.bytes, State.words, List.flatMap_cons, List.flatMap_nil, List.length_append,
    length_toBytes, List.length_nil]
  omega

theorem length_sha256 (message : List UInt8) : (sha256 message).length = 32 :=
  State.length_bytes _

end Sha2

/-!
# Fingerprints
-/

namespace BearerToken

def digest (token : BearerToken) : List UInt8 :=
  Sha2.sha256 (Utf8.encode token.value)

@[simp] theorem length_digest (token : BearerToken) : token.digest.length = 32 :=
  Sha2.length_sha256 _

theorem fingerprint_eq_encodeText (token : BearerToken) :
    token.fingerprint = Base64.encodeText Base64.standard (token.digest.take 9) := by
  rw [Base64.encodeText, ← Base64.take_encode_whole Base64.standard 3 token.digest]
  rfl

theorem toList_fingerprint (token : BearerToken) :
    token.fingerprint.toList =
      (Base64.sextets ((Bits.ofBytes token.digest).take 72)).map Base64.letter := by
  rw [fingerprint_eq_encodeText, Base64.toList_encodeText, ← Bits.take_ofBytes]

theorem length_fingerprint (token : BearerToken) : token.fingerprint.length = 12 := by
  rw [← String.length_toList, toList_fingerprint]
  simp

theorem fingerprint_subset_letters (token : BearerToken) :
    token.fingerprint.toList ⊆ Base64.letters := by
  intro c hc
  rw [toList_fingerprint] at hc
  rcases List.mem_map.mp hc with ⟨sextet, hsextet, hletter⟩
  rw [← hletter]
  exact Base64.letter_mem (Base64.lt_of_mem_sextets hsextet)

theorem length_digestText (token : BearerToken) :
    (Utf8.encode (Base64.encodeText Base64.standard token.digest)).length = 43 := by
  simp

theorem encode_fingerprint (token : BearerToken) :
    Utf8.encode token.fingerprint =
      (Utf8.encode (Base64.encodeText Base64.standard token.digest)).take 12 := by
  rw [fingerprint_eq_encodeText, Base64.encode_encodeText, Base64.encode_encodeText]
  exact (Base64.take_encode_whole Base64.standard 3 token.digest).symm

theorem fingerprint_eq_iff {token other : BearerToken} :
    token.fingerprint = other.fingerprint <->
      (Bits.ofBytes token.digest).take 72 = (Bits.ofBytes other.digest).take 72 := by
  constructor
  · intro hsame
    rw [fingerprint_eq_encodeText, fingerprint_eq_encodeText] at hsame
    have hbytes := Base64.encodeText_injective hsame
    rw [Bits.take_ofBytes 9, Bits.take_ofBytes 9, hbytes]
  · intro hbits
    rw [Bits.take_ofBytes 9, Bits.take_ofBytes 9] at hbits
    rw [fingerprint_eq_encodeText, fingerprint_eq_encodeText, Bits.ofBytes_injective hbits]

/-- A fingerprint is twelve letters of the standard alphabet.  It is the text of the first nine
bytes of the digest and has a letter for each six of its first seventy-two bits.  The cut takes
twelve whole letters of the forty-three of the digest.  Two tokens have one fingerprint exactly if
their digests have the same first seventy-two bits. -/
theorem fingerprint_spells_first_bits (token other : BearerToken) :
    (token.fingerprint.length = 12 ∧ token.fingerprint.toList ⊆ Base64.letters) ∧
      token.fingerprint = Base64.encodeText Base64.standard (token.digest.take 9) ∧
      token.fingerprint.toList =
        (Base64.sextets ((Bits.ofBytes token.digest).take 72)).map Base64.letter ∧
      ((Utf8.encode (Base64.encodeText Base64.standard token.digest)).length = 43 ∧
        Utf8.encode token.fingerprint =
          (Utf8.encode (Base64.encodeText Base64.standard token.digest)).take 12) ∧
      (token.fingerprint = other.fingerprint <->
        (Bits.ofBytes token.digest).take 72 = (Bits.ofBytes other.digest).take 72) := by
  have hshape := And.intro token.length_fingerprint token.fingerprint_subset_letters
  have hcut := And.intro token.length_digestText token.encode_fingerprint
  exact ⟨hshape, token.fingerprint_eq_encodeText, token.toList_fingerprint, hcut,
    fingerprint_eq_iff⟩

example : (BearerToken.mk "abc").fingerprint = "ungWv48Bz+pB" := by
  decide +kernel

end BearerToken
end Gatekeeper
