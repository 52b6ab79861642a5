import Gatekeeper.Proofs.Text.Base64
import Mathlib.Tactic.Ring

/-!
# Base64 as groups of six bits

The bits of a byte string, the highest of each byte first, are cut into groups
of six.  Each group is a number below sixty-four and stands for a letter; zeros
fill up the last one.  A text that is cut between two letters keeps the groups
before the cut, and it is the text of fewer bytes where the groups meet the bytes.
-/

namespace Gatekeeper

/-!
# Bits
-/

namespace Bits

def ofNat : (width : Nat) → Nat → List Bool
  | 0, _ => []
  | width + 1, n => ofNat width (n / 2) ++ [decide (n % 2 = 1)]

def ofBytes (bytes : List UInt8) : List Bool :=
  bytes.flatMap fun b => ofNat 8 b.toNat

def value (bits : List Bool) : Nat :=
  bits.foldl (fun n bit => n * 2 + bit.toNat) 0

@[simp] theorem length_ofNat (width n : Nat) : (ofNat width n).length = width := by
  induction width generalizing n with
  | zero => rfl
  | succ width ih => simp [ofNat, ih]

theorem value_snoc (bits : List Bool) (bit : Bool) :
    value (bits ++ [bit]) = value bits * 2 + bit.toNat := by
  rw [value, List.foldl_append]
  rfl

theorem foldl_value (bits : List Bool) (n : Nat) :
    bits.foldl (fun n bit => n * 2 + bit.toNat) n = n * 2 ^ bits.length + value bits := by
  induction bits generalizing n with
  | nil => simp [value]
  | cons bit bits ih =>
      rw [value, List.foldl_cons, List.foldl_cons, ih, ih, List.length_cons, pow_succ]
      ring

theorem value_append (bits more : List Bool) :
    value (bits ++ more) = value bits * 2 ^ more.length + value more := by
  rw [value, List.foldl_append, foldl_value]
  rfl

theorem value_lt (bits : List Bool) : value bits < 2 ^ bits.length := by
  induction bits with
  | nil => exact Nat.one_pos
  | cons bit bits ih =>
      have hbit : value [bit] ≤ 1 := by
        cases bit <;> decide
      have hvalue := value_append [bit] bits
      have hupper : value [bit] * 2 ^ bits.length ≤ 1 * 2 ^ bits.length :=
        Nat.mul_le_mul_right _ hbit
      rw [List.singleton_append] at hvalue
      rw [hvalue, List.length_cons, pow_succ]
      omega

theorem value_zeros (count : Nat) : value (List.replicate count false) = 0 := by
  induction count with
  | zero => rfl
  | succ count ih =>
      rw [List.replicate_succ', value_snoc, ih]
      rfl

theorem value_ofNat (width n : Nat) : value (ofNat width n) = n % 2 ^ width := by
  induction width generalizing n with
  | zero => exact (Nat.mod_one n).symm
  | succ width ih =>
      have hbit : (decide (n % 2 = 1)).toNat = n % 2 := by
        rcases Nat.mod_two_eq_zero_or_one n with hbit | hbit <;> simp [hbit]
      rw [ofNat, value_snoc, ih, hbit, pow_succ', Nat.mod_mul, Nat.add_comm, Nat.mul_comm]

theorem ofNat_add (upper lower n : Nat) :
    ofNat (upper + lower) n = ofNat upper (n / 2 ^ lower) ++ ofNat lower n := by
  induction lower generalizing n with
  | zero => simp [ofNat]
  | succ lower ih =>
      rw [← Nat.add_assoc, ofNat, ih, ofNat, Nat.div_div_eq_div_mul, pow_succ',
        List.append_assoc]

@[simp] theorem ofBytes_cons (b : UInt8) (bytes : List UInt8) :
    ofBytes (b :: bytes) = ofNat 8 b.toNat ++ ofBytes bytes :=
  rfl

@[simp] theorem length_ofBytes (bytes : List UInt8) :
    (ofBytes bytes).length = 8 * bytes.length := by
  induction bytes with
  | nil => rfl
  | cons b bytes ih =>
      simp only [ofBytes_cons, List.length_append, length_ofNat, ih, List.length_cons]
      omega

theorem take_ofBytes (count : Nat) (bytes : List UInt8) :
    (ofBytes bytes).take (8 * count) = ofBytes (bytes.take count) := by
  induction count generalizing bytes with
  | zero => rfl
  | succ count ih =>
      cases bytes with
      | nil => rfl
      | cons b bytes =>
          have htake : (ofNat 8 b.toNat ++ ofBytes bytes).take
              ((ofNat 8 b.toNat).length + 8 * count) =
                ofNat 8 b.toNat ++ (ofBytes bytes).take (8 * count) :=
            List.take_length_add_append (8 * count)
          rw [length_ofNat, ih] at htake
          rw [List.take_succ_cons, ofBytes_cons, ofBytes_cons, Nat.mul_succ, Nat.add_comm, htake]

theorem value_ofByte (b : UInt8) : value (ofNat 8 b.toNat) = b.toNat := by
  rw [value_ofNat]
  exact Nat.mod_eq_of_lt b.toNat_lt

theorem ofBytes_injective {one other : List UInt8} (hsame : ofBytes one = ofBytes other) :
    one = other := by
  induction one generalizing other with
  | nil =>
      have hlength := congrArg List.length hsame
      rw [length_ofBytes, length_ofBytes, List.length_nil] at hlength
      exact (List.length_eq_zero_iff.mp (by omega)).symm
  | cons b one ih =>
      cases other with
      | nil =>
          have hlength := congrArg List.length hsame
          rw [length_ofBytes, length_ofBytes, List.length_cons, List.length_nil] at hlength
          omega
      | cons c other =>
          rw [ofBytes_cons, ofBytes_cons] at hsame
          rcases List.append_inj hsame (by simp) with ⟨hfirst, hrest⟩
          have hvalue := congrArg value hfirst
          rw [value_ofByte, value_ofByte, UInt8.toNat_inj] at hvalue
          rw [hvalue, ih hrest]

end Bits

namespace Base64

/-!
# Groups
-/

/-- Groups of six bits as numbers; zeros fill up the last one. -/
def sextets : List Bool → List Nat
  | [] => []
  | a :: b :: c :: d :: e :: f :: rest => Bits.value [a, b, c, d, e, f] :: sextets rest
  | bits => [Bits.value (bits ++ List.replicate (6 - bits.length) false)]

theorem sextets_append {group : List Bool} (hgroup : group.length = 6) (rest : List Bool) :
    sextets (group ++ rest) = Bits.value group :: sextets rest := by
  match group, hgroup with
  | [a, b, c, d, e, f], _ => rfl

theorem length_leftover {bits : List Bool} (hempty : bits = [] -> False)
    (hgroup : forall a b c d e f rest, bits = a :: b :: c :: d :: e :: f :: rest -> False) :
    0 < bits.length ∧ bits.length < 6 := by
  match bits with
  | [] => exact (hempty rfl).elim
  | [_] | [_, _] | [_, _, _] | [_, _, _, _] | [_, _, _, _, _] => simp
  | a :: b :: c :: d :: e :: f :: rest => exact (hgroup a b c d e f rest rfl).elim

@[simp] theorem length_sextets (bits : List Bool) :
    (sextets bits).length = (bits.length + 5) / 6 := by
  fun_induction sextets bits with
  | case1 => rfl
  | case2 a b c d e f rest ih =>
      simp only [List.length_cons, ih]
      omega
  | case3 bits hempty hgroup =>
      have hlength := length_leftover hempty hgroup
      rw [List.length_singleton]
      omega

theorem lt_of_mem_sextets {bits : List Bool} {sextet : Nat} (hmem : sextet ∈ sextets bits) :
    sextet < 64 := by
  fun_induction sextets bits with
  | case1 => cases hmem
  | case2 a b c d e f rest ih =>
      cases List.mem_cons.mp hmem with
      | inl hfirst =>
          rw [hfirst]
          exact Bits.value_lt [a, b, c, d, e, f]
      | inr hrest => exact ih hrest
  | case3 bits hempty hgroup =>
      have hlength : (bits ++ List.replicate (6 - bits.length) false).length = 6 := by
        have hshort := (length_leftover hempty hgroup).right
        rw [List.length_append, List.length_replicate]
        omega
      have hvalue := Bits.value_lt (bits ++ List.replicate (6 - bits.length) false)
      rw [hlength] at hvalue
      rw [List.mem_singleton.mp hmem]
      exact hvalue

theorem sextets_take (count : Nat) (bits : List Bool) :
    sextets (bits.take (6 * count)) = (sextets bits).take count := by
  induction count generalizing bits with
  | zero => rfl
  | succ count ih =>
      by_cases hlong : 6 ≤ bits.length
      · have hgroup : (bits.take 6).length = 6 := by
          rw [List.length_take]
          omega
        rw [← List.take_append_drop 6 bits, sextets_append hgroup, List.take_succ_cons, ← ih,
          ← sextets_append hgroup, Nat.mul_succ, Nat.add_comm, List.take_add,
          List.take_left' hgroup, List.drop_left' hgroup]
      · have hcount := length_sextets bits
        rw [List.take_of_length_le (by omega), List.take_of_length_le (by omega)]

theorem sextets_leftover {bits : List Bool} (hsome : 0 < bits.length) (hshort : bits.length < 6) :
    sextets bits = [Bits.value bits * 2 ^ (6 - bits.length)] := by
  have hsextets : sextets bits = [Bits.value (bits ++ List.replicate (6 - bits.length) false)] := by
    match bits with
    | [] => cases hsome
    | [_] | [_, _] | [_, _, _] | [_, _, _, _] | [_, _, _, _, _] => rfl
    | _ :: _ :: _ :: _ :: _ :: _ :: _ =>
        simp only [List.length_cons] at hshort
        omega
  rw [hsextets, Bits.value_append, Bits.value_zeros, List.length_replicate, Nat.add_zero]

/-!
# Encoding
-/

theorem sextets_carry {left : Nat} (hleft : left ≤ 6) (n : Nat) (b : UInt8) (rest : List Bool) :
    sextets (Bits.ofNat left n ++ (Bits.ofNat 8 b.toNat ++ rest)) =
      (n % 2 ^ left * 2 ^ (6 - left) + b.toNat / 2 ^ (left + 2)) ::
        sextets (Bits.ofNat (left + 2) b.toNat ++ rest) := by
  -- The byte fills up the group and leaves two bits more than were left before.
  have hwidth : 8 = 6 - left + (left + 2) := by omega
  have hbits : Bits.ofNat 8 b.toNat =
      Bits.ofNat (6 - left) (b.toNat / 2 ^ (left + 2)) ++ Bits.ofNat (left + 2) b.toNat := by
    rw [← Bits.ofNat_add, ← hwidth]
  have hgroup : (Bits.ofNat left n ++
      Bits.ofNat (6 - left) (b.toNat / 2 ^ (left + 2))).length = 6 := by
    simp only [List.length_append, Bits.length_ofNat]
    omega
  have hupper : b.toNat / 2 ^ (left + 2) < 2 ^ (6 - left) := by
    apply Nat.div_lt_of_lt_mul
    rw [← pow_add, Nat.add_comm, ← hwidth]
    exact b.toNat_lt
  rw [hbits, List.append_assoc, ← List.append_assoc, sextets_append hgroup, Bits.value_append,
    Bits.value_ofNat, Bits.value_ofNat, Bits.length_ofNat, Nat.mod_eq_of_lt hupper]

theorem sextets_first (a : UInt8) (rest : List Bool) :
    sextets (Bits.ofNat 8 a.toNat ++ rest) =
      (a.toNat / 4) :: sextets (Bits.ofNat 2 a.toNat ++ rest) := by
  have hcarry := sextets_carry (Nat.zero_le 6) 0 a rest
  rw [Nat.zero_mod, Nat.zero_mul, Nat.zero_add] at hcarry
  exact hcarry

theorem sextets_second (a b : UInt8) (rest : List Bool) :
    sextets (Bits.ofNat 2 a.toNat ++ (Bits.ofNat 8 b.toNat ++ rest)) =
      (a.toNat % 4 * 16 + b.toNat / 16) :: sextets (Bits.ofNat 4 b.toNat ++ rest) :=
  sextets_carry (by omega) a.toNat b rest

theorem sextets_third (b c : UInt8) (rest : List Bool) :
    sextets (Bits.ofNat 4 b.toNat ++ (Bits.ofNat 8 c.toNat ++ rest)) =
      (b.toNat % 16 * 4 + c.toNat / 64) :: (c.toNat % 64) :: sextets rest := by
  have hcarry := sextets_carry (by omega : 4 ≤ 6) b.toNat c rest
  rw [sextets_append (Bits.length_ofNat 6 _), Bits.value_ofNat] at hcarry
  exact hcarry

theorem sextets_rest {left : Nat} (hsome : 0 < left) (hshort : left < 6) (n : Nat) :
    sextets (Bits.ofNat left n ++ Bits.ofBytes []) = [n % 2 ^ left * 2 ^ (6 - left)] := by
  have hleft := Bits.length_ofNat left n
  rw [Bits.ofBytes, List.flatMap_nil, List.append_nil, sextets_leftover (by omega) (by omega),
    Bits.value_ofNat, hleft]

theorem encode_eq_sextets (alphabet : Alphabet) (bytes : List UInt8) :
    encode alphabet bytes = (sextets (Bits.ofBytes bytes)).map alphabet.symbol := by
  fun_induction encode alphabet bytes with
  | case1 => rfl
  | case2 a =>
      rw [Bits.ofBytes_cons, sextets_first, sextets_rest (by omega) (by omega)]
      rfl
  | case3 a b =>
      rw [Bits.ofBytes_cons, Bits.ofBytes_cons, sextets_first, sextets_second,
        sextets_rest (by omega) (by omega)]
      rfl
  | case4 a b c rest ih =>
      rw [Bits.ofBytes_cons, Bits.ofBytes_cons, Bits.ofBytes_cons, sextets_first, sextets_second,
        sextets_third, ih]
      rfl

@[simp] theorem length_encode (alphabet : Alphabet) (bytes : List UInt8) :
    (encode alphabet bytes).length = (8 * bytes.length + 5) / 6 := by
  simp [encode_eq_sextets]

theorem take_encode (alphabet : Alphabet) (count : Nat) (bytes : List UInt8) :
    (encode alphabet bytes).take count =
      (sextets ((Bits.ofBytes bytes).take (6 * count))).map alphabet.symbol := by
  rw [encode_eq_sextets, ← List.map_take, sextets_take]

theorem take_encode_whole (alphabet : Alphabet) (count : Nat) (bytes : List UInt8) :
    (encode alphabet bytes).take (4 * count) = encode alphabet (bytes.take (3 * count)) := by
  have hbits : 6 * (4 * count) = 8 * (3 * count) := by omega
  rw [take_encode, hbits, Bits.take_ofBytes, ← encode_eq_sextets]

/-!
# Letters
-/

def letters : List Char :=
  "ABCDEFGHIJKLMNOPQRSTUVWXYZabcdefghijklmnopqrstuvwxyz0123456789+/".toList

def letter (sextet : Nat) : Char :=
  letters.getD sextet '='

theorem letter_mem {sextet : Nat} (hsmall : sextet < 64) : letter sextet ∈ letters := by
  have hmem : forall n, n < 64 -> letter n ∈ letters := by
    decide +kernel
  exact hmem sextet hsmall

theorem standard_letter {sextet : Nat} (hsmall : sextet < 64) :
    (standard.symbol sextet).toNat < 0x80 ∧
      Char.ofNat (standard.symbol sextet).toNat = letter sextet := by
  have hletter : forall n, n < 64 ->
      (standard.symbol n).toNat < 0x80 ∧ Char.ofNat (standard.symbol n).toNat = letter n := by
    decide +kernel
  exact hletter sextet hsmall

theorem standard_plain {bytes : List UInt8} {b : UInt8} (hmem : b ∈ encode standard bytes) :
    b.toNat < 0x80 := by
  rcases exists_symbol_of_mem hmem with ⟨n, hsmall, hb⟩
  rw [hb]
  exact (standard_letter hsmall).left

theorem toList_encodeText (bytes : List UInt8) :
    (encodeText standard bytes).toList = (sextets (Bits.ofBytes bytes)).map letter := by
  rw [encodeText, toList_asText, encode_eq_sextets, List.map_map]
  apply List.map_congr_left
  intro sextet hsextet
  exact (standard_letter (lt_of_mem_sextets hsextet)).right

@[simp] theorem encode_encodeText (bytes : List UInt8) :
    Utf8.encode (encodeText standard bytes) = encode standard bytes :=
  encodeChars_asText fun _ hmem => standard_plain hmem

theorem encodeText_injective {one other : List UInt8}
    (hsame : encodeText standard one = encodeText standard other) : one = other := by
  have hbytes := congrArg Utf8.encode hsame
  rw [encode_encodeText, encode_encodeText] at hbytes
  exact encode_injective Alphabet.standard_isFaithful hbytes

end Base64
end Gatekeeper
