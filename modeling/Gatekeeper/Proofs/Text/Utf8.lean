import Gatekeeper.Text.Ascii
import Gatekeeper.Text.Utf8

/-!
# What is encoded is decoded

The bytes of a character are read back as that character, whatever follows them, so
the bytes of a text are decoded to the text.
-/

namespace Gatekeeper
namespace Utf8

theorem toNat_ofNat_of_lt {n : Nat} (hsmall : n < 256) : (UInt8.ofNat n).toNat = n := by
  rw [UInt8.toNat_ofNat']
  exact Nat.mod_eq_of_lt hsmall

/-!
# Continuation bytes
-/

def tailByte (n : Nat) : UInt8 :=
  UInt8.ofNat (n % 64 + 128)

@[simp] theorem toNat_tailByte (n : Nat) : (tailByte n).toNat = n % 64 + 128 := by
  apply toNat_ofNat_of_lt
  omega

theorem extend_tailByte (code n : Nat) : extend code (tailByte n) = code * 64 + n % 64 := by
  unfold extend
  rw [toNat_tailByte, Nat.add_sub_cancel]

theorem isContinuation_tailByte (n : Nat) : isContinuation (tailByte n) = true := by
  have hlow : (0x80 : UInt8) ≤ tailByte n := by
    rw [UInt8.le_iff_toNat_le, toNat_tailByte]
    exact Nat.le_add_left _ _
  have hhigh : tailByte n ≤ (0xBF : UInt8) := by
    rw [UInt8.le_iff_toNat_le, toNat_tailByte]
    show n % 64 + 128 ≤ 191
    omega
  simp only [isContinuation, hlow, hhigh, decide_true, Bool.and_self]

theorem continuation_tailByte (more code size n : Nat) (rest : List UInt8) :
    continuation (more + 1) code size (tailByte n :: rest) =
      continuation more (code * 64 + n % 64) (size + 1) rest := by
  rw [continuation, if_pos (isContinuation_tailByte n), extend_tailByte]

/-!
# First bytes
-/

/-- A first byte that fixes the payload and allows the second byte. -/
structure Leads (first second : UInt8) (payload more : Nat) : Prop where
  notAscii : 0x80 ≤ first.toNat
  lead : exists lead, Lead.ofByte? first = some lead ∧ lead.payload = payload ∧
    lead.more = more ∧ lead.low.toNat ≤ second.toNat ∧ second.toNat ≤ lead.high.toNat

theorem piece_of_leads {first second : UInt8} {payload more : Nat}
    (hleads : Leads first second payload more) (rest : List UInt8) :
    piece first (second :: rest) = continuation more (extend payload second) 2 rest := by
  rcases hleads.lead with ⟨lead, hlead, rfl, rfl, hlow, hhigh⟩
  have hnot : ¬first < 0x80 := by
    rw [UInt8.lt_iff_toNat_lt]
    exact Nat.not_lt.mpr hleads.notAscii
  unfold piece
  rw [if_neg hnot, hlead]
  simp only [UInt8.le_iff_toNat_le, hlow, hhigh, decide_true, Bool.and_self, if_true]

theorem lead_two {b : UInt8} (hleast : 0xC2 ≤ b.toNat) (hmost : b.toNat < 0xE0) :
    Lead.ofByte? b = some ⟨b.toNat - 0xC0, 0x80, 0xBF, 0⟩ := by
  simp only [Lead.ofByte?, UInt8.lt_iff_toNat_lt, UInt8.reduceToNat]
  rw [if_neg (by omega), if_pos hmost]

theorem lead_three {b : UInt8} (hleast : 0xE0 ≤ b.toNat) (hmost : b.toNat < 0xF0) :
    exists lead, Lead.ofByte? b = some lead ∧ lead.payload = b.toNat - 0xE0 ∧ lead.more = 1 ∧
      lead.low.toNat = (if b.toNat = 0xE0 then 0xA0 else 0x80) ∧
      lead.high.toNat = (if b.toNat = 0xED then 0x9F else 0xBF) := by
  simp only [Lead.ofByte?, UInt8.lt_iff_toNat_lt, ← UInt8.toNat_inj, UInt8.reduceToNat]
  rw [if_neg (by omega), if_neg (by omega)]
  split
  · rename_i hfirst
    exact ⟨_, rfl, by simp [hfirst], rfl, rfl, by simp [hfirst]⟩
  split
  · rename_i hfirst
    exact ⟨_, rfl, by simp [hfirst], rfl, by simp, rfl⟩
  · exact ⟨_, rfl, rfl, rfl, rfl, rfl⟩

theorem lead_four {b : UInt8} (hleast : 0xF0 ≤ b.toNat) (hmost : b.toNat < 0xF5) :
    exists lead, Lead.ofByte? b = some lead ∧ lead.payload = b.toNat - 0xF0 ∧ lead.more = 2 ∧
      lead.low.toNat = (if b.toNat = 0xF0 then 0x90 else 0x80) ∧
      lead.high.toNat = (if b.toNat = 0xF4 then 0x8F else 0xBF) := by
  simp only [Lead.ofByte?, UInt8.lt_iff_toNat_lt, ← UInt8.toNat_inj, UInt8.reduceToNat]
  rw [if_neg (by omega), if_neg (by omega), if_neg (by omega), if_neg (by omega),
    if_neg (by omega)]
  split
  · rename_i hfirst
    exact ⟨_, rfl, by simp [hfirst], rfl, rfl, by simp [hfirst]⟩
  split
  · rename_i hfirst hrange
    exact ⟨_, rfl, rfl, rfl, rfl, by rw [if_neg (by omega)]; rfl⟩
  · rename_i hfirst hrange
    rw [if_pos (by omega)]
    exact ⟨_, rfl, by simp; omega, rfl, rfl, by rw [if_pos (by omega)]; rfl⟩

/-!
# Characters
-/

theorem piece_one {v : Nat} (hmost : v ≤ 0x7F) (rest : List UInt8) :
    piece (UInt8.ofNat v) rest = .char (Char.ofNat v) 1 := by
  have hv : (UInt8.ofNat v).toNat = v := toNat_ofNat_of_lt (by omega)
  unfold piece
  rw [if_pos (by rw [UInt8.lt_iff_toNat_lt, hv]; exact Nat.lt_succ_of_le hmost), hv]

theorem piece_two {v : Nat} (hleast : 0x80 ≤ v) (hmost : v ≤ 0x7FF) (rest : List UInt8) :
    piece (UInt8.ofNat (v / 64 % 32 + 192)) (tailByte v :: rest) = .char (Char.ofNat v) 2 := by
  have hfirst : (UInt8.ofNat (v / 64 % 32 + 192)).toNat = v / 64 + 192 := by
    rw [toNat_ofNat_of_lt (by omega)]
    omega
  have hlead := lead_two (b := UInt8.ofNat (v / 64 % 32 + 192)) (by omega) (by omega)
  rw [hfirst, Nat.add_sub_cancel] at hlead
  have hleads : Leads (UInt8.ofNat (v / 64 % 32 + 192)) (tailByte v) (v / 64) 0 := by
    have hsecond := toNat_tailByte v
    refine ⟨by omega, _, hlead, rfl, rfl, ?_, ?_⟩
    · show 128 ≤ (tailByte v).toNat
      omega
    · show (tailByte v).toNat ≤ 191
      omega
  rw [piece_of_leads hleads, extend_tailByte, continuation, Nat.div_add_mod']

theorem piece_three {v : Nat} (hleast : 0x800 ≤ v) (hmost : v ≤ 0xFFFF)
    (hplain : v < 0xD800 ∨ 0xDFFF < v) (rest : List UInt8) :
    piece (UInt8.ofNat (v / 4096 % 16 + 224)) (tailByte (v / 64) :: tailByte v :: rest) =
      .char (Char.ofNat v) 3 := by
  have hfirst : (UInt8.ofNat (v / 4096 % 16 + 224)).toNat = v / 4096 + 224 := by
    rw [toNat_ofNat_of_lt (by omega)]
    omega
  have hleads : Leads (UInt8.ofNat (v / 4096 % 16 + 224)) (tailByte (v / 64)) (v / 4096) 1 := by
    have hsecond := toNat_tailByte (v / 64)
    rcases lead_three (b := UInt8.ofNat (v / 4096 % 16 + 224)) (by omega) (by omega) with
      ⟨lead, hlead, hpayload, hmore, hlow, hhigh⟩
    refine ⟨by omega, lead, hlead, by omega, hmore, ?_, ?_⟩
    · rw [hlow, hfirst]
      split <;> omega
    · rw [hhigh, hfirst]
      split <;> omega
  have hcode : (v / 4096 * 64 + v / 64 % 64) * 64 + v % 64 = v := by omega
  rw [piece_of_leads hleads, extend_tailByte, continuation_tailByte, continuation, hcode]

theorem piece_four {v : Nat} (hleast : 0x10000 ≤ v) (hmost : v < 0x110000) (rest : List UInt8) :
    piece (UInt8.ofNat (v / 262144 % 8 + 240))
        (tailByte (v / 4096) :: tailByte (v / 64) :: tailByte v :: rest) =
      .char (Char.ofNat v) 4 := by
  have hfirst : (UInt8.ofNat (v / 262144 % 8 + 240)).toNat = v / 262144 + 240 := by
    rw [toNat_ofNat_of_lt (by omega)]
    omega
  have hleads :
      Leads (UInt8.ofNat (v / 262144 % 8 + 240)) (tailByte (v / 4096)) (v / 262144) 2 := by
    have hsecond := toNat_tailByte (v / 4096)
    rcases lead_four (b := UInt8.ofNat (v / 262144 % 8 + 240)) (by omega) (by omega) with
      ⟨lead, hlead, hpayload, hmore, hlow, hhigh⟩
    refine ⟨by omega, lead, hlead, by omega, hmore, ?_, ?_⟩
    · rw [hlow, hfirst]
      split <;> omega
    · rw [hhigh, hfirst]
      split <;> omega
  have hcode : ((v / 262144 * 64 + v / 4096 % 64) * 64 + v / 64 % 64) * 64 + v % 64 = v := by
    omega
  rw [piece_of_leads hleads, extend_tailByte, continuation_tailByte, continuation_tailByte,
    continuation, hcode]

theorem piece_encodeChar (c : Char) :
    exists first more, String.utf8EncodeChar c = first :: more ∧
      forall rest, piece first (more ++ rest) = .char c (more.length + 1) := by
  have hback : Char.ofNat c.val.toNat = c := Char.ofNat_toNat c
  have hvalid : c.val.toNat < 0xD800 ∨ (0xDFFF < c.val.toNat ∧ c.val.toNat < 0x110000) := c.valid
  by_cases hone : c.val.toNat ≤ 0x7F
  · refine ⟨_, [], String.utf8EncodeChar.eq_1 c |>.trans (if_pos hone), ?_⟩
    intro rest
    rw [List.nil_append, piece_one hone, hback]
    rfl
  by_cases htwo : c.val.toNat ≤ 0x7FF
  · refine ⟨_, [tailByte c.val.toNat],
      String.utf8EncodeChar.eq_1 c |>.trans ((if_neg hone).trans (if_pos htwo)), ?_⟩
    intro rest
    rw [List.singleton_append, piece_two (by omega) htwo, hback]
    rfl
  by_cases hthree : c.val.toNat ≤ 0xFFFF
  · refine ⟨_, [tailByte (c.val.toNat / 64), tailByte c.val.toNat],
      String.utf8EncodeChar.eq_1 c |>.trans
        ((if_neg hone).trans ((if_neg htwo).trans (if_pos hthree))), ?_⟩
    intro rest
    rw [List.cons_append, List.singleton_append, piece_three (by omega) hthree (by omega), hback]
    rfl
  · refine ⟨_, [tailByte (c.val.toNat / 4096), tailByte (c.val.toNat / 64), tailByte c.val.toNat],
      String.utf8EncodeChar.eq_1 c |>.trans
        ((if_neg hone).trans ((if_neg htwo).trans (if_neg hthree))), ?_⟩
    intro rest
    rw [List.cons_append, List.cons_append, List.singleton_append,
      piece_four (by omega) (by omega), hback]
    rfl

theorem utf8EncodeChar_of_ascii {c : Char} (hascii : c.toNat < 0x80) :
    String.utf8EncodeChar c = [Ascii.byte c] :=
  (String.utf8EncodeChar.eq_1 c).trans (if_pos (Nat.le_of_lt_succ hascii))

theorem mem_utf8EncodeChar {c : Char} {b : UInt8} (hmem : b ∈ String.utf8EncodeChar c) :
    b.toNat = c.toNat ∨ 0x80 ≤ b.toNat := by
  by_cases hascii : c.toNat < 0x80
  · rw [utf8EncodeChar_of_ascii hascii] at hmem
    rw [List.mem_singleton.mp hmem]
    exact Or.inl (toNat_ofNat_of_lt (by omega))
  · refine Or.inr ?_
    have hbytes : forall n, 128 ≤ n % 256 -> 128 ≤ (UInt8.ofNat n).toNat := by
      intro n hn
      rw [UInt8.toNat_ofNat']
      exact hn
    have hnot : ¬c.val.toNat ≤ 0x7F := fun h => hascii (Nat.lt_succ_of_le h)
    rw [String.utf8EncodeChar.eq_1, if_neg hnot] at hmem
    split at hmem
    · simp only [List.mem_cons, List.not_mem_nil, or_false] at hmem
      rcases hmem with rfl | rfl <;> exact hbytes _ (by omega)
    split at hmem
    · simp only [List.mem_cons, List.not_mem_nil, or_false] at hmem
      rcases hmem with rfl | rfl | rfl <;> exact hbytes _ (by omega)
    · simp only [List.mem_cons, List.not_mem_nil, or_false] at hmem
      rcases hmem with rfl | rfl | rfl | rfl <;> exact hbytes _ (by omega)

/-!
# Texts
-/

@[simp] theorem encodeChars_nil : encodeChars [] = [] := rfl

@[simp] theorem encodeChars_cons (c : Char) (cs : List Char) :
    encodeChars (c :: cs) = String.utf8EncodeChar c ++ encodeChars cs :=
  List.flatMap_cons

@[simp] theorem encodeChars_append (one other : List Char) :
    encodeChars (one ++ other) = encodeChars one ++ encodeChars other :=
  List.flatMap_append

theorem encodeChars_of_ascii {cs : List Char} (hascii : forall c, c ∈ cs -> c.toNat < 0x80) :
    encodeChars cs = cs.map Ascii.byte := by
  induction cs with
  | nil => rfl
  | cons c cs ih =>
      have hhead := utf8EncodeChar_of_ascii (hascii c List.mem_cons_self)
      have htail := ih fun other hmem => hascii other (List.mem_cons_of_mem c hmem)
      simp [hhead, htail]

theorem decodeFrom_encodeChars (index : Nat) (cs : List Char) :
    decodeFrom index (encodeChars cs) = .ok cs := by
  induction cs generalizing index with
  | nil => rw [encodeChars_nil, decodeFrom]
  | cons c rest ih =>
      rcases piece_encodeChar c with ⟨first, more, hbytes, hpiece⟩
      have hencode : encodeChars (c :: rest) = first :: (more ++ encodeChars rest) := by
        simp [hbytes]
      rw [hencode, decodeFrom, hpiece]
      simp only [Nat.add_sub_cancel, List.drop_left, ih]

@[simp] theorem encode_append (one other : String) :
    encode (one ++ other) = encode one ++ encode other := by
  simp [encode]

theorem decode?_encodeChars (cs : List Char) :
    decode? (encodeChars cs) = some (String.ofList cs) := by
  unfold decode? decode
  rw [decodeFrom_encodeChars]
  rfl

end Utf8
end Gatekeeper
