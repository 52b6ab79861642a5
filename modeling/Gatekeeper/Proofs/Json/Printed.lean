import Gatekeeper.Json.Printer
import Gatekeeper.Proofs.Json.Typed
import Gatekeeper.Proofs.Text.Utf8

/-!
# Printed scalars are read back

A string is printed so that reading it gives the string, whatever characters it has,
and so is a whole number of 64 bits, if something that cannot belong to a number
follows it.
-/

namespace Gatekeeper

namespace Json
namespace Reader

open Utf8

/-!
# Strings
-/

theorem stringBytes_plain {bytes : List UInt8}
    (hplain : forall b, b ∈ bytes -> b ≠ 0x22 ∧ b ≠ 0x5C ∧ ¬b < 0x20) (done rest : List UInt8) :
    stringBytes done (bytes ++ rest) = stringBytes (bytes.reverse ++ done) rest := by
  induction bytes generalizing done with
  | nil => rfl
  | cons b tail ih =>
      rcases hplain b List.mem_cons_self with ⟨hquote, hslash, hcontrol⟩
      have htail := ih (fun other hmem => hplain other (List.mem_cons_of_mem b hmem)) (b :: done)
      rw [List.cons_append, stringBytes, if_neg hquote, if_neg hslash, if_neg hcontrol, htail,
        List.reverse_cons, List.append_assoc, List.singleton_append]

theorem stringBytes_escape {rest bytes : List UInt8} (done : List UInt8)
    (hescape : (escape rest).result = .ok bytes) :
    stringBytes done (0x5C :: rest) =
      stringBytes (bytes.reverse ++ done) (rest.drop (escape rest).size) := by
  rw [stringBytes]
  simp [hescape]

theorem stringBytes_simple {b c : UInt8} (hunit : b ≠ 0x75) (hsimple : simpleEscape? b = some c)
    (done rest : List UInt8) :
    stringBytes done (0x5C :: b :: rest) = stringBytes (c :: done) rest := by
  have hescape : escape (b :: rest) = ⟨.ok [c], 1⟩ := by
    unfold escape
    simp only [if_neg hunit, hsimple]
  rw [stringBytes_escape done (by rw [hescape]), hescape]
  rfl

theorem hexByte_of_lt : forall n, n < 16 ->
    (hexDigit n).toNat < 0x80 ∧ Ascii.hexValue? (Ascii.byte (hexDigit n)) = some n := by
  decide

theorem codeUnit?_of_lt {n : Nat} (hsmall : n < 32) :
    codeUnit? 0x30 0x30 (Ascii.byte (hexDigit (n / 16))) (Ascii.byte (hexDigit (n % 16))) =
      some n := by
  have hzero : Ascii.hexValue? 0x30 = some 0 := rfl
  have hcode : ((0 * 16 + 0) * 16 + n / 16) * 16 + n % 16 = n := by omega
  unfold codeUnit?
  simp only [hzero, (hexByte_of_lt (n / 16) (by omega)).right,
    (hexByte_of_lt (n % 16) (by omega)).right, bind, Option.bind_some, pure, hcode]

theorem escape_control {n : Nat} (hsmall : n < 32) (rest : List UInt8) :
    escape (0x75 :: 0x30 :: 0x30 :: Ascii.byte (hexDigit (n / 16)) ::
      Ascii.byte (hexDigit (n % 16)) :: rest) = ⟨.ok (encodeCode n), 5⟩ := by
  have hlow : isLowSurrogate n = false := by
    unfold isLowSurrogate
    rw [decide_eq_false (by omega), Bool.false_and]
  have hhigh : isHighSurrogate n = false := by
    unfold isHighSurrogate
    rw [decide_eq_false (by omega), Bool.false_and]
  simp only [escape, unitEscape, hexUnit, codeUnit?_of_lt hsmall, hlow, hhigh, if_true,
    Bool.false_eq_true, if_false]

theorem stringBytes_control {c : Char} (hcontrol : c.toNat < 32) (done rest : List UInt8) :
    stringBytes done (encodeChars ['\\', 'u', '0', '0', hexDigit (c.toNat / 16),
      hexDigit (c.toNat % 16)] ++ rest) =
        stringBytes ((String.utf8EncodeChar c).reverse ++ done) rest := by
  have hbytes : encodeChars ['\\', 'u', '0', '0', hexDigit (c.toNat / 16),
      hexDigit (c.toNat % 16)] ++ rest =
        0x5C :: 0x75 :: 0x30 :: 0x30 :: Ascii.byte (hexDigit (c.toNat / 16)) ::
          Ascii.byte (hexDigit (c.toNat % 16)) :: rest := by
    simp only [encodeChars_cons,
      utf8EncodeChar_of_ascii (hexByte_of_lt (c.toNat / 16) (by omega)).left,
      utf8EncodeChar_of_ascii (hexByte_of_lt (c.toNat % 16) (by omega)).left]
    rfl
  have hescape := escape_control hcontrol rest
  have hcode : encodeCode c.toNat = String.utf8EncodeChar c :=
    congrArg String.utf8EncodeChar (Char.ofNat_toNat c)
  rw [hbytes, stringBytes_escape done (by rw [hescape]), hescape, hcode]
  rfl

theorem stringBytes_unescaped {c : Char} (hquote : c ≠ '"') (hslash : c ≠ '\\')
    (hcontrol : ¬c.toNat < 32) (done rest : List UInt8) :
    stringBytes done (encodeChars [c] ++ rest) =
      stringBytes ((String.utf8EncodeChar c).reverse ++ done) rest := by
  have hbytes : encodeChars [c] = String.utf8EncodeChar c := List.flatMap_singleton _ _
  rw [hbytes]
  apply stringBytes_plain
  intro b hmem
  have hne : forall special : Char, c ≠ special -> special.toNat < 0x80 ->
      b.toNat ≠ special.toNat := by
    intro special hc hascii hb
    rcases mem_utf8EncodeChar hmem with hsame | hbeyond
    · rw [hsame] at hb
      exact hc (Char.toNat_inj.mp hb)
    · omega
  refine ⟨?_, ?_, ?_⟩
  · intro hb
    exact hne '"' hquote (by decide) (by rw [hb]; rfl)
  · intro hb
    exact hne '\\' hslash (by decide) (by rw [hb]; rfl)
  · rw [UInt8.lt_iff_toNat_lt]
    show ¬b.toNat < 32
    rcases mem_utf8EncodeChar hmem with hsame | hbeyond
    · omega
    · omega

theorem stringBytes_escapeChar (c : Char) (done rest : List UInt8) :
    stringBytes done (encodeChars (escapeChar c) ++ rest) =
      stringBytes ((String.utf8EncodeChar c).reverse ++ done) rest := by
  unfold escapeChar
  -- The seven characters with an escape of their own.
  iterate 7
    split
    · rename_i hc
      rw [hc]
      exact stringBytes_simple (by decide) rfl done rest
  split
  · rename_i hcontrol
    exact stringBytes_control hcontrol done rest
  · rename_i hquote hslash _ _ _ _ _ hcontrol
    exact stringBytes_unescaped hquote hslash hcontrol done rest

theorem stringBytes_escaped (cs : List Char) (done rest : List UInt8) :
    stringBytes done (encodeChars (cs.flatMap escapeChar) ++ 0x22 :: rest) =
      .ok (done.reverse ++ encodeChars cs) rest := by
  induction cs generalizing done with
  | nil => simp [stringBytes]
  | cons c cs ih =>
      simp [stringBytes_escapeChar, ih]

theorem stringTail_printed (s : String) (rest : List UInt8) :
    stringTail (encodeChars (s.toList.flatMap escapeChar) ++ 0x22 :: rest) = .ok s rest := by
  unfold stringTail
  rw [bind_of_ok (stringBytes_escaped s.toList [] rest), List.reverse_nil, List.nil_append,
    decode?_encodeChars, String.ofList_toList]
  rfl

theorem encodeChars_stringChars (s : String) (rest : List UInt8) :
    encodeChars (stringChars s) ++ rest =
      0x22 :: (encodeChars (s.toList.flatMap escapeChar) ++ 0x22 :: rest) := by
  unfold stringChars
  rw [List.cons_append, encodeChars_cons, encodeChars_append, List.append_assoc,
    List.append_assoc]
  rfl

theorem string_printed (s : String) (rest : List UInt8) :
    string (encodeChars (stringChars s) ++ rest) = .ok s rest := by
  have hnext : unblanked (0x22 :: (encodeChars (s.toList.flatMap escapeChar) ++ 0x22 :: rest)) =
      0x22 :: (encodeChars (s.toList.flatMap escapeChar) ++ 0x22 :: rest) := rfl
  rw [encodeChars_stringChars]
  unfold string onValue
  rw [next_bind, hnext]
  exact stringTail_printed s rest

end Reader

/-!
# Whole numbers
-/

namespace Numeral

open Reader Utf8

/-- A byte after which a number of digits only has ended. -/
structure Ends (b : UInt8) : Prop where
  digit : Ascii.isDigit b = false
  point : b ≠ 0x2E
  exponent : isExponentMark b = false

theorem isDigit_byte {d : Char} (hdigit : d.isDigit = true) :
    Ascii.isDigit (Ascii.byte d) = true ∧ Ascii.digitValue (Ascii.byte d) = d.toNat - 48 ∧
      d.toNat < 0x80 := by
  have hrange : 48 ≤ d.toNat ∧ d.toNat ≤ 57 := by
    simpa [Char.isDigit, UInt32.le_iff_toNat_le] using hdigit
  have hvalue : (Ascii.byte d).toNat = d.toNat := toNat_ofNat_of_lt (by omega)
  refine ⟨?_, ?_, by omega⟩
  · simp only [Ascii.isDigit, UInt8.le_iff_toNat_le, hvalue, Bool.and_eq_true, decide_eq_true_eq]
    exact hrange
  · unfold Ascii.digitValue
    rw [hvalue]

theorem le_ofDigitChars (ds : List Char) (n : Nat) : n ≤ Nat.ofDigitChars 10 ds n := by
  induction ds generalizing n with
  | nil => exact Nat.le_refl n
  | cons d ds ih =>
      have hnext := ih (10 * n + (d.toNat - '0'.toNat))
      have hcons : Nat.ofDigitChars 10 (d :: ds) n =
          Nat.ofDigitChars 10 ds (10 * n + (d.toNat - '0'.toNat)) := rfl
      omega

section Digits

variable {ds : List Char}

theorem encodeChars_digits (hdigits : forall d, d ∈ ds -> d.isDigit = true) :
    encodeChars ds = ds.map Ascii.byte :=
  encodeChars_of_ascii fun d hmem => (isDigit_byte (hdigits d hmem)).right.right

theorem absorb_digits (hdigits : forall d, d ∈ ds -> d.isDigit = true) {most n : Nat}
    (hmost : Nat.ofDigitChars 10 ds n ≤ most) (count : Nat) :
    absorb most n count (ds.map Ascii.byte) =
      (Nat.ofDigitChars 10 ds n, count + ds.length) := by
  induction ds generalizing n count with
  | nil => rfl
  | cons d ds ih =>
      have hvalue := (isDigit_byte (hdigits d List.mem_cons_self)).right.left
      have hnext : Nat.ofDigitChars 10 (d :: ds) n =
          Nat.ofDigitChars 10 ds (n * 10 + (d.toNat - 48)) := by
        rw [Nat.mul_comm]
        rfl
      have hfits := le_ofDigitChars ds (n * 10 + (d.toNat - 48))
      rw [hnext] at hmost ⊢
      have hrest := ih (fun other hmem => hdigits other (List.mem_cons_of_mem d hmem)) hmost
        (count + 1)
      rw [List.map_cons, absorb, hvalue, if_neg (by omega), hrest, List.length_cons,
        Nat.add_assoc, Nat.add_comm 1]

theorem digits_append (hdigits : forall d, d ∈ ds -> d.isDigit = true) {b : UInt8}
    (hends : Ends b) (rest : List UInt8) :
    digits (ds.map Ascii.byte ++ b :: rest) = (ds.map Ascii.byte, b :: rest) := by
  have hall : forall c, c ∈ ds.map Ascii.byte -> Ascii.isDigit c = true := by
    intro c hmem
    rcases List.mem_map.mp hmem with ⟨d, hd, rfl⟩
    exact (isDigit_byte (hdigits d hd)).left
  unfold digits
  rw [List.takeWhile_append_of_pos hall, List.dropWhile_append_of_pos hall,
    List.takeWhile_cons_of_neg (by rw [hends.digit]; decide),
    List.dropWhile_cons_of_neg (by rw [hends.digit]; decide), List.append_nil]

end Digits

theorem isDigit_of_mem_toDigits {m : Nat} {d : Char} (hmem : d ∈ Nat.toDigits 10 m) :
    d.isDigit = true :=
  Nat.isDigit_of_mem_toDigits (by decide) (by decide) hmem

theorem exists_toDigits_eq_cons {m : Nat} (hpositive : 0 < m) :
    exists d ds, Nat.toDigits 10 m = d :: ds ∧ d ≠ '0' := by
  induction m using Nat.strongRecOn with
  | ind m ih =>
      rw [Nat.toDigits_eq_if (by decide)]
      split
      · rename_i hsmall
        refine ⟨_, [], rfl, ?_⟩
        intro hzero
        have hdigit : forall n, n < 10 -> n.digitChar = '0' -> n = 0 := by decide
        have := hdigit m hsmall hzero
        omega
      · rcases ih (m / 10) (by omega) (by omega) with ⟨d, ds, hdigits, hne⟩
        exact ⟨d, ds ++ [(m % 10).digitChar], by rw [hdigits, List.cons_append], hne⟩

theorem afterWhole_of_ends (negative : Bool) (m : Nat) {b : UInt8} (hends : Ends b)
    (rest : List UInt8) :
    afterWhole negative m 0 (b :: rest) = .ok (ofDigits negative m) (b :: rest) := by
  simp only [afterWhole, if_neg hends.point, hends.exponent, Bool.false_eq_true, if_false,
    if_true]

theorem read_toDigits (negative : Bool) {m : Nat} (hmost : m ≤ mostSignificand) {b : UInt8}
    (hends : Ends b) (rest : List UInt8) :
    read negative (encodeChars (Nat.toDigits 10 m) ++ b :: rest) =
      .ok (ofDigits negative m) (b :: rest) := by
  cases Nat.eq_zero_or_pos m with
  | inl hzero =>
      rw [hzero, Nat.toDigits_zero]
      show (if (some b).any Ascii.isDigit then _ else _) = _
      rw [Option.any_some, hends.digit]
      exact afterWhole_of_ends negative 0 hends rest
  | inr hpositive =>
      have hdigits : forall d, d ∈ Nat.toDigits 10 m -> d.isDigit = true :=
        fun d => isDigit_of_mem_toDigits
      have hrun := digits_append hdigits hends rest
      have hback : Nat.ofDigitChars 10 (Nat.toDigits 10 m) 0 = m := Nat.ofDigitChars_ten_toDigits
      have habsorbed := absorb_digits hdigits (Nat.le_trans (Nat.le_of_eq hback) hmost) 0
      rw [hback, Nat.zero_add] at habsorbed
      rcases exists_toDigits_eq_cons hpositive with ⟨d, ds, hcons, hne⟩
      rw [encodeChars_digits hdigits]
      rw [hcons] at hdigits hrun habsorbed ⊢
      rcases isDigit_byte (hdigits d List.mem_cons_self) with ⟨hdigit, _, hascii⟩
      have hzero : Ascii.byte d ≠ 0x30 := by
        intro hbyte
        have hvalue : (Ascii.byte d).toNat = d.toNat := toNat_ofNat_of_lt (by omega)
        rw [hbyte] at hvalue
        exact hne (Char.toNat_inj.mp hvalue.symm)
      simp only [List.map_cons, List.cons_append] at hrun habsorbed ⊢
      unfold read
      simp only [if_neg hzero, hdigit, if_true, hrun, habsorbed, List.length_map,
        List.length_cons, Nat.sub_self]
      exact afterWhole_of_ends negative m hends rest

end Numeral

namespace Reader

open Utf8

theorem unblanked_cons {b : UInt8} (hsolid : Ascii.isBlank b = false) (rest : List UInt8) :
    unblanked (b :: rest) = b :: rest := by
  unfold unblanked
  rw [List.dropWhile_cons_of_neg (by rw [hsolid]; decide)]

theorem not_isBlank_of_isDigit {b : UInt8} (hdigit : Ascii.isDigit b = true) :
    Ascii.isBlank b = false ∧ b ≠ 0x2D := by
  have hne : forall c : UInt8, Ascii.isDigit c = false -> b ≠ c := by
    intro c hc hb
    rw [hb, hc] at hdigit
    cases hdigit
  refine ⟨?_, hne 0x2D rfl⟩
  simp only [Ascii.isBlank, hne 0x20 rfl, hne 0x09 rfl, hne 0x0A rfl, hne 0x0D rfl,
    decide_false, Bool.or_self]

theorem number_natural (expected : String) {m : Nat} (hmost : m ≤ Numeral.mostSignificand)
    {b : UInt8} (hends : Numeral.Ends b) (rest : List UInt8) :
    number expected (encodeChars (Nat.toDigits 10 m) ++ b :: rest) =
      .ok (.integer m) (b :: rest) := by
  have hread := Numeral.read_toDigits false hmost hends rest
  have hdigits : forall d, d ∈ Nat.toDigits 10 m -> d.isDigit = true :=
    fun d => Numeral.isDigit_of_mem_toDigits
  rw [Numeral.encodeChars_digits hdigits] at hread ⊢
  cases hcons : Nat.toDigits 10 m with
  | nil => exact absurd hcons Nat.toDigits_ne_nil
  | cons d ds =>
      rw [hcons] at hdigits hread
      have hdigit := (Numeral.isDigit_byte (hdigits d List.mem_cons_self)).left
      rcases not_isBlank_of_isDigit hdigit with ⟨hsolid, hminus⟩
      unfold number onValue
      rw [List.map_cons, List.cons_append, next_bind, unblanked_cons hsolid]
      simp only [List.head?_cons, if_neg hminus, if_pos hdigit]
      exact hread

theorem number_negative (expected : String) {m : Nat} (hpositive : 0 < m)
    (hmost : m ≤ 0x8000000000000000) {b : UInt8} (hends : Numeral.Ends b) (rest : List UInt8) :
    number expected (encodeChars ('-' :: Nat.toDigits 10 m) ++ b :: rest) =
      .ok (.integer (-(m : Int))) (b :: rest) := by
  have hread := Numeral.read_toDigits true
    (Nat.le_trans hmost (by decide : 0x8000000000000000 ≤ Numeral.mostSignificand)) hends rest
  have hvalue : Numeral.ofDigits true m = .integer (-(m : Int)) := by
    unfold Numeral.ofDigits
    rw [if_neg (by decide), if_neg (by omega)]
  rw [hvalue] at hread
  rw [encodeChars_cons, List.append_assoc]
  exact hread

theorem int64_printed {n : Int} (hleast : Number.leastInt64 ≤ n) (hmost : n ≤ Number.mostInt64)
    {b : UInt8} (hends : Numeral.Ends b) (rest : List UInt8) :
    int64 (encodeChars (Number.integerChars n) ++ b :: rest) = .ok n (b :: rest) := by
  have hnumber : number "i64" (encodeChars (Number.integerChars n) ++ b :: rest) =
      .ok (.integer n) (b :: rest) := by
    unfold Number.leastInt64 at hleast
    unfold Number.mostInt64 at hmost
    unfold Number.integerChars
    by_cases hnegative : n < 0
    · rw [if_pos hnegative, number_negative "i64" (by omega) (by omega) hends rest]
      congr 2
      omega
    · have hfits : n.natAbs ≤ Numeral.mostSignificand := by
        unfold Numeral.mostSignificand
        omega
      rw [if_neg hnegative, number_natural "i64" hfits hends rest]
      congr 2
      omega
  unfold int64 integerWithin
  rw [bind_of_ok hnumber]
  simp only [if_pos (And.intro hleast hmost)]
  rfl

end Reader
end Json
end Gatekeeper
