import Gatekeeper.Proofs.Decimal.Nearest
import Gatekeeper.Proofs.Json.Printed

/-!
# Compact text

What the compact text of a value is, without regard to how it is made: no blanks, no
escapes but the ones that are needed, whole numbers digit by digit, and other numbers
by a decimal that no other number is nearer to.
-/

namespace Gatekeeper

namespace Json

/-!
# Strings
-/

def IsHexDigit (digit : Char) (n : Nat) : Prop :=
  "0123456789abcdef".toList[n]? = some digit

/-- How a character stands between quotes. -/
inductive PrintsChar : Char -> List Char -> Prop
  | quote : PrintsChar '"' ['\\', '"']
  | backslash : PrintsChar '\\' ['\\', '\\']
  | backspace : PrintsChar '\x08' ['\\', 'b']
  | formFeed : PrintsChar '\x0c' ['\\', 'f']
  | lineFeed : PrintsChar '\n' ['\\', 'n']
  | carriageReturn : PrintsChar '\r' ['\\', 'r']
  | tab : PrintsChar '\t' ['\\', 't']
  | control {c high low : Char} (hcontrol : c.toNat < 0x20)
      (hlong : c ∉ ['\x08', '\x0c', '\n', '\r', '\t']) (hhigh : IsHexDigit high (c.toNat / 16))
      (hlow : IsHexDigit low (c.toNat % 16)) : PrintsChar c ['\\', 'u', '0', '0', high, low]
  | plain {c : Char} (hquote : c ≠ '"') (hbackslash : c ≠ '\\') (hcontrol : 0x20 ≤ c.toNat) :
      PrintsChar c [c]

inductive PrintsChars : List Char -> List Char -> Prop
  | nil : PrintsChars [] []
  | cons {c : Char} {cs text more : List Char} (hchar : PrintsChar c text)
      (hrest : PrintsChars cs more) : PrintsChars (c :: cs) (text ++ more)

inductive PrintsString (s : String) : List Char -> Prop
  | quoted {text : List Char} (hchars : PrintsChars s.toList text) :
      PrintsString s ('"' :: text ++ ['"'])

theorem isHexDigit_hexDigit : forall n, n < 16 -> IsHexDigit (hexDigit n) n := by
  unfold IsHexDigit
  decide

theorem printsChar_escapeChar (c : Char) : PrintsChar c (escapeChar c) := by
  unfold escapeChar
  split
  · rename_i hc
    exact hc ▸ .quote
  split
  · rename_i hc
    exact hc ▸ .backslash
  split
  · rename_i hc
    exact hc ▸ .backspace
  split
  · rename_i hc
    exact hc ▸ .formFeed
  split
  · rename_i hc
    exact hc ▸ .lineFeed
  split
  · rename_i hc
    exact hc ▸ .carriageReturn
  split
  · rename_i hc
    exact hc ▸ .tab
  split
  · rename_i hcontrol
    exact .control hcontrol (by simp [*]) (isHexDigit_hexDigit _ (by omega))
      (isHexDigit_hexDigit _ (by omega))
  · rename_i hquote hbackslash _ _ _ _ _ hcontrol
    exact .plain hquote hbackslash (Nat.le_of_not_lt hcontrol)

theorem printsString_stringChars (s : String) : PrintsString s (stringChars s) := by
  refine .quoted ?_
  induction s.toList with
  | nil => exact .nil
  | cons c cs ih => exact .cons (printsChar_escapeChar c) ih

/-!
# Decimals
-/

structure IsNatural (n : Nat) (text : List Char) : Prop where
  digits : forall d, d ∈ text -> d.isDigit = true
  value : Nat.ofDigitChars 10 text 0 = n
  first : exists d ds, text = d :: ds ∧ (d = '0' -> ds = [])

inductive IsPlaces : ℚ -> List Char -> Prop
  | point {n : Nat} {whole places : List Char} (hwhole : IsNatural n whole) (hne : places ≠ [])
      (hdigits : forall d, d ∈ places -> d.isDigit = true) :
      IsPlaces (n + Nat.ofDigitChars 10 places 0 / 10 ^ places.length) (whole ++ '.' :: places)

inductive IsPower : Int -> List Char -> Prop
  | plus {n : Nat} {text : List Char} (htext : IsNatural n text) : IsPower n ('e' :: '+' :: text)
  | minus {n : Nat} {text : List Char} (htext : IsNatural n text) :
      IsPower (-n) ('e' :: '-' :: text)

/-- A decimal that is told from whole numbers by its point or its power of ten. -/
inductive IsDecimal : ℚ -> List Char -> Prop
  | places {q : ℚ} {text : List Char} (htext : IsPlaces q text) : IsDecimal q text
  | wholePower {n : Nat} {e : Int} {whole power : List Char} (hwhole : IsNatural n whole)
      (hpower : IsPower e power) : IsDecimal (n * 10 ^ e) (whole ++ power)
  | placesPower {q : ℚ} {e : Int} {text power : List Char} (htext : IsPlaces q text)
      (hpower : IsPower e power) : IsDecimal (q * 10 ^ e) (text ++ power)

theorem isNatural_toDigits (n : Nat) : IsNatural n (Nat.toDigits 10 n) where
  digits _ hmem := Numeral.isDigit_of_mem_toDigits hmem
  value := Nat.ofDigitChars_ten_toDigits
  first := by
    rcases Nat.eq_zero_or_pos n with rfl | hpositive
    · exact ⟨'0', [], rfl, fun _ => rfl⟩
    · rcases Numeral.exists_toDigits_eq_cons hpositive with ⟨d, ds, hdigits, hne⟩
      exact ⟨d, ds, hdigits, fun hzero => absurd hzero hne⟩

theorem isNatural_zero : IsNatural 0 ['0'] :=
  isNatural_toDigits 0

theorem isPower_writeExponent (e : Int) : IsPower e (Decimal.writeExponent e) := by
  unfold Decimal.writeExponent
  split
  · have hnegative : e = -(e.natAbs : Int) := by omega
    nth_rewrite 1 [hnegative]
    exact .minus (isNatural_toDigits _)
  · have hnatural : e = (e.natAbs : Int) := by omega
    nth_rewrite 1 [hnatural]
    exact .plus (isNatural_toDigits _)

/-!
# Layouts
-/

section

variable {n k : Nat}

theorem isDigit_of_mem_zeros {d : Char} (hmem : d ∈ Decimal.zeros k) : d.isDigit = true := by
  rw [List.eq_of_mem_replicate hmem]
  rfl

theorem isNatural_zeros (hpositive : 0 < n) :
    IsNatural (n * 10 ^ k) (Nat.toDigits 10 n ++ Decimal.zeros k) where
  digits d hmem := by
    rcases List.mem_append.mp hmem with hdigit | hzero
    · exact Numeral.isDigit_of_mem_toDigits hdigit
    · exact isDigit_of_mem_zeros hzero
  value := by
    rw [Nat.ofDigitChars_append, Nat.ofDigitChars_ten_toDigits, Decimal.zeros,
      Nat.ofDigitChars_replicate_zero, Nat.mul_comm]
  first := by
    rcases Numeral.exists_toDigits_eq_cons hpositive with ⟨d, ds, hdigits, hne⟩
    exact ⟨d, ds ++ Decimal.zeros k, by rw [hdigits, List.cons_append],
      fun hzero => absurd hzero hne⟩

theorem isPlaces_split (hpositive : 0 < n) (hleast : 0 < k)
    (hmost : k < (Nat.toDigits 10 n).length) :
    IsPlaces (n / 10 ^ ((Nat.toDigits 10 n).length - k))
      ((Nat.toDigits 10 n).take k ++ '.' :: (Nat.toDigits 10 n).drop k) := by
  have hlength : ((Nat.toDigits 10 n).drop k).length = (Nat.toDigits 10 n).length - k :=
    List.length_drop
  have hvalue : n = 10 ^ ((Nat.toDigits 10 n).length - k) *
      Nat.ofDigitChars 10 ((Nat.toDigits 10 n).take k) 0 +
        Nat.ofDigitChars 10 ((Nat.toDigits 10 n).drop k) 0 := by
    rw [← hlength, ← Nat.ofDigitChars_eq_ofDigitChars_zero, ← Nat.ofDigitChars_append,
      List.take_append_drop, Nat.ofDigitChars_ten_toDigits]
  have hnatural : IsNatural (Nat.ofDigitChars 10 ((Nat.toDigits 10 n).take k) 0)
      ((Nat.toDigits 10 n).take k) := by
    refine ⟨fun d hmem => Numeral.isDigit_of_mem_toDigits (List.mem_of_mem_take hmem), rfl, ?_⟩
    rcases Numeral.exists_toDigits_eq_cons hpositive with ⟨d, ds, hdigits, hne⟩
    rcases Nat.exists_eq_succ_of_ne_zero (Nat.ne_of_gt hleast) with ⟨k, rfl⟩
    exact ⟨d, ds.take k, by rw [hdigits, List.take_succ_cons], fun hzero => absurd hzero hne⟩
  have hplaces := IsPlaces.point hnatural
    (by simpa using hmost : (Nat.toDigits 10 n).drop k ≠ [])
    (fun d hmem => Numeral.isDigit_of_mem_toDigits (List.mem_of_mem_drop hmem))
  rw [hlength] at hplaces
  convert hplaces using 1
  nth_rewrite 1 [hvalue]
  push_cast
  rw [add_div, mul_div_cancel_left₀ _ (by positivity)]

theorem isPlaces_zeros :
    IsPlaces (n / 10 ^ (k + (Nat.toDigits 10 n).length))
      (['0'] ++ '.' :: (Decimal.zeros k ++ Nat.toDigits 10 n)) := by
  have hvalue : Nat.ofDigitChars 10 (Decimal.zeros k ++ Nat.toDigits 10 n) 0 = n := by
    rw [Nat.ofDigitChars_append, Decimal.zeros, Nat.ofDigitChars_replicate_zero, Nat.mul_zero,
      Nat.ofDigitChars_ten_toDigits]
  have hlength : (Decimal.zeros k ++ Nat.toDigits 10 n).length =
      k + (Nat.toDigits 10 n).length := by
    rw [List.length_append, Decimal.zeros, List.length_replicate]
  have hdigits : forall d, d ∈ Decimal.zeros k ++ Nat.toDigits 10 n -> d.isDigit = true := by
    intro d hmem
    rcases List.mem_append.mp hmem with hzero | hdigit
    · exact isDigit_of_mem_zeros hzero
    · exact Numeral.isDigit_of_mem_toDigits hdigit
  have hplaces := IsPlaces.point isNatural_zero (by simp) hdigits
  rw [hvalue, hlength, Nat.cast_zero, zero_add] at hplaces
  exact hplaces

end

theorem isPlaces_natural {n : Nat} {whole : List Char} (hwhole : IsNatural n whole) :
    IsPlaces n (whole ++ ['.', '0']) := by
  have hzero : Nat.ofDigitChars 10 ['0'] 0 = 0 := rfl
  have hplaces := IsPlaces.point hwhole (by simp : ['0'] ≠ [])
    (List.forall_mem_singleton.mpr rfl)
  rw [hzero, Nat.cast_zero, zero_div, add_zero] at hplaces
  exact hplaces

theorem isDecimal_write (layout : Decimal.Layout) (d : Decimal.Digits) :
    IsDecimal d.value (layout.write d) := by
  rcases d with ⟨n, exponent⟩
  unfold Decimal.Layout.write Decimal.Digits.value
  simp only
  split
  · rename_i hzero
    rw [hzero, Nat.cast_zero, zero_mul]
    exact .places (isPlaces_natural isNatural_zero)
  rename_i hne
  have hpositive : 0 < n := Nat.pos_of_ne_zero hne
  have hlength : 0 < (Nat.toDigits 10 n).length := Nat.length_toDigits_pos
  generalize hleading : exponent + ((Nat.toDigits 10 n).length : Int) - 1 = leading
  split
  · split
    · rename_i hnatural
      rcases Int.eq_ofNat_of_zero_le hnatural with ⟨k, rfl⟩
      have hplaces := isPlaces_natural (isNatural_zeros hpositive (k := k))
      push_cast at hplaces
      exact .places hplaces
    split
    · rename_i hnegative hpoint
      have hplaces := isPlaces_split (k := leading.toNat + 1) hpositive (by omega) (by omega)
      have hcount : exponent = -((Nat.toDigits 10 n).length - (leading.toNat + 1) : Nat) := by
        omega
      rw [hcount, zpow_neg, zpow_natCast, ← div_eq_mul_inv]
      exact .places hplaces
    · rename_i hnegative hpoint
      have hplaces := isPlaces_zeros (n := n) (k := (-leading - 1).toNat)
      have hcount : exponent = -((-leading - 1).toNat + (Nat.toDigits 10 n).length : Nat) := by
        omega
      rw [hcount, zpow_neg, zpow_natCast, ← div_eq_mul_inv]
      simpa using IsDecimal.places hplaces
  · have hpower := isPower_writeExponent leading
    split
    · rename_i hone
      have hexponent : exponent = leading := by omega
      rw [List.append_nil, List.take_of_length_le (Nat.le_of_eq hone), hexponent]
      exact .wholePower (isNatural_toDigits n) hpower
    · rename_i hmany
      have hplaces := isPlaces_split (k := 1) hpositive Nat.one_pos (by omega)
      have hcount : exponent = leading - ((Nat.toDigits 10 n).length - 1 : Nat) := by omega
      have hvalue : (n : ℚ) * 10 ^ exponent =
          n / 10 ^ ((Nat.toDigits 10 n).length - 1) * 10 ^ leading := by
        rw [hcount, zpow_sub₀ (by norm_num), zpow_natCast]
        ring
      rw [hvalue]
      exact .placesPower hplaces hpower

/-!
# Numbers
-/

/-- Whole numbers digit by digit, others by a decimal that no other number is nearer to. -/
inductive PrintsNumber : Number -> List Char -> Prop
  | natural {n : Nat} {text : List Char} (htext : IsNatural n text) :
      PrintsNumber (.integer n) text
  | negative {n : Nat} {text : List Char} (hpositive : 0 < n) (htext : IsNatural n text) :
      PrintsNumber (.integer (-n)) ('-' :: text)
  | float {x : Binary64} {q : ℚ} {text : List Char} (hsign : x.isNegative = false)
      (htext : IsDecimal q text) (hnearest : forall y : Binary64, |q - x.value| ≤ |q - y.value|) :
      PrintsNumber (.float x) text
  | negativeFloat {x : Binary64} {q : ℚ} {text : List Char} (hsign : x.isNegative = true)
      (htext : IsDecimal q text)
      (hnearest : forall y : Binary64, |-q - x.value| ≤ |-q - y.value|) :
      PrintsNumber (.float x) ('-' :: text)

theorem printsNumber_integerChars (n : Int) :
    PrintsNumber (.integer n) (Number.integerChars n) := by
  unfold Number.integerChars
  split
  · have hnegative : n = -(n.natAbs : Int) := by omega
    nth_rewrite 1 [hnegative]
    exact .negative (by omega) (isNatural_toDigits _)
  · have hnatural : n = (n.natAbs : Int) := by omega
    nth_rewrite 1 [hnatural]
    exact .natural (isNatural_toDigits _)

theorem value_eq_size (x : Binary64) :
    x.value = if x.isNegative then -Decimal.size x else Decimal.size x := by
  unfold Binary64.value Decimal.size
  split <;> ring

theorem abs_sub_size_le {q : ℚ} (hq : 0 ≤ q) (y : Binary64) :
    |q - Decimal.size y| ≤ |q - y.value| ∧ |q - Decimal.size y| ≤ |-q - y.value| := by
  have hsize : 0 ≤ Decimal.size y := by
    unfold Decimal.size
    positivity
  have hopposite : |q - Decimal.size y| ≤ |q + Decimal.size y| := by
    rw [abs_of_nonneg (by positivity : 0 ≤ q + Decimal.size y)]
    exact abs_le.mpr ⟨by linarith, by linarith⟩
  rw [value_eq_size]
  split
  · rw [sub_neg_eq_add, sub_neg_eq_add, ← abs_neg (-q + Decimal.size y), neg_add, neg_neg,
      ← sub_eq_add_neg]
    exact ⟨hopposite, le_refl _⟩
  · rw [← abs_neg (-q - Decimal.size y), neg_sub, sub_neg_eq_add, add_comm _ q]
    exact ⟨le_refl _, hopposite⟩

theorem printsNumber_floatChars (x : Binary64) :
    PrintsNumber (.float x) (Number.floatChars x) := by
  have htext := isDecimal_write Number.layout (Decimal.shortest x)
  have hvalue : 0 ≤ (Decimal.shortest x).value := by
    unfold Decimal.Digits.value
    positivity
  have hnearest := Decimal.nearest_shortest x
  unfold Number.floatChars
  simp only
  split
  · rename_i hsign
    refine .negativeFloat hsign htext fun y => ?_
    rw [value_eq_size x, if_pos hsign, sub_neg_eq_add, neg_add_eq_sub, abs_sub_comm]
    exact (hnearest y).trans (abs_sub_size_le hvalue y).right
  · rename_i hsign
    refine .float (Bool.eq_false_iff.mpr hsign) htext fun y => ?_
    rw [value_eq_size x, if_neg hsign]
    exact (hnearest y).trans (abs_sub_size_le hvalue y).left

theorem printsNumber_chars (n : Number) : PrintsNumber n n.chars := by
  cases n with
  | integer n => exact printsNumber_integerChars n
  | float x => exact printsNumber_floatChars x

/-!
# Values
-/

mutual

/-- A value in its compact text. -/
inductive Prints : Value -> List Char -> Prop
  | null : Prints .null ['n', 'u', 'l', 'l']
  | true : Prints (.bool true) ['t', 'r', 'u', 'e']
  | false : Prints (.bool false) ['f', 'a', 'l', 's', 'e']
  | number {n : Number} {text : List Char} (htext : PrintsNumber n text) :
      Prints (.number n) text
  | string {s : String} {text : List Char} (htext : PrintsString s text) :
      Prints (.string s) text
  | emptyArray : Prints (.array []) ['[', ']']
  | array {items : List Value} {text : List Char} (htext : PrintsItems items text) :
      Prints (.array items) ('[' :: text ++ [']'])
  | emptyObject : Prints (.object []) ['\x7b', '\x7d']
  | object {members : List (String × Value)} {text : List Char}
      (htext : PrintsMembers members text) :
      Prints (.object members) ('\x7b' :: text ++ ['\x7d'])

inductive PrintsItems : List Value -> List Char -> Prop
  | single {v : Value} {text : List Char} (hvalue : Prints v text) : PrintsItems [v] text
  | more {v : Value} {items : List Value} {text rest : List Char} (hvalue : Prints v text)
      (hrest : PrintsItems items rest) : PrintsItems (v :: items) (text ++ ',' :: rest)

inductive PrintsMembers : List (String × Value) -> List Char -> Prop
  | single {key : String} {v : Value} {name text : List Char} (hname : PrintsString key name)
      (hvalue : Prints v text) : PrintsMembers [(key, v)] (name ++ ':' :: text)
  | more {key : String} {v : Value} {members : List (String × Value)}
      {name text rest : List Char} (hname : PrintsString key name) (hvalue : Prints v text)
      (hrest : PrintsMembers members rest) :
      PrintsMembers ((key, v) :: members) (name ++ ':' :: (text ++ ',' :: rest))

end

theorem itemsChars_cons (v : Value) {items : List Value} {text : List Char}
    (hitems : PrintsItems items text) :
    itemsChars (v :: items) = v.chars ++ ',' :: itemsChars items := by
  cases hitems <;> rfl

theorem membersChars_cons (key : String) (v : Value) {members : List (String × Value)}
    {text : List Char} (hmembers : PrintsMembers members text) :
    membersChars ((key, v) :: members) =
      stringChars key ++ ':' :: (v.chars ++ ',' :: membersChars members) := by
  cases hmembers <;> rfl

mutual

theorem prints_chars (v : Value) : Prints v v.chars := by
  cases v with
  | null => exact .null
  | bool b =>
      cases b with
      | false => exact .false
      | true => exact .true
  | number n => exact .number (printsNumber_chars n)
  | string s => exact .string (printsString_stringChars s)
  | array items =>
      rcases printsItems_itemsChars items with rfl | ⟨text, hchars, htext⟩
      · exact .emptyArray
      · rw [Value.chars, hchars]
        exact .array htext
  | object members =>
      rcases printsMembers_membersChars members with rfl | ⟨text, hchars, htext⟩
      · exact .emptyObject
      · rw [Value.chars, hchars]
        exact .object htext

theorem printsItems_itemsChars (items : List Value) :
    items = [] ∨ exists text, itemsChars items = text ++ [']'] ∧ PrintsItems items text := by
  cases items with
  | nil => exact Or.inl rfl
  | cons v rest =>
      have hvalue := prints_chars v
      rcases printsItems_itemsChars rest with rfl | ⟨text, hchars, htext⟩
      · exact Or.inr ⟨_, rfl, .single hvalue⟩
      · refine Or.inr ⟨_, ?_, .more hvalue htext⟩
        rw [itemsChars_cons v htext, hchars, List.append_assoc, List.cons_append]

theorem printsMembers_membersChars (members : List (String × Value)) :
    members = [] ∨
      exists text, membersChars members = text ++ ['\x7d'] ∧ PrintsMembers members text := by
  cases members with
  | nil => exact Or.inl rfl
  | cons member rest =>
      rcases member with ⟨key, v⟩
      have hname := printsString_stringChars key
      have hvalue := prints_chars v
      rcases printsMembers_membersChars rest with rfl | ⟨text, hchars, htext⟩
      · refine Or.inr ⟨_, ?_, .single hname hvalue⟩
        rw [membersChars, List.append_assoc, List.cons_append]
      · refine Or.inr ⟨_, ?_, .more hname hvalue htext⟩
        rw [membersChars_cons key v htext, hchars]
        simp only [List.append_assoc, List.cons_append]

end

end Json
end Gatekeeper
