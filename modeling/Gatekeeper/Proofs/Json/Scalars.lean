import Gatekeeper.Json.Numeral
import Gatekeeper.Proofs.Json.Moves

/-!
# Extents of scalars

A string or a number that can be read can be passed over, and both leave the
same input.
-/

namespace Gatekeeper
namespace Json
namespace Reader

/-!
# Strings
-/

theorem skipString_unit {tail : List UInt8} {unit size : Nat}
    (hunit : hexUnit tail = (.ok unit, size)) :
    skipString (0x5C :: 0x75 :: tail) = skipString (tail.drop size) := by
  rw [skipString]
  simp [hunit]

theorem skipString_lowEscape {high : Nat} {input bytes : List UInt8}
    (hlow : (lowEscape high input).result = .ok bytes) :
    skipString input = skipString (input.drop (lowEscape high input).size) := by
  unfold lowEscape at hlow ⊢
  split at hlow
  · cases hlow
  · split at hlow <;> cases hlow
  · rename_i b c rest
    by_cases hb : b = 0x5C
    · by_cases hc : c = 0x75
      · subst hb hc
        simp only [ne_eq, not_true_eq_false, if_false] at hlow ⊢
        cases hunit : hexUnit rest with
        | mk unit size =>
            cases unit with
            | error fault =>
                rw [hunit] at hlow
                cases hlow
            | ok low =>
                simp only [hunit] at hlow ⊢
                split at hlow
                · rw [skipString_unit hunit, if_pos (by assumption)]
                  rfl
                · cases hlow
      · simp only [hb, ne_eq, not_true_eq_false, if_false, hc, not_false_eq_true, if_true] at hlow
        cases hlow
    · simp only [ne_eq, hb, not_false_eq_true, if_true] at hlow
      cases hlow

theorem skipString_escape {rest bytes : List UInt8}
    (hescape : (escape rest).result = .ok bytes) :
    skipString (0x5C :: rest) = skipString (rest.drop (escape rest).size) := by
  unfold escape at hescape ⊢
  cases rest with
  | nil => cases hescape
  | cons c tail =>
      by_cases hc : c = 0x75
      · subst hc
        simp only [if_true, unitEscape] at hescape ⊢
        cases hunit : hexUnit tail with
        | mk unit size =>
            cases unit with
            | error fault =>
                rw [hunit] at hescape
                cases hescape
            | ok unit =>
                simp only [hunit] at hescape ⊢
                rw [skipString_unit hunit]
                by_cases hlow : isLowSurrogate unit = true
                · rw [if_pos hlow] at hescape
                  cases hescape
                · simp only [if_neg hlow] at hescape ⊢
                  by_cases hhigh : isHighSurrogate unit = true
                  · simp only [if_pos hhigh] at hescape ⊢
                    rw [skipString_lowEscape hescape, List.drop_drop, List.drop_succ_cons]
                  · simp only [if_neg hhigh] at hescape ⊢
                    rw [List.drop_succ_cons]
      · simp only [if_neg hc] at hescape ⊢
        cases hsimple : simpleEscape? c with
        | none =>
            rw [hsimple] at hescape
            cases hescape
        | some byte =>
            rw [skipString]
            simp [hc, hsimple]

theorem skipString_of_stringBytes {done input bytes rest : List UInt8}
    (hread : stringBytes done input = .ok bytes rest) :
    skipString input = .ok () rest := by
  fun_induction stringBytes done input with
  | case1 done => cases hread
  | case2 done tail =>
      cases hread
      unfold skipString
      rw [if_pos rfl]
  | case3 done tail e escaped hescape hne ih =>
      rw [skipString_escape hescape]
      exact ih hread
  | case4 done tail e fault hescape hne => cases hread
  | case5 done b tail hquote hslash hcontrol => cases hread
  | case6 done b tail hquote hslash hcontrol ih =>
      unfold skipString
      rw [if_neg hquote, if_neg hslash, if_neg hcontrol]
      exact ih hread

theorem skipString_of_stringTail {input rest : List UInt8} {s : String}
    (hread : stringTail input = .ok s rest) :
    skipString input = .ok () rest := by
  rcases bind_eq_ok.mp hread with ⟨bytes, middle, hbytes, hdecode⟩
  cases htext : Utf8.decode? bytes with
  | none =>
      rw [htext] at hdecode
      cases hdecode
  | some text =>
      rw [htext] at hdecode
      cases hdecode
      exact skipString_of_stringBytes hbytes

theorem length_lt_of_skipString {input rest : List UInt8}
    (hskip : skipString input = .ok () rest) : rest.length < input.length := by
  fun_induction skipString input with
  | case1 => cases hskip
  | case2 rest =>
      cases hskip
      exact Nat.lt_succ_self _
  | case3 => cases hskip
  | case4 tail unit size hunit hne ih =>
      have h := ih hskip
      simp only [List.length_drop, List.length_cons] at h ⊢
      omega
  | case5 tail fault size hunit hne => cases hskip
  | case6 c tail hunit hsimple hne ih =>
      have h := ih hskip
      simp only [List.length_cons]
      omega
  | case7 c tail hunit hsimple hne => cases hskip
  | case8 b tail hquote hslash hcontrol => cases hskip
  | case9 b tail hquote hslash hcontrol ih =>
      have h := ih hskip
      simp only [List.length_cons]
      omega

theorem length_le_of_word {letters input rest : List UInt8}
    (hword : word letters input = .ok () rest) : rest.length ≤ input.length := by
  induction letters generalizing input with
  | nil =>
      cases hword
      exact Nat.le_refl _
  | cons expected letters ih =>
      unfold word at hword
      cases input with
      | nil => cases hword
      | cons b tail =>
          simp only at hword
          by_cases hb : b = expected
          · rw [if_pos hb] at hword
            exact Nat.le_succ_of_le (ih hword)
          · rw [if_neg hb] at hword
            cases hword

end Reader

/-!
# Numerals
-/

namespace Numeral

theorem result_eq_ok {negative : Bool} {parts : Parts} {input rest : List UInt8} {n : Number}
    (hread : result negative parts input = .ok n rest) : rest = input := by
  unfold result at hread
  cases hnumber : parts.number? negative with
  | none =>
      rw [hnumber] at hread
      cases hread
  | some m =>
      rw [hnumber] at hread
      cases hread
      rfl

theorem skipExponent_of_exponent {negative : Bool} {parts : Parts} {input rest : List UInt8}
    {n : Number} (hread : exponent negative parts input = .ok n rest) :
    skipExponent input = .ok () rest := by
  unfold exponent at hread
  unfold skipExponent
  split at hread
  · cases hread
  · rename_i below b tail hsign
    by_cases hdigit : Ascii.isDigit b = true
    · simp only [if_pos hdigit] at hread ⊢
      have hrest : rest = (digits (b :: tail)).2 := by
        split at hread
        · split at hread
          · cases hread
          · cases hread
            rfl
        · exact result_eq_ok hread
      rw [hrest]
      simp [digits, hdigit]
    · rw [if_neg hdigit] at hread
      cases hread

theorem skipExponentOrEnd_of_exponentOrEnd {negative : Bool} {parts : Parts}
    {input rest : List UInt8} {n : Number}
    (hread : exponentOrEnd negative parts input = .ok n rest) :
    skipExponentOrEnd input = .ok () rest := by
  unfold exponentOrEnd at hread
  cases input with
  | nil => rw [result_eq_ok hread, skipExponentOrEnd]
  | cons b tail =>
      rw [skipExponentOrEnd]
      by_cases hmark : isExponentMark b = true
      · simp only [if_pos hmark] at hread ⊢
        exact skipExponent_of_exponent hread
      · simp only [if_neg hmark] at hread ⊢
        rw [result_eq_ok hread]

theorem skipFraction_of_fraction {negative : Bool} {parts : Parts} {input rest : List UInt8}
    {n : Number} (hread : fraction negative parts input = .ok n rest) :
    skipFraction input = .ok () rest := by
  unfold fraction at hread
  unfold skipFraction
  by_cases hempty : (digits input).1.isEmpty = true
  · simp only [if_pos hempty] at hread
    split at hread <;> cases hread
  · simp only [if_neg hempty] at hread ⊢
    exact skipExponentOrEnd_of_exponentOrEnd hread

theorem skipAfterWhole_of_afterWhole {negative : Bool} {significand dropped : Nat}
    {input rest : List UInt8} {n : Number}
    (hread : afterWhole negative significand dropped input = .ok n rest) :
    skipAfterWhole input = .ok () rest := by
  unfold afterWhole at hread
  cases input with
  | nil =>
      rw [skipAfterWhole]
      simp only at hread
      split at hread
      · cases hread
        rfl
      · rw [result_eq_ok hread]
  | cons b tail =>
      rw [skipAfterWhole]
      simp only at hread
      by_cases hpoint : b = 0x2E
      · simp only [if_pos hpoint] at hread ⊢
        exact skipFraction_of_fraction hread
      · simp only [if_neg hpoint] at hread ⊢
        rw [skipExponentOrEnd]
        by_cases hmark : isExponentMark b = true
        · simp only [if_pos hmark] at hread ⊢
          exact skipExponent_of_exponent hread
        · simp only [if_neg hmark] at hread ⊢
          split at hread
          · cases hread
            rfl
          · rw [result_eq_ok hread]

theorem skip_of_read {negative : Bool} {input rest : List UInt8} {n : Number}
    (hread : read negative input = .ok n rest) : skip input = .ok () rest := by
  unfold read at hread
  cases input with
  | nil => cases hread
  | cons b tail =>
      rw [skip]
      simp only at hread
      by_cases hzero : b = 0x30
      · simp only [if_pos hzero] at hread ⊢
        by_cases hdigit : tail.head?.any Ascii.isDigit = true
        · rw [if_pos hdigit] at hread
          cases hread
        · rw [if_neg hdigit] at hread ⊢
          exact skipAfterWhole_of_afterWhole hread
      · simp only [if_neg hzero] at hread ⊢
        by_cases hdigit : Ascii.isDigit b = true
        · simp only [if_pos hdigit] at hread ⊢
          have hafter := skipAfterWhole_of_afterWhole hread
          simpa [digits, hdigit] using hafter
        · rw [if_neg hdigit] at hread
          cases hread

theorem length_le_of_skipExponent {input rest : List UInt8}
    (hskip : skipExponent input = .ok () rest) : rest.length ≤ input.length := by
  have hsign : (exponentSign input).2.length ≤ input.length := by
    unfold exponentSign
    split
    · exact Nat.le_refl _
    · split
      · exact Nat.le_succ _
      · split
        · exact Nat.le_succ _
        · exact Nat.le_refl _
  unfold skipExponent at hskip
  split at hskip
  · cases hskip
  · rename_i below b tail heq
    rw [heq, List.length_cons] at hsign
    split at hskip
    · cases hskip
      have hdigits := (List.dropWhile_suffix Ascii.isDigit (l := tail)).length_le
      omega
    · cases hskip

theorem length_le_of_skipExponentOrEnd {input rest : List UInt8}
    (hskip : skipExponentOrEnd input = .ok () rest) : rest.length ≤ input.length := by
  unfold skipExponentOrEnd at hskip
  split at hskip
  · cases hskip
    exact Nat.le_refl _
  · split at hskip
    · exact Nat.le_succ_of_le (length_le_of_skipExponent hskip)
    · cases hskip
      exact Nat.le_refl _

theorem length_le_of_skipAfterWhole {input rest : List UInt8}
    (hskip : skipAfterWhole input = .ok () rest) : rest.length ≤ input.length := by
  unfold skipAfterWhole at hskip
  split at hskip
  · cases hskip
    exact Nat.le_refl _
  · rename_i b tail
    split at hskip
    · have hdigits : (digits tail).2.length ≤ tail.length :=
        (List.dropWhile_suffix Ascii.isDigit).length_le
      unfold skipFraction at hskip
      by_cases hempty : (digits tail).1.isEmpty = true
      · simp only [if_pos hempty] at hskip
        cases hskip
      · simp only [if_neg hempty] at hskip
        have hrest := length_le_of_skipExponentOrEnd hskip
        rw [List.length_cons]
        omega
    · exact length_le_of_skipExponentOrEnd hskip

theorem length_lt_of_skip {input rest : List UInt8} (hskip : skip input = .ok () rest) :
    rest.length < input.length := by
  unfold skip at hskip
  split at hskip
  · cases hskip
  · rename_i b tail
    rw [List.length_cons]
    split at hskip
    · split at hskip
      · cases hskip
      · exact Nat.lt_succ_of_le (length_le_of_skipAfterWhole hskip)
    · split at hskip
      · have hdigits := (List.dropWhile_suffix Ascii.isDigit (l := tail)).length_le
        have hrest := length_le_of_skipAfterWhole hskip
        omega
      · cases hskip

end Numeral
end Json
end Gatekeeper
