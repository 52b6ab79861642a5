import Gatekeeper.Proofs.Json.Printed
import Mathlib.Data.List.TakeWhile

/-!
# The grammar of documents

What counts as a value, as bytes: words, numerals, strings in quotes, and lists and
objects of values with commas between them and blanks around them.  A string is
taken by its form, and a numeral of any size is one.
-/

namespace Gatekeeper
namespace Json

/-!
# Blanks
-/

def Blanks (bytes : List UInt8) : Prop :=
  forall b, b ∈ bytes -> b = 0x20 ∨ b = 0x09 ∨ b = 0x0A ∨ b = 0x0D

theorem isBlank_iff {b : UInt8} :
    Ascii.isBlank b = true <-> b = 0x20 ∨ b = 0x09 ∨ b = 0x0A ∨ b = 0x0D := by
  simp only [Ascii.isBlank, Bool.or_eq_true, decide_eq_true_eq, or_assoc]

theorem blanks_nil : Blanks [] :=
  fun _ hmem => absurd hmem List.not_mem_nil

theorem blanks_append {one other : List UInt8} (hone : Blanks one) (hother : Blanks other) :
    Blanks (one ++ other) :=
  fun b hmem => (List.mem_append.mp hmem).elim (hone b) (hother b)

/-!
# Numerals
-/

def Digits (ds : List UInt8) : Prop :=
  forall d, d ∈ ds -> Ascii.isDigit d = true

inductive Whole : List UInt8 -> Prop
  | zero : Whole [0x30]
  | digits {d : UInt8} {ds : List UInt8} (hne : d ≠ 0x30) (hdigits : Digits (d :: ds)) :
      Whole (d :: ds)

inductive Fraction : List UInt8 -> Prop
  | none : Fraction []
  | places {d : UInt8} {ds : List UInt8} (hdigits : Digits (d :: ds)) : Fraction (0x2E :: d :: ds)

inductive Sign : List UInt8 -> Prop
  | none : Sign []
  | plus : Sign [0x2B]
  | minus : Sign [0x2D]

inductive Exponent : List UInt8 -> Prop
  | none : Exponent []
  | power {mark d : UInt8} {sign ds : List UInt8} (hmark : mark = 0x65 ∨ mark = 0x45)
      (hsign : Sign sign) (hdigits : Digits (d :: ds)) : Exponent (mark :: (sign ++ d :: ds))

structure IsNumeral (text : List UInt8) : Prop where
  form : exists whole fraction exponent, Whole whole ∧ Fraction fraction ∧ Exponent exponent ∧
    text = whole ++ (fraction ++ exponent)

/-!
# Strings
-/

def IsPlain (b : UInt8) : Prop :=
  b ≠ 0x22 ∧ b ≠ 0x5C ∧ 0x20 ≤ b

instance (b : UInt8) : Decidable (IsPlain b) :=
  inferInstanceAs (Decidable (_ ∧ _ ∧ _))

def IsSimple (b : UInt8) : Prop :=
  b ∈ [0x22, 0x5C, 0x2F, 0x62, 0x66, 0x6E, 0x72, 0x74]

def IsHex (b : UInt8) : Prop :=
  (Ascii.hexValue? b).isSome = true

inductive Quotable : List UInt8 -> Prop
  | nil : Quotable []
  | plain {b : UInt8} {rest : List UInt8} (hplain : IsPlain b) (hrest : Quotable rest) :
      Quotable (b :: rest)
  | simple {b : UInt8} {rest : List UInt8} (hsimple : IsSimple b) (hrest : Quotable rest) :
      Quotable (0x5C :: b :: rest)
  | unit {a b c d : UInt8} {rest : List UInt8}
      (hhex : IsHex a ∧ IsHex b ∧ IsHex c ∧ IsHex d) (hrest : Quotable rest) :
      Quotable (0x5C :: 0x75 :: a :: b :: c :: d :: rest)

/-!
# Values
-/

open Skip (Frame)

def opener : Frame → UInt8
  | .list => 0x5B
  | .object => 0x7B

/-- What stands in a container: a value, with what is before and after it. -/
structure Item where
  front : List UInt8
  value : List UInt8
  trail : List UInt8

def Item.text (item : Item) : List UInt8 :=
  item.front ++ (item.value ++ item.trail)

/-- Blanks, and in an object a name with a colon among them. -/
inductive Front : Frame -> List UInt8 -> Prop
  | list {gap : List UInt8} (hgap : Blanks gap) : Front .list gap
  | object {lead name mid gap : List UInt8} (hlead : Blanks lead) (hname : Quotable name)
      (hmid : Blanks mid) (hgap : Blanks gap) :
      Front .object (lead ++ 0x22 :: (name ++ 0x22 :: (mid ++ 0x3A :: gap)))

def following (texts : List (List UInt8)) : List UInt8 :=
  texts.flatMap fun text => 0x2C :: text

def separated : List (List UInt8) → List UInt8
  | [] => []
  | text :: texts => text ++ following texts

def containerText (frame : Frame) (items : List Item) (gap : List UInt8) : List UInt8 :=
  opener frame :: (separated (items.map Item.text) ++ (gap ++ [frame.closer]))

/-- The form of a value, without blanks around it. -/
inductive IsValue : List UInt8 -> Prop
  | wordNull : IsValue [0x6E, 0x75, 0x6C, 0x6C]
  | wordTrue : IsValue [0x74, 0x72, 0x75, 0x65]
  | wordFalse : IsValue [0x66, 0x61, 0x6C, 0x73, 0x65]
  | number {text : List UInt8} (htext : IsNumeral text) : IsValue text
  | negative {text : List UInt8} (htext : IsNumeral text) : IsValue (0x2D :: text)
  | string {text : List UInt8} (htext : Quotable text) : IsValue (0x22 :: (text ++ [0x22]))
  | container {frame : Frame} {items : List Item} {gap : List UInt8}
      (hfronts : forall item, item ∈ items -> Front frame item.front)
      (htrails : forall item, item ∈ items -> Blanks item.trail) (hgap : Blanks gap)
      (hvalues : forall item, item ∈ items -> IsValue item.value) :
      IsValue (containerText frame items gap)

/-- One value with nothing but blanks around it. -/
def IsDocument (text : List UInt8) : Prop :=
  exists lead v trail, Blanks lead ∧ IsValue v ∧ Blanks trail ∧ text = lead ++ (v ++ trail)

/-!
# Numerals that are passed over
-/

/-- Nothing follows that could belong to a number. -/
def Ended (rest : List UInt8) : Prop :=
  forall b, rest.head? = some b -> Numeral.Ends b

theorem ended_nil : Ended [] := by
  intro b hb
  cases hb

theorem ended_cons {b : UInt8} (hends : Numeral.Ends b) (rest : List UInt8) :
    Ended (b :: rest) := by
  intro c hc
  rw [← Option.some.inj hc]
  exact hends

theorem ends_of_isBlank {b : UInt8} (hblank : b = 0x20 ∨ b = 0x09 ∨ b = 0x0A ∨ b = 0x0D) :
    Numeral.Ends b := by
  rcases hblank with rfl | rfl | rfl | rfl <;> exact ⟨rfl, by decide, rfl⟩

theorem ended_append {blanks rest : List UInt8} (hblanks : Blanks blanks) (hrest : Ended rest) :
    Ended (blanks ++ rest) := by
  cases blanks with
  | nil => exact hrest
  | cons b more => exact ended_cons (ends_of_isBlank (hblanks b List.mem_cons_self)) _

namespace Numeral

theorem isExponentMark_iff {b : UInt8} :
    isExponentMark b = true <-> b = 0x65 ∨ b = 0x45 := by
  simp only [isExponentMark, Bool.or_eq_true, decide_eq_true_eq]

theorem digits_eq (input : List UInt8) :
    exists ds after, digits input = (ds, after) ∧ input = ds ++ after ∧ Digits ds := by
  refine ⟨_, _, rfl, (List.takeWhile_append_dropWhile).symm, fun d hmem => ?_⟩
  exact List.mem_takeWhile_imp hmem

theorem dropWhile_digits {ds rest : List UInt8} (hdigits : Digits ds)
    (hrest : forall b, rest.head? = some b -> Ascii.isDigit b = false) :
    (ds ++ rest).dropWhile Ascii.isDigit = rest := by
  rw [List.dropWhile_append_of_pos hdigits]
  cases rest with
  | nil => rfl
  | cons b more => rw [List.dropWhile_cons_of_neg (by rw [hrest b rfl]; decide)]

theorem digits_of_ended {ds rest : List UInt8} (hdigits : Digits ds)
    (hrest : forall b, rest.head? = some b -> Ascii.isDigit b = false) :
    digits (ds ++ rest) = (ds, rest) := by
  have hdrop := dropWhile_digits hdigits hrest
  have hsplit := List.takeWhile_append_dropWhile (p := Ascii.isDigit) (l := ds ++ rest)
  rw [hdrop] at hsplit
  unfold digits
  rw [hdrop, List.append_cancel_right hsplit]

theorem exists_sign (input : List UInt8) :
    exists sign, Sign sign ∧ input = sign ++ (exponentSign input).2 ∧
      (exponentSign input).1 = decide (sign = [0x2D]) := by
  unfold exponentSign
  split
  · exact ⟨[], Sign.none, rfl, rfl⟩
  · rename_i b tail
    split
    · rename_i hb
      exact ⟨[0x2B], Sign.plus, by rw [hb]; rfl, rfl⟩
    split
    · rename_i hb
      exact ⟨[0x2D], Sign.minus, by rw [hb]; rfl, rfl⟩
    · exact ⟨[], Sign.none, rfl, rfl⟩

theorem exponentSign_of_digit {sign : List UInt8} {d : UInt8} (hsign : Sign sign)
    (hdigit : Ascii.isDigit d = true) (rest : List UInt8) :
    exponentSign (sign ++ d :: rest) = (decide (sign = [0x2D]), d :: rest) := by
  have hne : forall c : UInt8, Ascii.isDigit c = false -> ¬d = c := by
    intro c hc hsame
    rw [hsame, hc] at hdigit
    cases hdigit
  cases hsign with
  | none => simp [exponentSign, hne 0x2B rfl, hne 0x2D rfl]
  | plus => simp [exponentSign]
  | minus => simp [exponentSign]

theorem skipExponent_eq_ok {input rest : List UInt8} (hskip : skipExponent input = .ok () rest) :
    exists sign d ds, Sign sign ∧ Digits (d :: ds) ∧ input = sign ++ (d :: ds ++ rest) := by
  rcases exists_sign input with ⟨sign, hsign, hinput, _⟩
  unfold skipExponent at hskip
  split at hskip
  · cases hskip
  · rename_i below d tail heq
    rw [heq] at hinput
    split at hskip
    · rename_i hd
      cases hskip
      rcases digits_eq tail with ⟨ds, after, hds, htail, hdigits⟩
      have hafter : tail.dropWhile Ascii.isDigit = after := congrArg Prod.snd hds
      refine ⟨sign, d, ds, hsign, List.forall_mem_cons.mpr ⟨hd, hdigits⟩, ?_⟩
      rw [hafter, hinput, htail, List.cons_append]
    · cases hskip

theorem skipExponentOrEnd_eq_ok {input rest : List UInt8}
    (hskip : skipExponentOrEnd input = .ok () rest) :
    exists text, Exponent text ∧ input = text ++ rest := by
  unfold skipExponentOrEnd at hskip
  split at hskip
  · cases hskip
    exact ⟨[], Exponent.none, rfl⟩
  · rename_i b tail
    split at hskip
    · rename_i hmark
      rcases skipExponent_eq_ok hskip with ⟨sign, d, ds, hsign, hdigits, htail⟩
      refine ⟨_, Exponent.power (isExponentMark_iff.mp hmark) hsign hdigits, ?_⟩
      simp only [htail, List.cons_append, List.append_assoc]
    · cases hskip
      exact ⟨[], Exponent.none, rfl⟩

theorem skipAfterWhole_eq_ok {input rest : List UInt8}
    (hskip : skipAfterWhole input = .ok () rest) :
    exists fraction exponent, Fraction fraction ∧ Exponent exponent ∧
      input = fraction ++ (exponent ++ rest) := by
  unfold skipAfterWhole at hskip
  split at hskip
  · cases hskip
    exact ⟨[], [], Fraction.none, Exponent.none, rfl⟩
  · rename_i b tail
    split at hskip
    · rename_i hpoint
      unfold skipFraction at hskip
      rcases digits_eq tail with ⟨ds, after, hds, htail, hdigits⟩
      simp only [hds] at hskip
      cases ds with
      | nil => cases hskip
      | cons d ds =>
          simp only [List.isEmpty_cons, Bool.false_eq_true, if_false] at hskip
          rcases skipExponentOrEnd_eq_ok hskip with ⟨exponent, hexponent, hafter⟩
          refine ⟨_, exponent, Fraction.places hdigits, hexponent, ?_⟩
          simp only [hpoint, htail, hafter, List.cons_append]
    · rcases skipExponentOrEnd_eq_ok hskip with ⟨exponent, hexponent, hinput⟩
      exact ⟨[], exponent, Fraction.none, hexponent, hinput⟩

theorem exists_isNumeral {input rest : List UInt8} (hskip : skip input = .ok () rest) :
    exists text, IsNumeral text ∧ input = text ++ rest := by
  unfold skip at hskip
  split at hskip
  · cases hskip
  · rename_i b tail
    split at hskip
    · rename_i hzero
      split at hskip
      · cases hskip
      · rcases skipAfterWhole_eq_ok hskip with ⟨fraction, exponent, hfraction, hexponent, htail⟩
        refine ⟨_, ⟨[0x30], fraction, exponent, Whole.zero, hfraction, hexponent, rfl⟩, ?_⟩
        rw [hzero, htail, List.append_assoc, List.append_assoc]
        rfl
    · rename_i hzero
      split at hskip
      · rename_i hdigit
        rcases digits_eq tail with ⟨ds, after, hds, htail, hdigits⟩
        have hafter : tail.dropWhile Ascii.isDigit = after := congrArg Prod.snd hds
        rw [hafter] at hskip
        rcases skipAfterWhole_eq_ok hskip with ⟨fraction, exponent, hfraction, hexponent, hmore⟩
        have hwhole : Whole (b :: ds) :=
          Whole.digits hzero (List.forall_mem_cons.mpr ⟨hdigit, hdigits⟩)
        refine ⟨_, ⟨b :: ds, fraction, exponent, hwhole, hfraction, hexponent, rfl⟩, ?_⟩
        rw [htail, hmore, List.append_assoc, List.append_assoc]
        rfl
      · cases hskip

theorem skipExponentOrEnd_of_ended {exponent rest : List UInt8} (hexponent : Exponent exponent)
    (hended : Ended rest) : skipExponentOrEnd (exponent ++ rest) = .ok () rest := by
  cases hexponent with
  | none =>
      cases rest with
      | nil => rfl
      | cons b more =>
          show skipExponentOrEnd (b :: more) = _
          rw [skipExponentOrEnd, (hended b rfl).exponent]
          rfl
  | @power mark d sign ds hmark hsign hdigits =>
      have hd : Ascii.isDigit d = true := hdigits d List.mem_cons_self
      have hds : Digits ds := fun b hmem => hdigits b (List.mem_cons_of_mem d hmem)
      have hdrop := dropWhile_digits hds fun b hb => (hended b hb).digit
      rw [List.cons_append, List.append_assoc, List.cons_append, skipExponentOrEnd,
        isExponentMark_iff.mpr hmark, if_pos rfl, skipExponent, exponentSign_of_digit hsign hd]
      simp only [hd, if_true, hdrop]

theorem head_not_digit {fraction exponent rest : List UInt8} (hfraction : Fraction fraction)
    (hexponent : Exponent exponent) (hended : Ended rest) :
    forall b, (fraction ++ (exponent ++ rest)).head? = some b -> Ascii.isDigit b = false := by
  intro b hb
  cases hfraction with
  | places =>
      rw [← Option.some.inj hb]
      rfl
  | none =>
      cases hexponent with
      | none => exact (hended b hb).digit
      | power hmark =>
          rw [← Option.some.inj hb]
          rcases hmark with rfl | rfl <;> rfl

theorem skipAfterWhole_of_ended {fraction exponent rest : List UInt8}
    (hfraction : Fraction fraction) (hexponent : Exponent exponent) (hended : Ended rest) :
    skipAfterWhole (fraction ++ (exponent ++ rest)) = .ok () rest := by
  have hafter := skipExponentOrEnd_of_ended hexponent hended
  cases hfraction with
  | none =>
      rw [List.nil_append]
      cases htail : exponent ++ rest with
      | nil =>
          rw [htail] at hafter
          exact hafter
      | cons b more =>
          have hpoint : b ≠ 0x2E := by
            cases hexponent with
            | none => exact (hended b (congrArg List.head? htail)).point
            | power hmark =>
                rw [← (List.cons.inj htail).left]
                rcases hmark with rfl | rfl <;> decide
          rw [htail] at hafter
          rw [skipAfterWhole, if_neg hpoint]
          exact hafter
  | @places d ds hdigits =>
      have hhead := head_not_digit Fraction.none hexponent hended
      have hrun := digits_of_ended hdigits hhead
      rw [List.nil_append] at hrun
      show skipFraction (d :: ds ++ (exponent ++ rest)) = _
      unfold skipFraction
      rw [hrun]
      exact hafter

theorem skip_of_isNumeral {text rest : List UInt8} (htext : IsNumeral text) (hended : Ended rest) :
    skip (text ++ rest) = .ok () rest := by
  rcases htext.form with ⟨whole, fraction, exponent, hwhole, hfraction, hexponent, rfl⟩
  have hhead := head_not_digit hfraction hexponent hended
  have hafter := skipAfterWhole_of_ended hfraction hexponent hended
  rw [List.append_assoc, List.append_assoc]
  cases hwhole with
  | zero =>
      have hplain : (fraction ++ (exponent ++ rest)).head?.any Ascii.isDigit = false := by
        cases hfirst : (fraction ++ (exponent ++ rest)).head? with
        | none => rfl
        | some b => rw [Option.any_some, hhead b hfirst]
      rw [List.singleton_append, skip, if_pos rfl, hplain]
      exact hafter
  | @digits d ds hne hdigits =>
      have hd : Ascii.isDigit d = true := hdigits d List.mem_cons_self
      have hds : Digits ds := fun b hmem => hdigits b (List.mem_cons_of_mem d hmem)
      rw [List.cons_append, skip, if_neg hne, if_pos hd, dropWhile_digits hds hhead]
      exact hafter

end Numeral

/-!
# Strings that are passed over
-/

namespace Reader

theorem isSimple_iff {b : UInt8} : IsSimple b <-> (simpleEscape? b).isSome = true := by
  unfold IsSimple simpleEscape?
  simp only [List.mem_cons, List.not_mem_nil, or_false]
  constructor
  · rintro (rfl | rfl | rfl | rfl | rfl | rfl | rfl | rfl) <;> rfl
  · intro hsome
    split at hsome
    · rename_i hself
      simp only [Bool.or_eq_true, decide_eq_true_eq] at hself
      rcases hself with (hletter | hletter) | hletter <;> simp only [hletter, true_or, or_true]
    iterate 5
      split at hsome
      · rename_i hletter
        simp only [hletter, true_or, or_true]
    cases hsome

theorem isPlain_iff {b : UInt8} : IsPlain b <-> b ≠ 0x22 ∧ b ≠ 0x5C ∧ ¬b < 0x20 := by
  unfold IsPlain
  rw [UInt8.not_lt]

theorem codeUnit?_isSome_iff {a b c d : UInt8} :
    (codeUnit? a b c d).isSome = true <-> IsHex a ∧ IsHex b ∧ IsHex c ∧ IsHex d := by
  unfold codeUnit? IsHex
  cases Ascii.hexValue? a <;> cases Ascii.hexValue? b <;> cases Ascii.hexValue? c <;>
    cases Ascii.hexValue? d <;> simp

theorem hexUnit_eq_ok {input : List UInt8} {unit size : Nat}
    (hunit : hexUnit input = (.ok unit, size)) :
    exists a b c d rest, input = a :: b :: c :: d :: rest ∧ codeUnit? a b c d = some unit ∧
      size = 4 := by
  unfold hexUnit at hunit
  split at hunit
  · rename_i a b c d rest
    split at hunit
    · rename_i found hfound
      cases hunit
      exact ⟨a, b, c, d, rest, rfl, hfound, rfl⟩
    · cases hunit
  · cases hunit

theorem exists_quotable {input rest : List UInt8} (hskip : skipString input = .ok () rest) :
    exists text, Quotable text ∧ input = text ++ 0x22 :: rest := by
  fun_induction skipString input with
  | case1 => cases hskip
  | case2 rest =>
      cases hskip
      exact ⟨[], Quotable.nil, rfl⟩
  | case3 => cases hskip
  | case4 tail unit size hunit hne ih =>
      rcases ih hskip with ⟨text, htext, hinput⟩
      rcases hexUnit_eq_ok hunit with ⟨a, b, c, d, more, rfl, hcode, rfl⟩
      have hhex := codeUnit?_isSome_iff.mp (by rw [hcode]; rfl)
      refine ⟨_, Quotable.unit hhex htext, ?_⟩
      rw [show more = text ++ 0x22 :: rest from hinput]
      rfl
  | case5 tail fault size hunit hne => cases hskip
  | case6 c tail hunit hsimple hne ih =>
      rcases ih hskip with ⟨text, htext, hinput⟩
      refine ⟨_, Quotable.simple (isSimple_iff.mpr hsimple) htext, ?_⟩
      rw [hinput]
      rfl
  | case7 c tail hunit hsimple hne => cases hskip
  | case8 b tail hquote hslash hcontrol => cases hskip
  | case9 b tail hquote hslash hcontrol ih =>
      rcases ih hskip with ⟨text, htext, hinput⟩
      refine ⟨_, Quotable.plain (isPlain_iff.mpr ⟨hquote, hslash, hcontrol⟩) htext, ?_⟩
      rw [hinput]
      rfl

theorem skipString_of_quotable {text : List UInt8} (htext : Quotable text) (rest : List UInt8) :
    skipString (text ++ 0x22 :: rest) = .ok () rest := by
  induction htext with
  | nil =>
      rw [List.nil_append]
      unfold skipString
      rw [if_pos rfl]
  | plain hplain _ ih =>
      rcases isPlain_iff.mp hplain with ⟨hquote, hslash, hcontrol⟩
      rw [List.cons_append]
      unfold skipString
      rw [if_neg hquote, if_neg hslash, if_neg hcontrol]
      exact ih
  | @simple b more hsimple _ ih =>
      have hunit : b ≠ 0x75 := by
        rintro rfl
        revert hsimple
        unfold IsSimple
        decide
      rw [List.cons_append, List.cons_append, skipString]
      simp only [(by decide : ¬(0x5C : UInt8) = 0x22), if_false, if_true, hunit,
        isSimple_iff.mp hsimple]
      exact ih
  | @unit a b c d more hhex _ ih =>
      rcases Option.isSome_iff_exists.mp (codeUnit?_isSome_iff.mpr hhex) with ⟨unit, hcode⟩
      have hunit : hexUnit (a :: b :: c :: d :: (more ++ 0x22 :: rest)) = (.ok unit, 4) := by
        rw [hexUnit, hcode]
      simp only [List.cons_append]
      rw [skipString_unit hunit]
      exact ih

end Reader
end Json
end Gatekeeper
