import Gatekeeper.Proofs.Json.Documents
import Gatekeeper.Proofs.Text.Mending

/-!
# Spellings of texts

A text can be spelled in many ways between the quotes of a string, and a string is
read as the text that it spells.
-/

namespace Gatekeeper
namespace Json

open Reader

inductive SpellsEscape : List UInt8 -> List UInt8 -> Prop
  | simple {b c : UInt8} (hsimple : simpleEscape? b = some c) : SpellsEscape [b] [c]
  | unit {a b c d : UInt8} {code : Nat} (hcode : codeUnit? a b c d = some code)
      (hplain : isLowSurrogate code = false ∧ isHighSurrogate code = false) :
      SpellsEscape [0x75, a, b, c, d] (encodeCode code)
  | pair {a b c d e f g h : UInt8} {high low : Nat} (hhigh : codeUnit? a b c d = some high)
      (hlow : codeUnit? e f g h = some low) (hrange : isHighSurrogate high = true)
      (hpaired : isLowSurrogate low = true) :
      SpellsEscape [0x75, a, b, c, d, 0x5C, 0x75, e, f, g, h] (encodeCode (pairedCode high low))

/-- The bytes that a string stands for. -/
inductive Spells : List UInt8 -> List UInt8 -> Prop
  | nil : Spells [] []
  | plain {b : UInt8} {text bytes : List UInt8} (hplain : IsPlain b) (hrest : Spells text bytes) :
      Spells (b :: text) (b :: bytes)
  | escape {piece meant text bytes : List UInt8} (hescape : SpellsEscape piece meant)
      (hrest : Spells text bytes) : Spells (0x5C :: (piece ++ text)) (meant ++ bytes)

namespace Reader

variable {input rest bytes : List UInt8}

/-!
# Escapes
-/

theorem hexUnit_of_codeUnit {a b c d : UInt8} {code : Nat} (hcode : codeUnit? a b c d = some code)
    (rest : List UInt8) : hexUnit (a :: b :: c :: d :: rest) = (.ok code, 4) := by
  rw [hexUnit, hcode]

theorem not_isLow_of_isHigh {unit : Nat} (hhigh : isHighSurrogate unit = true) :
    isLowSurrogate unit = false := by
  unfold isHighSurrogate at hhigh
  unfold isLowSurrogate
  rw [Bool.and_eq_true, decide_eq_true_eq, decide_eq_true_eq] at hhigh
  rw [decide_eq_false (by omega), Bool.false_and]

theorem lowEscape_eq_ok {high : Nat} (hlow : (lowEscape high input).result = .ok bytes) :
    exists e f g h low after, input = 0x5C :: 0x75 :: e :: f :: g :: h :: after ∧
      codeUnit? e f g h = some low ∧ isLowSurrogate low = true ∧
        bytes = encodeCode (pairedCode high low) ∧ (lowEscape high input).size = 6 := by
  unfold lowEscape at hlow ⊢
  split at hlow
  · cases hlow
  · split at hlow <;> cases hlow
  · rename_i b c rest
    by_cases hb : b = 0x5C
    · by_cases hc : c = 0x75
      · subst hb hc
        simp only [ne_eq, not_true_eq_false, if_false] at hlow ⊢
        cases hunit : hexUnit rest with
        | mk unit size =>
            cases unit with
            | error fault =>
                rw [hunit] at hlow
                cases hlow
            | ok low =>
                rcases hexUnit_eq_ok hunit with ⟨e, f, g, h, after, rfl, hcode, rfl⟩
                simp only [hunit] at hlow ⊢
                by_cases hrange : isLowSurrogate low = true
                · rw [if_pos hrange] at hlow
                  rw [if_pos hrange]
                  exact ⟨e, f, g, h, low, after, rfl, hcode, hrange, (Except.ok.inj hlow).symm, rfl⟩
                · rw [if_neg hrange] at hlow
                  cases hlow
      · simp only [hb, ne_eq, not_true_eq_false, if_false, hc, not_false_eq_true, if_true] at hlow
        cases hlow
    · simp only [ne_eq, hb, not_false_eq_true, if_true] at hlow
      cases hlow

theorem escape_eq_ok (hescape : (escape input).result = .ok bytes) :
    exists piece, SpellsEscape piece bytes ∧ input = piece ++ input.drop (escape input).size := by
  unfold escape at hescape ⊢
  cases input with
  | nil => cases hescape
  | cons b tail =>
      by_cases hb : b = 0x75
      · subst hb
        simp only [if_true, unitEscape] at hescape ⊢
        cases hunit : hexUnit tail with
        | mk unit size =>
            cases unit with
            | error fault =>
                rw [hunit] at hescape
                cases hescape
            | ok unit =>
                rcases hexUnit_eq_ok hunit with ⟨a, b, c, d, after, rfl, hcode, rfl⟩
                simp only [hunit] at hescape ⊢
                by_cases hlow : isLowSurrogate unit = true
                · rw [if_pos hlow] at hescape
                  cases hescape
                · simp only [if_neg hlow] at hescape ⊢
                  by_cases hhigh : isHighSurrogate unit = true
                  · simp only [if_pos hhigh] at hescape ⊢
                    rcases lowEscape_eq_ok hescape with
                      ⟨e, f, g, h, low, more, hafter, hpair, hrange, hbytes, hsize⟩
                    have hrest : after = 0x5C :: 0x75 :: e :: f :: g :: h :: more := hafter
                    rw [hsize, hrest, hbytes]
                    exact ⟨_, SpellsEscape.pair hcode hpair hhigh hrange, rfl⟩
                  · simp only [if_neg hhigh] at hescape ⊢
                    rw [← Except.ok.inj hescape]
                    exact ⟨_, SpellsEscape.unit hcode
                      ⟨Bool.eq_false_iff.mpr hlow, Bool.eq_false_iff.mpr hhigh⟩, rfl⟩
      · simp only [if_neg hb] at hescape ⊢
        cases hsimple : simpleEscape? b with
        | none =>
            rw [hsimple] at hescape
            cases hescape
        | some c =>
            rw [hsimple] at hescape
            rw [← Except.ok.inj hescape]
            exact ⟨[b], SpellsEscape.simple hsimple, rfl⟩

theorem escape_of_spells {piece : List UInt8} (hescape : SpellsEscape piece bytes)
    (rest : List UInt8) : escape (piece ++ rest) = ⟨.ok bytes, piece.length⟩ := by
  cases hescape with
  | @simple b c hsimple =>
      have hb : ¬b = 0x75 := by
        rintro rfl
        cases hsimple
      simp only [List.cons_append, List.nil_append, escape, if_neg hb, hsimple, List.length_cons,
        List.length_nil]
  | @unit a b c d code hcode hplain =>
      simp only [List.cons_append, List.nil_append, escape, unitEscape, if_true,
        hexUnit_of_codeUnit hcode, hplain.left, hplain.right, Bool.false_eq_true, if_false,
        List.length_cons, List.length_nil]
  | @pair a b c d e f g h high low hhigh hlow hrange hpaired =>
      have hnot := not_isLow_of_isHigh hrange
      simp only [List.cons_append, List.nil_append, escape, unitEscape, if_true,
        hexUnit_of_codeUnit hhigh, hnot, hrange, Bool.false_eq_true, if_false, List.drop_succ_cons,
        List.drop_zero, lowEscape, ne_eq, not_true_eq_false, hexUnit_of_codeUnit hlow, hpaired,
        List.length_cons, List.length_nil]

/-!
# Strings
-/

theorem stringBytes_eq_ok {done : List UInt8} (hread : stringBytes done input = .ok bytes rest) :
    exists text meant, Spells text meant ∧ input = text ++ 0x22 :: rest ∧
      bytes = done.reverse ++ meant := by
  fun_induction stringBytes done input with
  | case1 done => cases hread
  | case2 done tail =>
      cases hread
      exact ⟨[], [], Spells.nil, rfl, (List.append_nil _).symm⟩
  | case3 done tail e escaped hescape hne ih =>
      rcases ih hread with ⟨text, meant, hspells, hinput, hbytes⟩
      rcases escape_eq_ok hescape with ⟨piece, hpiece, htail⟩
      refine ⟨_, _, Spells.escape hpiece hspells, ?_, ?_⟩
      · rw [htail, show tail.drop e.size = text ++ 0x22 :: rest from hinput]
        simp only [List.cons_append, List.append_assoc]
      · rw [hbytes, List.reverse_append, List.reverse_reverse, List.append_assoc]
  | case4 done tail e fault hescape hne => cases hread
  | case5 done b tail hquote hslash hcontrol => cases hread
  | case6 done b tail hquote hslash hcontrol ih =>
      rcases ih hread with ⟨text, meant, hspells, hinput, hbytes⟩
      refine ⟨_, _, Spells.plain (isPlain_iff.mpr ⟨hquote, hslash, hcontrol⟩) hspells, ?_, ?_⟩
      · rw [hinput, List.cons_append]
      · rw [hbytes, List.reverse_cons, List.append_assoc, List.singleton_append]

theorem stringBytes_of_spells {text meant : List UInt8} (hspells : Spells text meant)
    (done rest : List UInt8) :
    stringBytes done (text ++ 0x22 :: rest) = .ok (done.reverse ++ meant) rest := by
  induction hspells generalizing done with
  | nil => rw [List.nil_append, stringBytes, if_pos rfl, List.append_nil]
  | @plain b text bytes hplain _ ih =>
      rcases isPlain_iff.mp hplain with ⟨hquote, hslash, hcontrol⟩
      rw [List.cons_append, stringBytes, if_neg hquote, if_neg hslash, if_neg hcontrol, ih,
        List.reverse_cons, List.append_assoc, List.singleton_append]
  | @escape piece meant text bytes hescape _ ih =>
      have hread := escape_of_spells hescape (text ++ 0x22 :: rest)
      rw [List.cons_append, List.append_assoc, stringBytes_escape done (by rw [hread]), hread]
      simp only [List.drop_left]
      rw [ih, List.reverse_append, List.reverse_reverse, List.append_assoc]

theorem stringTail_eq_ok_iff {s : String} :
    stringTail input = .ok s rest <-> exists text, Spells text (Utf8.encode s) ∧
      input = text ++ 0x22 :: rest := by
  have hdecode : forall bytes, Utf8.decode? bytes = some s <-> bytes = Utf8.encode s := by
    intro bytes
    rw [← Utf8.decode_eq_ok, Utf8.decode?]
    cases Utf8.decode bytes <;> simp [Except.toOption]
  constructor
  · intro hread
    rcases bind_eq_ok.mp hread with ⟨bytes, middle, hbytes, htext⟩
    rcases stringBytes_eq_ok hbytes with ⟨text, meant, hspells, hinput, hmeant⟩
    cases hfound : Utf8.decode? bytes with
    | none =>
        rw [hfound] at htext
        cases htext
    | some found =>
        rw [hfound] at htext
        cases htext
        refine ⟨text, ?_, hinput⟩
        rw [List.reverse_nil, List.nil_append] at hmeant
        rw [← (hdecode bytes).mp hfound, hmeant]
        exact hspells
  · rintro ⟨text, hspells, rfl⟩
    unfold stringTail
    rw [bind_of_ok (stringBytes_of_spells hspells [] rest), List.reverse_nil, List.nil_append,
      (hdecode _).mpr rfl]
    rfl

end Reader

theorem SpellsEscape.quotable {piece meant text : List UInt8} (hescape : SpellsEscape piece meant)
    (htext : Quotable text) : Quotable (0x5C :: (piece ++ text)) := by
  cases hescape with
  | simple hsimple => exact Quotable.simple (isSimple_iff.mpr (by rw [hsimple]; rfl)) htext
  | unit hcode => exact Quotable.unit (codeUnit?_isSome_iff.mp (by rw [hcode]; rfl)) htext
  | pair hhigh hlow =>
      exact Quotable.unit (codeUnit?_isSome_iff.mp (by rw [hhigh]; rfl))
        (Quotable.unit (codeUnit?_isSome_iff.mp (by rw [hlow]; rfl)) htext)

theorem Spells.quotable {text meant : List UInt8} (hspells : Spells text meant) :
    Quotable text := by
  induction hspells with
  | nil => exact Quotable.nil
  | plain hplain _ ih => exact Quotable.plain hplain ih
  | escape hescape _ ih => exact hescape.quotable ih

theorem spells_of_plain {text : List UInt8} (hplain : forall b, b ∈ text -> IsPlain b) :
    Spells text text := by
  induction text with
  | nil => exact .nil
  | cons b text ih =>
      rcases List.forall_mem_cons.mp hplain with ⟨hb, hplain⟩
      exact .plain hb (ih hplain)

theorem Spells.unique {text : List UInt8} {one other : String}
    (hone : Spells text (Utf8.encode one)) (hother : Spells text (Utf8.encode other)) :
    one = other := by
  have hread : stringTail (text ++ [0x22]) = .ok one [] :=
    stringTail_eq_ok_iff.mpr ⟨text, hone, rfl⟩
  rw [stringTail_eq_ok_iff.mpr ⟨text, hother, rfl⟩] at hread
  cases hread
  rfl

end Json
end Gatekeeper
