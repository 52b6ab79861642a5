import Gatekeeper.Token.Compact

/-!
# Parts of compact tokens

The parts of a token are what stands around its last two points.
-/

namespace Gatekeeper
namespace Compact

theorem splitLast_of_plain {cs : List Char} (hplain : '.' ∉ cs) : splitLast cs = none := by
  induction cs with
  | nil => rfl
  | cons c rest ih =>
      have hpoint : c ≠ '.' := fun h => hplain (h ▸ List.mem_cons_self)
      have hrest : '.' ∉ rest := fun h => hplain (List.mem_cons_of_mem c h)
      unfold splitLast
      rw [ih hrest]
      exact if_neg hpoint

theorem splitLast_append (before : List Char) {after : List Char} (hplain : '.' ∉ after) :
    splitLast (before ++ '.' :: after) = some (before, after) := by
  induction before with
  | nil =>
      rw [List.nil_append]
      unfold splitLast
      rw [splitLast_of_plain hplain]
      rfl
  | cons c rest ih =>
      rw [List.cons_append]
      unfold splitLast
      rw [ih]

theorem plain_of_splitLast {cs : List Char} (hsplit : splitLast cs = none) : '.' ∉ cs := by
  induction cs with
  | nil => exact List.not_mem_nil
  | cons c rest ih =>
      unfold splitLast at hsplit
      cases hrest : splitLast rest with
      | some found =>
          rw [hrest] at hsplit
          cases hsplit
      | none =>
          simp only [hrest] at hsplit
          by_cases hpoint : c = '.'
          · rw [if_pos hpoint] at hsplit
            cases hsplit
          · intro hmem
            rcases List.mem_cons.mp hmem with hhead | htail
            · exact hpoint hhead.symm
            · exact ih hrest htail

theorem splitLast_eq_some_iff {cs before after : List Char} :
    splitLast cs = some (before, after) <-> cs = before ++ '.' :: after ∧ '.' ∉ after := by
  constructor
  · intro hsplit
    induction cs generalizing before with
    | nil => cases hsplit
    | cons c rest ih =>
        unfold splitLast at hsplit
        cases hrest : splitLast rest with
        | some found =>
            rw [hrest] at hsplit
            cases hsplit
            rcases ih hrest with ⟨hsplit, hplain⟩
            exact ⟨by rw [hsplit, List.cons_append], hplain⟩
        | none =>
            simp only [hrest] at hsplit
            by_cases hpoint : c = '.'
            · rw [if_pos hpoint] at hsplit
              cases hsplit
              exact ⟨by rw [hpoint, List.nil_append], plain_of_splitLast hrest⟩
            · rw [if_neg hpoint] at hsplit
              cases hsplit
  · rintro ⟨rfl, hplain⟩
    exact splitLast_append before hplain

/-- The token is its parts with points between them, and the last two parts have no point. -/
structure Splits (token : List Char) (parts : Compact) : Prop where
  text : token = parts.header ++ '.' :: (parts.payload ++ '.' :: parts.signature)
  payload : '.' ∉ parts.payload
  signature : '.' ∉ parts.signature

theorem split?_eq_some_iff {token : List Char} {parts : Compact} :
    split? token = some parts <-> Splits token parts := by
  unfold split?
  simp only [bind, Option.bind_eq_some_iff, Prod.exists, splitLast_eq_some_iff, pure,
    Option.some.injEq]
  constructor
  · rintro ⟨signed, signature, ⟨rfl, hsignature⟩, header, payload, ⟨rfl, hpayload⟩, rfl⟩
    exact ⟨by simp, hpayload, hsignature⟩
  · rintro ⟨rfl, hpayload, hsignature⟩
    refine ⟨parts.signedChars, parts.signature, ⟨?_, hsignature⟩, parts.header, parts.payload,
      ⟨rfl, hpayload⟩, rfl⟩
    simp [signedChars]

end Compact
end Gatekeeper
