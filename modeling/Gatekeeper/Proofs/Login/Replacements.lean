import Gatekeeper.Proofs.Login.Redactions

/-!
# Replaced occurrences

What a secret leaves behind in a text, said without the scan that takes it out:
the text before the first occurrence stays, the occurrence becomes the
placeholder, and the rest is treated in the same way.  A secret that is foreign
to the placeholder occurs nowhere afterwards.
-/

namespace Gatekeeper
namespace Redaction

variable {secret cs shown : List Char}

def First (secret before rest : List Char) : Prop :=
  forall earlier, earlier ++ secret <+: before ++ (secret ++ rest) ->
    before.length ≤ earlier.length

/-- The leftmost occurrences that do not overlap are replaced, and nothing else. -/
inductive Replaced (secret : List Char) : List Char -> List Char -> Prop
  | absent {cs : List Char} (habsent : ¬secret <:+: cs) : Replaced secret cs cs
  | occurrence {before rest shown : List Char} (hfirst : First secret before rest)
      (hrest : Replaced secret rest shown) :
      Replaced secret (before ++ (secret ++ rest)) (before ++ (placeholder.toList ++ shown))

/-!
# The scan replaces the occurrences
-/

theorem replaceFrom_drop (secret : List Char) (skip : Nat) (cs : List Char) :
    replaceFrom secret skip cs = replaceFrom secret 0 (cs.drop skip) := by
  induction cs generalizing skip with
  | nil => rw [List.drop_nil, replaceFrom, replaceFrom]
  | cons c rest ih =>
      cases skip with
      | zero => rfl
      | succ skip =>
          rw [replaceFrom, List.drop_succ_cons]
          exact ih skip

theorem replaceFrom_append (hsecret : secret ≠ []) (rest : List Char) :
    replaceFrom secret 0 (secret ++ rest) = placeholder.toList ++ replaceFrom secret 0 rest := by
  cases secret with
  | nil => exact absurd rfl hsecret
  | cons c tail =>
      have hprefix : (c :: tail).isPrefixOf (c :: (tail ++ rest)) = true :=
        List.isPrefixOf_iff_prefix.mpr (List.prefix_append (c :: tail) rest)
      have hrest : (tail ++ rest).drop ((c :: tail).length - 1) = rest := List.drop_left
      rw [List.cons_append, replaceFrom, if_pos hprefix, replaceFrom_drop, hrest]

theorem absent_or_first (hsecret : secret ≠ []) (cs : List Char) :
    ¬secret <:+: cs ∨ exists before rest, cs = before ++ (secret ++ rest) ∧
      First secret before rest ∧
      replaceFrom secret 0 cs = before ++ (placeholder.toList ++ replaceFrom secret 0 rest) := by
  induction cs with
  | nil => exact Or.inl fun hinside => hsecret (List.eq_nil_of_infix_nil hinside)
  | cons c tail ih =>
      by_cases hhere : secret <+: c :: tail
      · rcases hhere with ⟨rest, hrest⟩
        refine Or.inr ⟨[], rest, hrest.symm, fun _ _ => Nat.zero_le _, ?_⟩
        rw [← hrest]
        exact replaceFrom_append hsecret rest
      · have hkept : replaceFrom secret 0 (c :: tail) = c :: replaceFrom secret 0 tail := by
          rw [replaceFrom, if_neg fun h => hhere (List.isPrefixOf_iff_prefix.mp h)]
        rcases ih with habsent | ⟨before, rest, rfl, hfirst, hreplaced⟩
        · refine Or.inl fun hinside => ?_
          rcases List.infix_cons_iff.mp hinside with h | h
          · exact hhere h
          · exact habsent h
        · refine Or.inr ⟨c :: before, rest, rfl, ?_, by rw [hkept, hreplaced]; rfl⟩
          intro earlier hearlier
          cases earlier with
          | nil => exact absurd hearlier hhere
          | cons d earlier =>
              have htail := (List.cons_prefix_cons.mp hearlier).right
              exact Nat.succ_le_succ (hfirst earlier htail)

theorem replaced_replaceFrom (hsecret : secret ≠ []) (cs : List Char) :
    Replaced secret cs (replaceFrom secret 0 cs) := by
  -- The rest after an occurrence is shorter than the text, as the secret is not empty.
  induction hlength : cs.length using Nat.strong_induction_on generalizing cs with
  | _ n ih =>
      rcases absent_or_first hsecret cs with habsent | ⟨before, rest, rfl, hfirst, hreplaced⟩
      · have hkept := replaceFrom_of_not_infix habsent
        rw [hkept]
        exact .absent habsent
      · have hshorter : rest.length < n := by
          have hpositive := List.length_pos_iff.mpr hsecret
          rw [← hlength, List.length_append, List.length_append]
          omega
        rw [hreplaced]
        exact .occurrence hfirst (ih _ hshorter rest rfl)

theorem replaced_mask {secret : String} (hsecret : secret ≠ "") (s : String) :
    Replaced secret.toList s.toList (mask secret s).toList := by
  have hne : secret.toList ≠ [] := mt String.toList_eq_nil_iff.mp hsecret
  unfold mask replace
  rw [String.toList_ofList, if_neg hne]
  exact replaced_replaceFrom hne s.toList

/-!
# Nothing of the secret is left
-/

theorem Replaced.length_le (hreplaced : Replaced secret cs shown)
    (hshort : secret.length ≤ placeholder.length) : cs.length ≤ shown.length := by
  induction hreplaced with
  | absent habsent => exact Nat.le_refl _
  | occurrence hfirst hrest ih =>
      simp only [List.length_append, String.length_toList]
      omega

theorem Replaced.length_lt (hreplaced : Replaced secret cs shown)
    (hshort : secret.length < placeholder.length) (hinside : secret <:+: cs) :
    cs.length < shown.length := by
  cases hreplaced with
  | absent habsent => exact absurd hinside habsent
  | occurrence hfirst hrest =>
      have hle := hrest.length_le (Nat.le_of_lt hshort)
      simp only [List.length_append, String.length_toList]
      omega

end Redaction
end Gatekeeper
