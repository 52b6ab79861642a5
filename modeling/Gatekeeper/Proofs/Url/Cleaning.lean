import Gatekeeper.Provider
import Mathlib.Data.List.DropRight

/-!
# Cleaning a text that is continued

Blanks around an address do not count, but blanks inside it do.  What stands at
the end of a text may therefore begin to count when the text is continued: the
blanks there are then inside.
-/

namespace Gatekeeper
namespace Url

/-!
# Longest runs at the start of a list
-/

section Runs

variable {α : Type} {p : α -> Bool} {xs : List α}

theorem dropWhile_append_of_ne_nil (hrest : xs.dropWhile p ≠ []) (ys : List α) :
    (xs ++ ys).dropWhile p = xs.dropWhile p ++ ys := by
  rw [List.dropWhile_append, if_neg]
  rw [List.isEmpty_iff]
  exact hrest

theorem takeWhile_append_of_ne_nil (hrest : xs.dropWhile p ≠ []) (ys : List α) :
    (xs ++ ys).takeWhile p = xs.takeWhile p := by
  rw [List.takeWhile_append, if_neg]
  intro hlength
  refine hrest (List.dropWhile_eq_nil_iff.mpr (List.takeWhile_eq_self_iff.mp ?_))
  exact (List.takeWhile_prefix p).eq_of_length hlength

theorem not_of_dropWhile_eq_cons {x : α} {rest : List α} (hdrop : xs.dropWhile p = x :: rest) :
    p x = false := by
  have hhead := List.head?_dropWhile_not p xs
  rw [hdrop, List.head?_cons] at hhead
  exact hhead

theorem rtakeWhile_append_cons_of_neg {x : α} (hx : p x = false) (front xs : List α) :
    (front ++ x :: xs).rtakeWhile p = xs.rtakeWhile p := by
  have hstop : (xs.reverse ++ [x]).dropWhile p ≠ [] := by
    intro hnil
    rw [List.dropWhile_eq_nil_iff.mp hnil x List.mem_concat_self] at hx
    cases hx
  unfold List.rtakeWhile
  rw [List.reverse_append, List.reverse_cons, takeWhile_append_of_ne_nil hstop,
    List.takeWhile_append, List.takeWhile_cons_of_neg (Bool.not_eq_true _ ▸ hx), List.append_nil]
  split
  · next hlength => rw [(List.takeWhile_prefix p).eq_of_length hlength]
  · rfl

theorem not_of_all_not (hall : xs.all (fun x => !p x) = true) :
    forall x, x ∈ xs -> p x = false := by
  intro x hmem
  have hx := List.all_eq_true.mp hall x hmem
  simpa only [Bool.not_eq_true'] using hx

end Runs

/-!
# What counts
-/

def started (cs : List Char) : List Char :=
  (cs.dropWhile isEdge).filter fun c => !isIgnored c

/-- The blanks at the end of a text that count once the text is continued. -/
def endBlanks (cs : List Char) : List Char :=
  (cs.rtakeWhile isEdge).filter fun c => !isIgnored c

variable {cs xs : List Char}

theorem isEdge_of_mem_endBlanks {c : Char} (hmem : c ∈ endBlanks cs) : isEdge c = true :=
  List.mem_rtakeWhile_imp (List.mem_of_mem_filter hmem)

theorem trimEdges_eq_rdropWhile (cs : List Char) :
    trimEdges cs = (cs.dropWhile isEdge).rdropWhile isEdge :=
  rfl

theorem clean_append_endBlanks (hstart : cs.dropWhile isEdge ≠ []) :
    clean cs ++ endBlanks cs = started cs := by
  rcases List.exists_cons_of_ne_nil hstart with ⟨c, rest, hcons⟩
  have hedge := not_of_dropWhile_eq_cons hcons
  have hblanks : cs.rtakeWhile isEdge = (cs.dropWhile isEdge).rtakeWhile isEdge :=
    calc cs.rtakeWhile isEdge
      _ = (cs.takeWhile isEdge ++ c :: rest).rtakeWhile isEdge := by
          rw [← hcons, List.takeWhile_append_dropWhile]
      _ = rest.rtakeWhile isEdge := rtakeWhile_append_cons_of_neg hedge _ _
      _ = (cs.dropWhile isEdge).rtakeWhile isEdge := by
          rw [hcons]
          exact (rtakeWhile_append_cons_of_neg hedge [] rest).symm
  unfold clean endBlanks started
  rw [hblanks, trimEdges_eq_rdropWhile, ← List.filter_append, List.rdropWhile_append_rtakeWhile]

theorem clean_append (hstart : cs.dropWhile isEdge ≠ []) (hne : xs ≠ [])
    (hlast : isEdge (xs.getLast hne) = false) (hkept : forall c, c ∈ xs -> isIgnored c = false) :
    clean (cs ++ xs) = started cs ++ xs := by
  have hwhole : (cs.dropWhile isEdge ++ xs).rdropWhile isEdge = cs.dropWhile isEdge ++ xs := by
    refine List.rdropWhile_eq_self_iff.mpr fun hl => ?_
    rw [List.getLast_append_of_ne_nil hl hne, hlast]
    exact Bool.false_ne_true
  have hfilter : (xs.filter fun c => !isIgnored c) = xs := by
    refine List.filter_eq_self.mpr fun c hmem => ?_
    rw [hkept c hmem]
    rfl
  unfold clean started
  rw [trimEdges_eq_rdropWhile, dropWhile_append_of_ne_nil hstart, hwhole, List.filter_append,
    hfilter]

theorem endBlanks_append (hne : xs ≠ []) (hlast : isEdge (xs.getLast hne) = false) :
    endBlanks (cs ++ xs) = [] := by
  have hnone : (cs ++ xs).rtakeWhile isEdge = [] := by
    refine List.rtakeWhile_eq_nil_iff.mpr fun hl => ?_
    rw [List.getLast_append_of_ne_nil hl hne, hlast]
    exact Bool.false_ne_true
  unfold endBlanks
  rw [hnone, List.filter_nil]

theorem clean_append_of_edges (hedges : cs.dropWhile isEdge = []) (xs : List Char) :
    clean (cs ++ xs) = clean xs := by
  unfold clean
  rw [trimEdges_eq_rdropWhile, trimEdges_eq_rdropWhile,
    List.dropWhile_append_of_pos (List.dropWhile_eq_nil_iff.mp hedges)]

end Url

namespace Provider

open Url

/-!
# The text of the endpoint
-/

theorem toList_trimSlashes (raw : String) :
    (trimSlashes raw).toList = raw.toList.rdropWhile (· = '/') := by
  unfold trimSlashes
  rw [String.toList_ofList]
  rfl

theorem toList_endpointText (raw : String) :
    (endpointText raw).toList = (trimSlashes raw).toList ++ authenticatePath.toList := by
  unfold endpointText
  rw [String.toList_append]

def endSlashes (raw : String) : Nat :=
  (raw.toList.rtakeWhile (· = '/')).length

theorem toList_eq_append_slashes (raw : String) :
    raw.toList = (trimSlashes raw).toList ++ List.replicate (endSlashes raw) '/' := by
  have hslashes : raw.toList.rtakeWhile (· = '/') = List.replicate (endSlashes raw) '/' := by
    refine List.eq_replicate_iff.mpr ⟨rfl, fun c hmem => ?_⟩
    have hc := List.mem_rtakeWhile_imp hmem
    exact of_decide_eq_true hc
  rw [toList_trimSlashes, ← hslashes, List.rdropWhile_append_rtakeWhile]

theorem getLast_slashes (n : Nat) (hne : List.replicate (n + 1) '/' ≠ []) :
    isEdge ((List.replicate (n + 1) '/').getLast hne) = false := by
  rw [List.getLast_replicate]
  decide

theorem endSlashes_eq_zero_or_endBlanks_eq_nil (raw : String) :
    endSlashes raw = 0 ∨ endBlanks raw.toList = [] := by
  cases hn : endSlashes raw with
  | zero => exact Or.inl rfl
  | succ n =>
      rw [toList_eq_append_slashes, hn]
      exact Or.inr (endBlanks_append (List.cons_ne_nil _ _) (getLast_slashes n _))

/-- The text of the base address and the text of the endpoint start alike.  The slashes that end the
one are not in the other, and the blanks that end it count in the other alone. -/
theorem clean_texts {raw : String} (hstart : (trimSlashes raw).toList.dropWhile isEdge ≠ []) :
    exists stem : List Char,
      clean raw.toList = stem ++ List.replicate (endSlashes raw) '/' ∧
        started (trimSlashes raw).toList = stem ++ endBlanks raw.toList ∧
        clean (endpointText raw).toList =
          stem ++ (endBlanks raw.toList ++ authenticatePath.toList) := by
  have hendpoint : clean (endpointText raw).toList =
      started (trimSlashes raw).toList ++ authenticatePath.toList := by
    rw [toList_endpointText]
    exact clean_append hstart (by decide) (by decide) (not_of_all_not (by decide))
  have hraw := toList_eq_append_slashes raw
  cases hn : endSlashes raw with
  | zero =>
      -- Nothing is trimmed from the text, so the blanks at its end are still there.
      rw [hn, List.replicate_zero, List.append_nil] at hraw
      rw [← hraw] at hstart hendpoint ⊢
      have hstarted := clean_append_endBlanks hstart
      refine ⟨clean raw.toList, (List.append_nil _).symm, hstarted.symm, ?_⟩
      rw [hendpoint, ← hstarted, List.append_assoc]
  | succ n =>
      have hblanks : endBlanks raw.toList = [] := by
        refine (endSlashes_eq_zero_or_endBlanks_eq_nil raw).resolve_left ?_
        rw [hn]
        exact Nat.succ_ne_zero n
      have hkept : forall c, c ∈ List.replicate (n + 1) '/' -> isIgnored c = false := by
        intro c hmem
        rw [List.eq_of_mem_replicate hmem]
        decide
      refine ⟨started (trimSlashes raw).toList, ?_, ?_, ?_⟩
      · rw [hraw, hn]
        exact clean_append hstart (List.cons_ne_nil _ _) (getLast_slashes n _) hkept
      · rw [hblanks, List.append_nil]
      · rw [hblanks, List.nil_append, hendpoint]

end Provider
end Gatekeeper
