import Gatekeeper.Proofs.Url.Reading
import Mathlib.Data.List.Infix

/-!
# Paths

Dot segments are resolved from the left, so what stands before the last segment
of a path does not depend on that segment.
-/

namespace Gatekeeper
namespace Url

variable {p : Char -> Bool} {set : CharSet} {cs xs : List Char}

/-!
# Written characters
-/

@[simp] theorem encode_append (set : CharSet) (cs xs : List Char) :
    encode set (cs ++ xs) = encode set cs ++ encode set xs :=
  List.flatMap_append

theorem encode_eq_self (hplain : forall c, c ∈ cs -> set c = false) : encode set cs = cs := by
  induction cs with
  | nil => rfl
  | cons c rest ih =>
      rw [List.forall_mem_cons] at hplain
      unfold encode encodeChar
      rw [List.flatMap_cons, hplain.left]
      exact congrArg (c :: ·) (ih hplain.right)

theorem encode_replicate {c : Char} (hplain : set c = false) (k : Nat) :
    encode set (List.replicate k c) = List.replicate k c := by
  refine encode_eq_self fun d hmem => ?_
  rw [List.eq_of_mem_replicate hmem]
  exact hplain

theorem encode_ne_nil (set : CharSet) (hne : cs ≠ []) : encode set cs ≠ [] := by
  rcases List.exists_cons_of_ne_nil hne with ⟨c, rest, rfl⟩
  intro hnil
  have hchar := (List.append_eq_nil_iff.mp hnil).left
  unfold encodeChar at hchar
  split at hchar
  · rcases List.exists_cons_of_ne_nil (String.utf8EncodeChar_ne_nil (c := c)) with ⟨b, more, hbytes⟩
    rw [hbytes] at hchar
    cases hchar
  · cases hchar

theorem upperHex_ne_slash {n : Nat} (hn : n < 16) : '/' ≠ upperHex n := by
  revert n
  decide

theorem slash_not_mem_encode (hslash : '/' ∉ cs) : '/' ∉ encode set cs := by
  intro hmem
  rcases List.mem_flatMap.mp hmem with ⟨c, hc, hchar⟩
  unfold encodeChar at hchar
  split at hchar
  · rcases List.mem_flatMap.mp hchar with ⟨b, _, hbyte⟩
    have hb := b.toNat_lt
    simp only [encodeByte, List.mem_cons, List.not_mem_nil, or_false] at hbyte
    rcases hbyte with hpercent | hhigh | hlow
    · cases hpercent
    · exact upperHex_ne_slash (by omega) hhigh
    · exact upperHex_ne_slash (by omega) hlow
  · rw [List.mem_singleton] at hchar
    exact hslash (hchar ▸ hc)

/-!
# Parts
-/

theorem splitBy_of_pos {c : Char} (hc : p c = true) (rest : List Char) :
    splitBy p (c :: rest) = [] :: splitBy p rest := by
  rw [splitBy, if_pos hc]

theorem splitBy_of_neg {c : Char} {rest part : List Char} {parts : List (List Char)}
    (hc : p c = false) (hrest : splitBy p rest = part :: parts) :
    splitBy p (c :: rest) = (c :: part) :: parts := by
  rw [splitBy, if_neg (Bool.not_eq_true _ ▸ hc), hrest]

theorem exists_splitBy_eq_cons (p : Char -> Bool) (cs : List Char) :
    exists (part : List Char) (parts : List (List Char)), splitBy p cs = part :: parts := by
  induction cs with
  | nil => exact ⟨[], [], rfl⟩
  | cons c rest ih =>
      rcases ih with ⟨part, parts, hrest⟩
      cases hc : p c with
      | true => exact ⟨_, _, splitBy_of_pos hc rest⟩
      | false => exact ⟨_, _, splitBy_of_neg hc hrest⟩

theorem splitBy_of_none (hnone : forall c, c ∈ cs -> p c = false) : splitBy p cs = [cs] := by
  induction cs with
  | nil => rfl
  | cons c rest ih =>
      rw [List.forall_mem_cons] at hnone
      exact splitBy_of_neg hnone.left (ih hnone.right)

theorem splitBy_append_cons {c : Char} (hc : p c = true) (cs rest : List Char) :
    splitBy p (cs ++ c :: rest) = splitBy p cs ++ splitBy p rest := by
  induction cs with
  | nil => exact splitBy_of_pos hc rest
  | cons d more ih =>
      rcases exists_splitBy_eq_cons p more with ⟨part, parts, hmore⟩
      cases hd : p d with
      | true =>
          rw [List.cons_append, splitBy_of_pos hd, splitBy_of_pos hd, ih, List.cons_append]
      | false =>
          rw [hmore, List.cons_append] at ih
          rw [List.cons_append, splitBy_of_neg hd ih, splitBy_of_neg hd hmore, List.cons_append]

theorem splitBy_replicate {c : Char} (hc : p c = true) (k : Nat) :
    splitBy p (List.replicate k c) = List.replicate (k + 1) [] := by
  induction k with
  | zero => rfl
  | succ k ih =>
      rw [List.replicate_succ, splitBy_of_pos hc, ih]
      rfl

def lastPart (p : Char -> Bool) (cs : List Char) : List Char :=
  cs.rtakeWhile fun c => !p c

theorem not_of_mem_lastPart {c : Char} (hmem : c ∈ lastPart p cs) : p c = false := by
  have hc := List.mem_rtakeWhile_imp hmem
  simpa only [Bool.not_eq_true'] using hc

theorem lastPart_append_cons {c : Char} (hc : p c = true) (front rest : List Char) :
    lastPart p (front ++ c :: rest) = lastPart p rest := by
  refine rtakeWhile_append_cons_of_neg ?_ front rest
  rw [hc]
  rfl

theorem lastPart_of_none (hnone : forall c, c ∈ cs -> p c = false) : lastPart p cs = cs := by
  refine List.rtakeWhile_eq_self_iff.mpr fun c hmem => ?_
  rw [hnone c hmem]
  rfl

theorem none_or_exists_lastPart (p : Char -> Bool) (cs : List Char) :
    (forall c, c ∈ cs -> p c = false) ∨
      (exists (front : List Char) (c : Char), p c = true ∧ cs = front ++ c :: lastPart p cs) := by
  have hwhole := List.rdropWhile_append_rtakeWhile (p := fun c => !p c) (l := cs)
  by_cases hnil : cs.rdropWhile (fun c => !p c) = []
  · refine Or.inl fun c hmem => ?_
    have hc := List.rdropWhile_eq_nil_iff.mp hnil c hmem
    simpa only [Bool.not_eq_true'] using hc
  · have hlast : p ((cs.rdropWhile fun c => !p c).getLast hnil) = true := by
      have hkept := List.rdropWhile_last_not _ cs hnil
      simpa only [Bool.not_eq_true', Bool.not_eq_false] using hkept
    refine Or.inr ⟨(cs.rdropWhile fun c => !p c).dropLast, _, hlast, ?_⟩
    rw [List.append_cons, List.dropLast_append_getLast]
    exact hwhole.symm

theorem exists_splitBy_append (p : Char -> Bool) (cs : List Char) :
    exists before : List (List Char), forall xs : List Char, (forall c, c ∈ xs -> p c = false) ->
      splitBy p (cs ++ xs) = before ++ [lastPart p cs ++ xs] := by
  have hadded : forall xs : List Char, (forall c, c ∈ xs -> p c = false) ->
      splitBy p (lastPart p cs ++ xs) = [lastPart p cs ++ xs] := fun xs hxs =>
    splitBy_of_none (List.forall_mem_append.mpr ⟨fun _ => not_of_mem_lastPart, hxs⟩)
  rcases none_or_exists_lastPart p cs with hnone | ⟨front, c, hc, hcs⟩
  · refine ⟨[], fun xs hxs => ?_⟩
    rw [← hadded xs hxs, lastPart_of_none hnone, List.nil_append]
  · refine ⟨splitBy p front, fun xs hxs => ?_⟩
    rw [← hadded xs hxs, ← splitBy_append_cons hc, ← List.cons_append, ← List.append_assoc, ← hcs]

/-!
# Dot segments
-/

/-- What a segment makes of the segments before it when more segments follow.  The last of them
comes first. -/
def descend (done : List (List Char)) (segment : List Char) : List (List Char) :=
  if isDoubleDot segment then goUp done
  else if isDot segment then done
  else encode CharSet.path segment :: done

theorem descend_of_plain {segment : List Char} (hdouble : isDoubleDot segment = false)
    (hdot : isDot segment = false) (done : List (List Char)) :
    descend done segment = encode CharSet.path segment :: done := by
  unfold descend
  rw [hdouble, hdot]
  rfl

theorem isDot_of_isEdge {segment : List Char} {c : Char} (hedge : isEdge c = true)
    (hmem : c ∈ segment) : isDoubleDot segment = false ∧ isDot segment = false := by
  have hlower : c ∈ segment.map Ascii.lower :=
    List.mem_map.mpr ⟨c, hmem, lower_of_isEdge hedge⟩
  have hnone : forall forms : List (List Char),
      forms.all (fun form => form.all fun d => !isEdge d) = true ->
        decide (segment.map Ascii.lower ∈ forms) = false := by
    intro forms hforms
    refine decide_eq_false fun hform => ?_
    rw [not_of_all_not (List.all_eq_true.mp hforms _ hform) c hlower] at hedge
    cases hedge
  exact ⟨hnone _ (by decide), hnone _ (by decide)⟩

theorem resolve_append {rest : List (List Char)} (hrest : rest ≠ [])
    (done before : List (List Char)) :
    resolve done (before ++ rest) = resolve (before.foldl descend done) rest := by
  induction before generalizing done with
  | nil => rfl
  | cons segment more ih =>
      have hmore : (more ++ rest).isEmpty = false := by
        rw [List.isEmpty_eq_false_iff]
        exact List.append_ne_nil_of_right_ne_nil more hrest
      rw [List.cons_append, resolve, List.foldl_cons, ← ih]
      unfold descend
      simp only [hmore]
      split
      · rfl
      · split <;> rfl

theorem resolve_last (done : List (List Char)) (segment : List Char) :
    resolve done [segment] =
      (descend done segment).reverse ++
        if isDoubleDot segment ∨ isDot segment then [[]] else [] := by
  unfold descend
  by_cases hdouble : isDoubleDot segment = true
  · rw [resolve, if_pos hdouble, if_pos hdouble, if_pos (Or.inl hdouble)]
    exact List.reverse_cons
  · by_cases hdot : isDot segment = true
    · rw [resolve, if_neg hdouble, if_neg hdouble, if_pos hdot, if_pos hdot, if_pos (Or.inr hdot)]
      exact List.reverse_cons
    · rw [resolve, if_neg hdouble, if_neg hdouble, if_neg hdot, if_neg hdot,
        if_neg (not_or.mpr ⟨hdouble, hdot⟩), List.append_nil]
      rfl

theorem resolve_replicate (done : List (List Char)) (k : Nat) :
    resolve done (List.replicate k []) = done.reverse ++ List.replicate k [] := by
  induction k generalizing done with
  | zero => exact (List.append_nil _).symm
  | succ k ih =>
      have hempty : resolve done (List.replicate (k + 1) []) =
          resolve ([] :: done) (List.replicate k []) := by
        rw [List.replicate_succ, resolve]
        rfl
      rw [hempty, ih, List.reverse_cons, List.append_assoc]
      rfl

/-!
# The text of a path
-/

def pathText (segments : List (List Char)) : List Char :=
  segments.flatMap ('/' :: ·)

@[simp] theorem pathText_append (one other : List (List Char)) :
    pathText (one ++ other) = pathText one ++ pathText other :=
  List.flatMap_append

@[simp] theorem pathText_singleton (segment : List Char) : pathText [segment] = '/' :: segment :=
  List.flatMap_singleton _ _

theorem pathText_replicate (k : Nat) : pathText (List.replicate k []) = List.replicate k '/' := by
  induction k with
  | zero => rfl
  | succ k ih =>
      unfold pathText at ih ⊢
      rw [List.replicate_succ, List.flatMap_cons, ih]
      rfl

theorem goUp_suffix (done : List (List Char)) : goUp done <:+ done := by
  cases done with
  | nil => exact List.suffix_rfl
  | cons segment above =>
      rw [goUp]
      split
      · exact List.suffix_rfl
      · exact List.suffix_cons _ _

theorem length_pathText_resolve_last (before : List (List Char)) (segment : List Char) :
    (pathText (resolve before.reverse [segment])).length ≤
      (pathText before).length + ((encode CharSet.path segment).length + 1) := by
  have hup : (pathText (goUp before.reverse).reverse).length ≤ (pathText before).length := by
    have hprefix := List.reverse_prefix.mpr (goUp_suffix before.reverse)
    rw [List.reverse_reverse] at hprefix
    exact (List.IsPrefix.flatMap hprefix _).length_le
  rw [resolve_last, pathText_append, List.length_append]
  unfold descend
  by_cases hdouble : isDoubleDot segment = true
  · rw [if_pos hdouble, if_pos (Or.inl hdouble), pathText_singleton, List.length_singleton]
    omega
  · by_cases hdot : isDot segment = true
    · rw [if_neg hdouble, if_pos hdot, if_pos (Or.inr hdot), List.reverse_reverse,
        pathText_singleton, List.length_singleton]
      omega
    · rw [if_neg hdouble, if_neg hdot, if_neg (not_or.mpr ⟨hdouble, hdot⟩), List.reverse_cons,
        List.reverse_reverse, pathText_append, pathText_singleton, List.length_append,
        List.length_cons]
      exact Nat.le_refl _

/-!
# Paths that are continued

The text of a path is empty or starts with a slash.
-/

def parents : List Char -> List (List Char)
  | [] => []
  | _ :: rest => ((splitBy isSlash rest).foldl descend []).reverse

theorem segments_of_slash {c : Char} (hc : isSlash c = true) (rest : List Char) :
    segments (c :: rest) = resolve [] (splitBy isSlash rest) := by
  rw [segments, if_pos hc]

theorem splitBy_ne_nil (p : Char -> Bool) (cs : List Char) : splitBy p cs ≠ [] := by
  rcases exists_splitBy_eq_cons p cs with ⟨part, parts, hcs⟩
  rw [hcs]
  exact List.cons_ne_nil _ _

theorem segments_append_slash {path : List Char}
    (hroot : forall c, c ∈ path.head? -> isSlash c = true) (rest : List Char) :
    segments (path ++ '/' :: rest) = resolve (parents path).reverse (splitBy isSlash rest) := by
  cases path with
  | nil => exact segments_of_slash rfl rest
  | cons c more =>
      have hne := splitBy_ne_nil isSlash rest
      rw [List.cons_append, segments_of_slash (hroot c rfl), splitBy_append_cons rfl,
        resolve_append hne, parents, List.reverse_reverse]

theorem segments_append_name {path name : List Char}
    (hroot : forall c, c ∈ path.head? -> isSlash c = true)
    (hname : forall c, c ∈ name -> isSlash c = false)
    (hdouble : isDoubleDot name = false) (hdot : isDot name = false) :
    segments (path ++ '/' :: name) = parents path ++ [encode CharSet.path name] := by
  rw [segments_append_slash hroot, splitBy_of_none hname, resolve, hdouble, hdot]
  simp only [Bool.false_eq_true, if_false, resolve, List.reverse_cons, List.reverse_reverse]

theorem exists_before_last {c : Char} (hc : isSlash c = true) (rest : List Char) :
    exists before : List (List Char), forall xs : List Char,
      (forall d, d ∈ xs -> isSlash d = false) ->
        parents (c :: rest ++ xs) =
            (descend before.reverse (lastPart isSlash rest ++ xs)).reverse ∧
          segments (c :: rest ++ xs) = resolve before.reverse [lastPart isSlash rest ++ xs] := by
  rcases exists_splitBy_append isSlash rest with ⟨above, hsplit⟩
  refine ⟨(above.foldl descend []).reverse, fun xs hxs => ?_⟩
  rw [List.reverse_reverse, List.cons_append, segments_of_slash hc, parents, hsplit xs hxs,
    List.foldl_append]
  exact ⟨rfl, resolve_append (List.cons_ne_nil _ _) [] above⟩

/-- Slashes at the end of a path leave as many empty segments.  Without them there is one where the
path is empty or ends in a dot segment. -/
theorem exists_segments_append_slashes {path : List Char}
    (hroot : forall c, c ∈ path.head? -> isSlash c = true) (k : Nat) :
    exists m : Nat,
      segments (path ++ List.replicate k '/') = parents path ++ List.replicate m [] ∧
        (m = k ∨ m = 1 ∧ k = 0) := by
  cases k with
  | zero =>
      rw [List.replicate_zero, List.append_nil]
      cases path with
      | nil => exact ⟨1, rfl, Or.inr ⟨rfl, rfl⟩⟩
      | cons c rest =>
          rcases exists_before_last (hroot c rfl) rest with ⟨before, hbefore⟩
          rcases hbefore [] (List.forall_mem_nil _) with ⟨hparents, hsegments⟩
          rw [List.append_nil] at hparents hsegments
          rw [hsegments, resolve_last, hparents]
          split
          · exact ⟨1, rfl, Or.inr ⟨rfl, rfl⟩⟩
          · exact ⟨0, rfl, Or.inl rfl⟩
  | succ k =>
      refine ⟨k + 1, ?_, Or.inl rfl⟩
      rw [List.replicate_succ, segments_append_slash hroot, splitBy_replicate rfl,
        resolve_replicate, List.reverse_reverse]

/-!
# Queries and fragments
-/

theorem dropWhile_ne_nil_of_mem {d : Char} (hmem : d ∈ cs) : cs.dropWhile (· ≠ d) ≠ [] := by
  intro hnil
  have hne := List.dropWhile_eq_nil_iff.mp hnil d hmem
  exact of_decide_eq_true hne rfl

theorem forall_ne_of_not_mem {d : Char} (hmem : d ∉ cs) :
    forall c, c ∈ cs -> decide (c ≠ d) = true := by
  intro c hc
  refine decide_eq_true ?_
  rintro rfl
  exact hmem hc

theorem markedPart_append {part : List Char} (hne : part ≠ []) (xs : List Char) :
    (if part ++ xs = [] then none else some (encode set ((part ++ xs).drop 1))) =
      (if part = [] then none else some (encode set (part.drop 1))).map (· ++ encode set xs) := by
  rcases List.exists_cons_of_ne_nil hne with ⟨mark, rest, rfl⟩
  rw [List.cons_append, if_neg (List.cons_ne_nil _ _), if_neg (List.cons_ne_nil _ _),
    Option.map_some, ← encode_append]
  rfl

theorem tail_append_of_fragment (hmem : '#' ∈ cs) (xs : List Char) :
    tail (cs ++ xs) = { tail cs with
      fragment := (tail cs).fragment.map (· ++ encode CharSet.fragment xs) } := by
  have hne := dropWhile_ne_nil_of_mem hmem
  unfold tail
  simp only [takeWhile_append_of_ne_nil hne, dropWhile_append_of_ne_nil hne,
    markedPart_append hne]

theorem fragment_of_mem (hmem : '#' ∈ cs) : (tail cs).fragment.isSome = true := by
  unfold tail
  simp only [if_neg (dropWhile_ne_nil_of_mem hmem), Option.isSome_some]

theorem tail_of_plain (hplain : '#' ∉ cs) :
    tail cs =
      { path := segments (cs.takeWhile (· ≠ '?'))
        query :=
          if cs.dropWhile (· ≠ '?') = [] then none
          else some (encode CharSet.query ((cs.dropWhile (· ≠ '?')).drop 1))
        fragment := none } := by
  have hall := forall_ne_of_not_mem hplain
  unfold tail
  simp only [List.takeWhile_eq_self_iff.mpr hall, List.dropWhile_eq_nil_iff.mpr hall, if_true]

theorem tail_append_of_query (hplain : '#' ∉ cs ++ xs) (hmem : '?' ∈ cs) :
    tail (cs ++ xs) = { tail cs with
      query := (tail cs).query.map (· ++ encode CharSet.query xs) } := by
  have hne := dropWhile_ne_nil_of_mem hmem
  have hcs : '#' ∉ cs := fun h => hplain (List.mem_append_left xs h)
  simp only [tail_of_plain hplain, tail_of_plain hcs, takeWhile_append_of_ne_nil hne,
    dropWhile_append_of_ne_nil hne, markedPart_append hne]

theorem query_of_mem (hplain : '#' ∉ cs) (hmem : '?' ∈ cs) :
    (tail cs).query.isSome = true ∧ (tail cs).fragment = none := by
  rw [tail_of_plain hplain]
  simp only [if_neg (dropWhile_ne_nil_of_mem hmem), Option.isSome_some, and_self]

theorem tail_of_path (hplain : '#' ∉ cs) (hquery : '?' ∉ cs) :
    tail cs = ⟨segments cs, none, none⟩ := by
  have hall := forall_ne_of_not_mem hquery
  rw [tail_of_plain hplain]
  simp only [List.takeWhile_eq_self_iff.mpr hall, List.dropWhile_eq_nil_iff.mpr hall, if_true]

end Url
end Gatekeeper
