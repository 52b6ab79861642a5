import Gatekeeper.Proofs.Url.Authorities
import Gatekeeper.Provider

/-!
# Reading a text that is continued

The scheme and the authority that a text starts with are also those of the text
with more after it, unless blanks come to stand at the end of the authority.
-/

namespace Gatekeeper
namespace Url

variable {cs xs path : List Char} {scheme : Scheme} {a : Authority}

/-!
# Schemes
-/

theorem scheme?_eq_some_iff {name rest : List Char} :
    scheme? cs = some (name, rest) <->
      cs.dropWhile isSchemeChar = ':' :: rest ∧
        (cs.takeWhile isSchemeChar).head?.any isLetter = true ∧
        name = (cs.takeWhile isSchemeChar).map Ascii.lower := by
  unfold scheme?
  simp only
  constructor
  · intro hscheme
    split at hscheme
    · next rest' hdrop =>
        split at hscheme
        · next hletter =>
            cases hscheme
            exact ⟨hdrop, hletter, rfl⟩
        · cases hscheme
    · cases hscheme
  · rintro ⟨hdrop, hletter, rfl⟩
    rw [hdrop]
    exact if_pos hletter

theorem isLetter_of_lower {c : Char} (hletter : isLetter (Ascii.lower c) = true) :
    isLetter c = true := by
  unfold Ascii.lower at hletter
  split at hletter
  · rename_i hupper
    simp [isLetter, hupper.left, hupper.right]
  · exact hletter

/-- The text starts with the scheme, in letters of either case and with a colon after it, once
blanks around the text and line breaks inside it are dropped. -/
def HasScheme (raw : String) (scheme : Scheme) : Prop :=
  exists name rest, clean raw.toList = name ++ ':' :: rest ∧ name.map Ascii.lower = scheme.chars

theorem Manner.of_eq_web_iff {name : List Char} :
    Manner.of name = .web scheme <-> name = scheme.chars := by
  constructor
  · intro hmanner
    unfold Manner.of at hmanner
    simp only at hmanner
    split at hmanner
    · rename_i hname
      cases hmanner
      exact String.ofList_injective hname
    split at hmanner
    · rename_i hname
      cases hmanner
      exact String.ofList_injective hname
    split at hmanner
    · cases hmanner
    split at hmanner <;> cases hmanner
  · rintro rfl
    cases scheme <;> decide

theorem hasScheme_iff {raw : String} :
    HasScheme raw scheme <->
      exists rest, scheme? (clean raw.toList) = some (scheme.chars, rest) := by
  constructor
  · rintro ⟨name, rest, htext, hname⟩
    have hletters : forall c, c ∈ name -> isLetter c = true := by
      intro c hmem
      have hlower : Ascii.lower c ∈ scheme.chars := by
        rw [← hname]
        exact List.mem_map_of_mem hmem
      apply isLetter_of_lower
      cases scheme with
      | http => exact List.all_eq_true.mp (rfl : Scheme.http.chars.all isLetter = true) _ hlower
      | https => exact List.all_eq_true.mp (rfl : Scheme.https.chars.all isLetter = true) _ hlower
    have hchars : forall c, c ∈ name -> isSchemeChar c = true := by
      intro c hmem
      unfold isSchemeChar
      rw [hletters c hmem]
      rfl
    have htake : (clean raw.toList).takeWhile isSchemeChar = name := by
      rw [htext, List.takeWhile_append_of_pos hchars, List.takeWhile_cons_of_neg (by decide),
        List.append_nil]
    have hdrop : (clean raw.toList).dropWhile isSchemeChar = ':' :: rest := by
      rw [htext, List.dropWhile_append_of_pos hchars, List.dropWhile_cons_of_neg (by decide)]
    refine ⟨rest, scheme?_eq_some_iff.mpr ⟨hdrop, ?_, by rw [htake, hname]⟩⟩
    rw [htake]
    cases name with
    | nil => cases scheme <;> cases hname
    | cons c more => exact hletters c List.mem_cons_self
  · rintro ⟨rest, hscheme⟩
    rcases scheme?_eq_some_iff.mp hscheme with ⟨hdrop, _, hname⟩
    refine ⟨(clean raw.toList).takeWhile isSchemeChar, rest, ?_, hname.symm⟩
    rw [← hdrop, List.takeWhile_append_dropWhile]

theorem scheme?_append {name rest : List Char} (hscheme : scheme? cs = some (name, rest))
    (xs : List Char) : scheme? (cs ++ xs) = some (name, rest ++ xs) := by
  rw [scheme?_eq_some_iff] at hscheme ⊢
  rcases hscheme with ⟨hdrop, hletter, hname⟩
  have hne : cs.dropWhile isSchemeChar ≠ [] := by
    rw [hdrop]
    exact List.cons_ne_nil _ _
  rw [dropWhile_append_of_ne_nil hne, takeWhile_append_of_ne_nil hne, hdrop]
  exact ⟨rfl, hletter, hname⟩

theorem scheme?_of_slashes {name rest : List Char} {k : Nat}
    (hscheme : scheme? (cs ++ List.replicate k '/') = some (name, rest)) :
    exists rest' : List Char,
      scheme? cs = some (name, rest') ∧ rest = rest' ++ List.replicate k '/' := by
  rcases scheme?_eq_some_iff.mp hscheme with ⟨hdrop, hletter, hname⟩
  have hne : cs.dropWhile isSchemeChar ≠ [] := by
    intro hnil
    rw [List.dropWhile_append_of_pos (List.dropWhile_eq_nil_iff.mp hnil),
      List.dropWhile_replicate] at hdrop
    have hmem : ':' ∈ List.replicate k '/' := by
      rw [if_neg (by decide)] at hdrop
      rw [hdrop]
      exact List.mem_cons_self
    exact absurd (List.eq_of_mem_replicate hmem) (by decide)
  rw [dropWhile_append_of_ne_nil hne] at hdrop
  rw [takeWhile_append_of_ne_nil hne] at hletter hname
  rcases List.append_eq_cons_iff.mp hdrop with ⟨hnil, _⟩ | ⟨rest', hdrop', hrest⟩
  · exact absurd hnil hne
  · exact ⟨rest', scheme?_eq_some_iff.mpr ⟨hdrop', hletter, hname⟩, hrest⟩

/-!
# Where the authority ends
-/

theorem endsAuthority_of_isEdge {special : Bool} {c : Char} (hedge : isEdge c = true) :
    endsAuthority special c = false := by
  unfold endsAuthority
  rw [decide_eq_false (ne_of_isEdge hedge rfl), decide_eq_false (ne_of_isEdge hedge rfl),
    decide_eq_false (ne_of_isEdge hedge rfl), decide_eq_false (ne_of_isEdge hedge rfl)]
  exact Bool.and_false special

theorem splitTail_append {special : Bool}
    (hends : (splitTail special cs).2 ≠ [] ∨ (splitTail special xs).1 = []) :
    splitTail special (cs ++ xs) = ((splitTail special cs).1, (splitTail special cs).2 ++ xs) := by
  by_cases hne : (splitTail special cs).2 = []
  · have hall := List.dropWhile_eq_nil_iff.mp hne
    have hxs := hends.resolve_left (not_not.mpr hne)
    have hrest := List.dropWhile_eq_self_iff.mpr (List.takeWhile_eq_nil_iff.mp hxs)
    have htake : (splitTail special (cs ++ xs)).1 = cs ++ (splitTail special xs).1 :=
      List.takeWhile_append_of_pos hall
    have hdrop : (splitTail special (cs ++ xs)).2 = (splitTail special xs).2 :=
      List.dropWhile_append_of_pos hall
    rw [hne, List.nil_append]
    refine Prod.ext (htake.trans ?_) (hdrop.trans hrest)
    have hfront := List.takeWhile_eq_self_iff.mpr hall
    rw [hxs, List.append_nil]
    exact hfront.symm
  · exact Prod.ext (takeWhile_append_of_ne_nil hne xs) (dropWhile_append_of_ne_nil hne xs)

theorem endsAuthority_of_splitTail {special : Bool} {front : List Char} {c : Char}
    (hsplit : splitTail special cs = (front, c :: path)) : endsAuthority special c = true := by
  have hstop := not_of_dropWhile_eq_cons (congrArg Prod.snd hsplit)
  simpa only [Bool.not_eq_false'] using hstop

theorem splitTail_eq_nil_iff {special : Bool} {front : List Char} :
    splitTail special cs = (front, []) <->
      front = cs ∧ forall c, c ∈ cs -> endsAuthority special c = false := by
  have hall : (forall c, c ∈ cs -> endsAuthority special c = false) <->
      forall c, c ∈ cs -> (!endsAuthority special c) = true := by
    simp only [Bool.not_eq_true']
  unfold splitTail
  rw [hall, Prod.mk.injEq, List.dropWhile_eq_nil_iff]
  constructor
  · rintro ⟨hfront, hends⟩
    exact ⟨hfront.symm.trans (List.takeWhile_eq_self_iff.mpr hends), hends⟩
  · rintro ⟨rfl, hends⟩
    exact ⟨List.takeWhile_eq_self_iff.mpr hends, hends⟩

/-!
# Scheme and authority
-/

section

variable [International]

/-- The scheme and the authority that a text starts with, and what follows them. -/
def Reads (cs : List Char) (scheme : Scheme) (a : Authority) (path : List Char) : Prop :=
  exists name rest front : List Char,
    scheme? cs = some (name, rest) ∧ Manner.of name = .web scheme ∧
      splitTail true (rest.dropWhile isSlash) = (front, path) ∧ authority front path = .ok a

theorem parseChars_eq_web_iff {url : Url} :
    parseChars cs = .ok (.web url) <->
      exists (scheme : Scheme) (a : Authority) (path : List Char),
        Reads cs scheme a path ∧ url = ofParts scheme a (tail path) := by
  unfold parseChars
  constructor
  · intro hparse
    split at hparse
    · cases hparse
    next name rest hscheme =>
    split at hparse
    · next scheme hmanner =>
        rcases except_bind_eq_ok.mp hparse with ⟨a, hread, heq⟩
        cases heq
        exact ⟨scheme, a, _, ⟨name, rest, _, hscheme, hmanner, rfl, hread⟩, rfl⟩
    · rcases except_bind_eq_ok.mp hparse with ⟨_, _, heq⟩
      cases heq
    · cases hfile : checkFile rest with
      | error fault =>
          rw [hfile] at hparse
          cases hparse
      | ok _ =>
          rw [hfile] at hparse
          cases hparse
    · split at hparse
      · rcases except_bind_eq_ok.mp hparse with ⟨_, _, heq⟩
        cases heq
      · cases hparse
  · rintro ⟨scheme, a, path, ⟨name, rest, front, hscheme, hmanner, hsplit, hread⟩, rfl⟩
    rw [hscheme]
    simp only [hmanner, hsplit, hread]
    rfl

theorem hasScheme_of_parse {raw : String} {url : Url} (hparse : Url.parse raw = .ok (.web url)) :
    HasScheme raw url.scheme := by
  rcases parseChars_eq_web_iff.mp hparse with ⟨scheme, a, path, hreads, rfl⟩
  rcases hreads with ⟨name, rest, _, hscheme, hmanner, _⟩
  rw [Manner.of_eq_web_iff.mp hmanner] at hscheme
  exact hasScheme_iff.mpr ⟨rest, hscheme⟩

theorem not_hasScheme_of_parse {raw : String} (hparse : Url.parse raw = .ok .other)
    (scheme : Scheme) : ¬HasScheme raw scheme := by
  intro hhas
  rcases hasScheme_iff.mp hhas with ⟨rest, hscheme⟩
  have hmanner := Manner.of_eq_web_iff.mpr (rfl : scheme.chars = scheme.chars)
  unfold Url.parse parseChars at hparse
  rw [hscheme] at hparse
  simp only [hmanner] at hparse
  rcases except_bind_eq_ok.mp hparse with ⟨a, _, heq⟩
  cases heq

theorem Reads.unique {scheme' : Scheme} {a' : Authority} {path' : List Char}
    (hreads : Reads cs scheme a path) (hother : Reads cs scheme' a' path') :
    scheme = scheme' ∧ a = a' ∧ path = path' := by
  rcases hreads with ⟨name, rest, front, hscheme, hmanner, hsplit, hread⟩
  rcases hother with ⟨name', rest', front', hscheme', hmanner', hsplit', hread'⟩
  rw [hscheme] at hscheme'
  cases hscheme'
  rw [hmanner] at hmanner'
  cases hmanner'
  rw [hsplit] at hsplit'
  cases hsplit'
  rw [hread] at hread'
  cases hread'
  exact ⟨rfl, rfl, rfl⟩

theorem Reads.suffix (hreads : Reads cs scheme a path) : path <:+ cs := by
  rcases hreads with ⟨name, rest, front, hscheme, _, hsplit, _⟩
  have hpath : path <:+ rest.dropWhile isSlash := by
    have hdrop : (splitTail true (rest.dropWhile isSlash)).2 = path := by rw [hsplit]
    rw [← hdrop]
    exact List.dropWhile_suffix _
  have hrest : ':' :: rest <:+ cs := by
    rw [← (scheme?_eq_some_iff.mp hscheme).left]
    exact List.dropWhile_suffix _
  exact hpath.trans ((List.dropWhile_suffix _).trans ((List.suffix_cons ':' rest).trans hrest))

theorem Reads.root (hreads : Reads cs scheme a path) {c : Char} (hc : c ∈ path.head?) :
    endsAuthority true c = true := by
  rcases hreads with ⟨_, _, front, _, _, hsplit, _⟩
  cases path with
  | nil => cases hc
  | cons d rest =>
      cases hc
      exact endsAuthority_of_splitTail hsplit

theorem not_authority_nil (after : List Char) (a : Authority) : authority [] after ≠ .ok a := by
  intro hread
  cases hread

theorem dropWhile_ne_nil_of_authority {special : Bool} {front : List Char}
    (hsplit : splitTail special cs = (front, path)) (hread : authority front path = .ok a) :
    cs ≠ [] := by
  rintro rfl
  cases hsplit
  exact not_authority_nil _ _ hread

theorem Reads.append (hreads : Reads cs scheme a path)
    (hends : path ≠ [] ∨ (splitTail true xs).1 = []) : Reads (cs ++ xs) scheme a (path ++ xs) := by
  rcases hreads with ⟨name, rest, front, hscheme, hmanner, hsplit, hread⟩
  refine ⟨name, rest ++ xs, front, scheme?_append hscheme xs, hmanner, ?_,
    authority_of_after hread _⟩
  have hne := dropWhile_ne_nil_of_authority hsplit hread
  rw [dropWhile_append_of_ne_nil hne, splitTail_append, hsplit]
  rw [hsplit]
  exact hends

theorem Reads.of_slashes {k : Nat} (hreads : Reads (cs ++ List.replicate k '/') scheme a path) :
    exists path' : List Char,
      Reads cs scheme a path' ∧ path = path' ++ List.replicate k '/' := by
  rcases hreads with ⟨name, rest, front, hscheme, hmanner, hsplit, hread⟩
  rcases scheme?_of_slashes hscheme with ⟨rest', hscheme', rfl⟩
  have hends : (splitTail true (List.replicate k '/')).1 = [] := by
    refine (List.takeWhile_replicate (p := fun c => !endsAuthority true c)).trans ?_
    exact if_neg (by decide)
  have hne : rest'.dropWhile isSlash ≠ [] := by
    intro hnil
    refine dropWhile_ne_nil_of_authority hsplit hread ?_
    rw [List.dropWhile_append_of_pos (List.dropWhile_eq_nil_iff.mp hnil), List.dropWhile_replicate]
    exact if_pos (by decide)
  rw [dropWhile_append_of_ne_nil hne, splitTail_append (Or.inr hends)] at hsplit
  cases hsplit
  exact ⟨_, ⟨name, rest', _, hscheme', hmanner, rfl, authority_of_after hread _⟩, rfl⟩

theorem Reads.not_blanks (hreads : Reads cs scheme a []) {blanks : List Char} (hne : blanks ≠ [])
    (hedges : forall c, c ∈ blanks -> isEdge c = true) (hends : (splitTail true xs).1 = [])
    (scheme' : Scheme) (a' : Authority) (path' : List Char) :
    ¬Reads (cs ++ (blanks ++ xs)) scheme' a' path' := by
  rintro ⟨name', rest', front', hscheme', _, hsplit', hread'⟩
  rcases hreads with ⟨name, rest, front, hscheme, _, hsplit, hread⟩
  have hstart := dropWhile_ne_nil_of_authority hsplit hread
  rcases splitTail_eq_nil_iff.mp hsplit with ⟨rfl, hinside⟩
  -- No blank ends the authority, so all of them belong to it.
  have hwhole : splitTail true (rest.dropWhile isSlash ++ blanks) =
      (rest.dropWhile isSlash ++ blanks, []) := by
    refine splitTail_eq_nil_iff.mpr ⟨rfl, fun c hmem => ?_⟩
    rcases List.mem_append.mp hmem with hmem | hmem
    · exact hinside c hmem
    · exact endsAuthority_of_isEdge (hedges c hmem)
  have hslash : '\\' ∉ rest.dropWhile isSlash := by
    intro hmem
    cases hinside _ hmem
  rw [scheme?_append hscheme] at hscheme'
  cases hscheme'
  rw [dropWhile_append_of_ne_nil hstart, ← List.append_assoc, splitTail_append (Or.inr hends),
    hwhole] at hsplit'
  cases hsplit'
  exact not_authority_of_blanks hread hslash hne hedges _ _ hread'

end

end Url

namespace Provider

variable [Url.International] {raw : String}

theorem webUrl_eq_ok_iff {url : Url} :
    webUrl raw = .ok url <-> Url.parse raw = .ok (.web url) := by
  unfold webUrl
  constructor
  · intro hweb
    split at hweb
    · cases hweb
    · cases hweb
    · next hparse =>
        cases hweb
        exact hparse
  · intro hparse
    rw [hparse]

theorem webUrl_eq_error_iff {fault : ProviderFault} :
    webUrl raw = .error fault <->
      (exists cause, Url.parse raw = .error cause ∧ fault = .invalidUrl raw cause) ∨
        Url.parse raw = .ok .other ∧ fault = .unsupportedScheme raw := by
  unfold webUrl
  cases Url.parse raw with
  | error cause => simp [eq_comm]
  | ok address => cases address <;> simp [eq_comm]

end Provider
end Gatekeeper
