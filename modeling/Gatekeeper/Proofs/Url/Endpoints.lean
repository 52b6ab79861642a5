import Gatekeeper.Proofs.Url.Paths

/-!
# The endpoint of a provider

The path of the endpoint is written after the text of the base address, whatever
part of the address that text ends in.  The two addresses therefore share the
server, and their paths differ as they should where the text ends in a segment of
the path.
-/

namespace Gatekeeper
namespace Provider

open Url

variable {raw : String} {base endpoint : Url}

structure SameSite (base endpoint : Url) : Prop where
  scheme : endpoint.scheme = base.scheme
  user : endpoint.user = base.user
  password : endpoint.password = base.password
  host : endpoint.host = base.host
  port : endpoint.port = base.port

structure OnlyPathGrows (base endpoint : Url) : Prop extends SameSite base endpoint where
  query : endpoint.query = base.query
  fragment : endpoint.fragment = base.fragment
  path : endpoint.pathChars = base.pathChars.rdropWhile (· = '/') ++ authenticatePath.toList

/-!
# Where the path is written
-/

/-- A part of the base address and what it becomes when the path is written after the text: slashes
that end the text are dropped, and blanks that end it are written by their bytes. -/
def Continues (raw : String) (set : CharSet) (part grown : List Char) : Prop :=
  exists stem : List Char,
    part = stem ++ List.replicate (endSlashes raw) '/' ∧
      grown = stem ++ (encode set (endBlanks raw.toList) ++ authenticatePath.toList)

inductive ContinuesPath (raw : String) : List (List Char) -> List (List Char) -> Prop
  | plain (kept : List (List Char)) (m : Nat) (hblanks : endBlanks raw.toList = [])
      (hslashes : m = endSlashes raw ∨ m = 1 ∧ endSlashes raw = 0) :
      ContinuesPath raw (kept ++ List.replicate m []) (kept ++ ["authenticate".toList])
  | blanks (before : List (List Char)) (segment : List Char) (hblanks : endBlanks raw.toList ≠ []) :
      ContinuesPath raw (resolve before.reverse [segment])
        (before ++ [encode CharSet.path (segment ++ endBlanks raw.toList), "authenticate".toList])

/-- The path is written after the last part that the base address has. -/
inductive Continued (raw : String) (base endpoint : Url) : Prop
  | fragment {part grown : List Char} (hbase : base.fragment = some part)
      (hendpoint : endpoint.fragment = some grown)
      (hgrown : Continues raw CharSet.fragment part grown)
      (hpath : endpoint.path = base.path) (hquery : endpoint.query = base.query)
  | query {part grown : List Char} (hbase : base.query = some part)
      (hendpoint : endpoint.query = some grown) (hgrown : Continues raw CharSet.query part grown)
      (hpath : endpoint.path = base.path)
      (hfragment : base.fragment = none ∧ endpoint.fragment = none)
  | path (hgrown : ContinuesPath raw base.path endpoint.path)
      (hquery : base.query = none ∧ endpoint.query = none)
      (hfragment : base.fragment = none ∧ endpoint.fragment = none)

/-!
# What the two addresses share
-/

theorem build_eq_ok_iff [International] {parameters : Json.Object} {timeout : Option Nat}
    {provider : Provider} :
    build (some raw) parameters timeout = .ok provider <->
      webUrl raw = .ok provider.base ∧ webUrl (endpointText raw) = .ok provider.endpoint ∧
        timeout ≠ some 0 ∧ provider.parameters = parameters ∧ provider.timeout = timeout := by
  constructor
  · intro hbuild
    rcases except_bind_eq_ok.mp hbuild with ⟨base, hbase, hrest⟩
    rcases except_bind_eq_ok.mp hrest with ⟨endpoint, hendpoint, hrest⟩
    split at hrest
    · cases hrest
    · next hpositive =>
        cases hrest
        exact ⟨hbase, hendpoint, hpositive, rfl, rfl⟩
  · rintro ⟨hbase, hendpoint, hpositive, rfl, rfl⟩
    refine except_bind_eq_ok.mpr ⟨_, hbase, except_bind_eq_ok.mpr ⟨_, hendpoint, ?_⟩⟩
    rw [if_neg hpositive]
    rfl

/-- The two addresses have been read alike up to `path`, and differ in what follows it. -/
structure Parted (raw : String) (scheme : Scheme) (a : Authority) (path : List Char)
    (base endpoint : Url) : Prop where
  base : base = ofParts scheme a (tail (path ++ List.replicate (endSlashes raw) '/'))
  endpoint : endpoint =
    ofParts scheme a (tail (path ++ (endBlanks raw.toList ++ authenticatePath.toList)))
  nonempty : endBlanks raw.toList ≠ [] -> path ≠ []
  root : forall c, c ∈ path.head? -> endsAuthority true c = true
  text : path ++ endBlanks raw.toList <:+ started (trimSlashes raw).toList

theorem exists_parted [International] (hbase : webUrl raw = .ok base)
    (hendpoint : webUrl (endpointText raw) = .ok endpoint) :
    exists (scheme : Scheme) (a : Authority) (path : List Char),
      Parted raw scheme a path base endpoint := by
  rw [webUrl_eq_ok_iff, Url.parse] at hbase hendpoint
  have hstart : (trimSlashes raw).toList.dropWhile isEdge ≠ [] := by
    intro hnil
    rw [toList_endpointText, clean_append_of_edges hnil] at hendpoint
    cases hendpoint
  rcases clean_texts hstart with ⟨stem, hclean, hstarted, hcleanEndpoint⟩
  rw [hclean] at hbase
  rw [hcleanEndpoint] at hendpoint
  rcases parseChars_eq_web_iff.mp hbase with ⟨scheme, a, _, hslashes, hparts⟩
  rcases hslashes.of_slashes with ⟨path, hreads, rfl⟩
  rcases parseChars_eq_web_iff.mp hendpoint with ⟨_, _, _, hwritten, hparts'⟩
  -- After an authority the blanks would keep the endpoint from being read.
  have hnonempty : endBlanks raw.toList ≠ [] -> path ≠ [] := by
    rintro hblanks rfl
    exact hreads.not_blanks hblanks (fun _ => isEdge_of_mem_endBlanks) rfl _ _ _ hwritten
  have hends : path ≠ [] ∨
      (splitTail true (endBlanks raw.toList ++ authenticatePath.toList)).1 = [] := by
    by_cases hblanks : endBlanks raw.toList = []
    · rw [hblanks]
      exact Or.inr rfl
    · exact Or.inl (hnonempty hblanks)
  rcases (hreads.append hends).unique hwritten with ⟨rfl, rfl, rfl⟩
  refine ⟨scheme, a, path, hparts, hparts', hnonempty, fun c => hreads.root, ?_⟩
  rw [hstarted]
  exact List.suffix_append_self_iff.mpr hreads.suffix

/-!
# Which part is continued
-/

theorem not_mem_append_slashes (raw : String) {path : List Char} {d : Char} (hd : d ≠ '/')
    (hpath : d ∉ path) : d ∉ path ++ List.replicate (endSlashes raw) '/' := by
  intro hmem
  rcases List.mem_append.mp hmem with hmem | hmem
  · exact hpath hmem
  · exact hd (List.eq_of_mem_replicate hmem)

theorem not_mem_append_written (raw : String) {path : List Char} {d : Char} (hd : isEdge d = false)
    (hwritten : d ∉ authenticatePath.toList) (hpath : d ∉ path) :
    d ∉ path ++ (endBlanks raw.toList ++ authenticatePath.toList) := by
  intro hmem
  rcases List.mem_append.mp hmem with hmem | hmem
  · exact hpath hmem
  rcases List.mem_append.mp hmem with hmem | hmem
  · rw [isEdge_of_mem_endBlanks hmem] at hd
    cases hd
  · exact hwritten hmem

theorem continues_append {set : CharSet} (stem : List Char)
    (hplain : forall c, c ∈ authenticatePath.toList -> set c = false) :
    Continues raw set (stem ++ encode set (List.replicate (endSlashes raw) '/'))
      (stem ++ encode set (endBlanks raw.toList ++ authenticatePath.toList)) := by
  have hslash : set '/' = false := hplain '/' (by decide)
  refine ⟨stem, ?_, ?_⟩
  · rw [encode_replicate hslash]
  · rw [encode_append, encode_eq_self hplain]

section

variable {scheme : Scheme} {a : Authority} {path : List Char}

theorem Parted.sameSite (hparted : Parted raw scheme a path base endpoint) :
    SameSite base endpoint := by
  rw [hparted.base, hparted.endpoint]
  exact ⟨rfl, rfl, rfl, rfl, rfl⟩

theorem Parted.continued_of_fragment (hparted : Parted raw scheme a path base endpoint)
    (hmem : '#' ∈ path) : Continued raw base endpoint := by
  rcases Option.isSome_iff_exists.mp (fragment_of_mem hmem) with ⟨stem, hstem⟩
  have hbase := tail_append_of_fragment hmem (List.replicate (endSlashes raw) '/')
  have hendpoint :=
    tail_append_of_fragment hmem (endBlanks raw.toList ++ authenticatePath.toList)
  rw [hstem, Option.map_some] at hbase hendpoint
  rw [hparted.base, hparted.endpoint, hbase, hendpoint]
  exact .fragment rfl rfl (continues_append stem (not_of_all_not (by decide))) rfl rfl

theorem Parted.continued_of_query (hparted : Parted raw scheme a path base endpoint)
    (hplain : '#' ∉ path) (hmem : '?' ∈ path) : Continued raw base endpoint := by
  rcases query_of_mem hplain hmem with ⟨hquery, hfragment⟩
  rcases Option.isSome_iff_exists.mp hquery with ⟨stem, hstem⟩
  have hbase := tail_append_of_query (not_mem_append_slashes raw (by decide) hplain) hmem
  have hendpoint :=
    tail_append_of_query (not_mem_append_written raw rfl (by decide) hplain) hmem
  rw [hstem, Option.map_some] at hbase hendpoint
  rw [hparted.base, hparted.endpoint, hbase, hendpoint]
  exact .query rfl rfl (continues_append stem (not_of_all_not (by decide))) rfl
    ⟨hfragment, hfragment⟩

theorem Parted.isSlash_root (hparted : Parted raw scheme a path base endpoint)
    (hplain : '#' ∉ path) (hquery : '?' ∉ path) : forall c, c ∈ path.head? -> isSlash c = true := by
  intro c hc
  have hmem := List.mem_of_mem_head? hc
  have hends := hparted.root c hc
  have hnone : c ≠ '?' ∧ c ≠ '#' := by
    constructor <;> rintro rfl
    · exact hquery hmem
    · exact hplain hmem
  unfold endsAuthority at hends
  rw [decide_eq_false hnone.left, decide_eq_false hnone.right, Bool.or_false, Bool.or_false,
    Bool.true_and] at hends
  exact hends

theorem Parted.of_path (hparted : Parted raw scheme a path base endpoint)
    (hplain : '#' ∉ path) (hquery : '?' ∉ path) :
    base.path = segments (path ++ List.replicate (endSlashes raw) '/') ∧
      endpoint.path = segments (path ++ (endBlanks raw.toList ++ authenticatePath.toList)) ∧
      (base.query = none ∧ endpoint.query = none) ∧
      (base.fragment = none ∧ endpoint.fragment = none) := by
  have hbase := tail_of_path (not_mem_append_slashes raw (by decide) hplain)
    (not_mem_append_slashes raw (by decide) hquery)
  have hendpoint := tail_of_path (not_mem_append_written raw rfl (by decide) hplain)
    (not_mem_append_written raw rfl (by decide) hquery)
  rw [hparted.base, hparted.endpoint, hbase, hendpoint]
  exact ⟨rfl, rfl, ⟨rfl, rfl⟩, rfl, rfl⟩

theorem Parted.plain (hparted : Parted raw scheme a path base endpoint)
    (hfragment : base.fragment = none) (hquery : base.query = none) : '#' ∉ path ∧ '?' ∉ path := by
  rw [hparted.base] at hfragment hquery
  have hplain : '#' ∉ path := fun hmem =>
    Option.isSome_iff_ne_none.mp (fragment_of_mem (List.mem_append_left _ hmem)) hfragment
  refine ⟨hplain, fun hmem => ?_⟩
  have hsome := query_of_mem (not_mem_append_slashes raw (by decide) hplain)
    (List.mem_append_left _ hmem)
  exact Option.isSome_iff_ne_none.mp hsome.left hquery

theorem segments_written {path : List Char} (hroot : forall c, c ∈ path.head? -> isSlash c = true) :
    segments (path ++ authenticatePath.toList) = parents path ++ ["authenticate".toList] :=
  segments_append_name hroot (not_of_all_not (by decide)) (by decide) (by decide)

theorem Parted.continuesPath (hparted : Parted raw scheme a path base endpoint)
    (hplain : '#' ∉ path) (hquery : '?' ∉ path) : ContinuesPath raw base.path endpoint.path := by
  rcases hparted.of_path hplain hquery with ⟨hbase, hendpoint, _⟩
  have hroot := hparted.isSlash_root hplain hquery
  rw [hbase, hendpoint]
  by_cases hblanks : endBlanks raw.toList = []
  · rcases exists_segments_append_slashes hroot (endSlashes raw) with
      ⟨m, hsegments, hslashes⟩
    rw [hblanks, List.nil_append, hsegments, segments_written hroot]
    exact .plain (parents path) m hblanks hslashes
  · rcases List.exists_cons_of_ne_nil (hparted.nonempty hblanks) with ⟨c, rest, rfl⟩
    rcases exists_before_last (hroot c rfl) rest with ⟨before, hbefore⟩
    have hedges : forall d, d ∈ endBlanks raw.toList -> isEdge d = true := fun _ =>
      isEdge_of_mem_endBlanks
    have hsegments := (hbefore [] (List.forall_mem_nil _)).right
    have hparents := (hbefore _ fun d hmem => isSlash_of_isEdge (hedges d hmem)).left
    have hlast := List.getLast_mem hblanks
    rcases isDot_of_isEdge (hedges _ hlast)
      (List.mem_append_right (lastPart isSlash rest) hlast) with ⟨hdouble, hdot⟩
    rw [descend_of_plain hdouble hdot, List.reverse_cons, List.reverse_reverse] at hparents
    rw [List.append_nil, List.append_nil] at hsegments
    rw [(endSlashes_eq_zero_or_endBlanks_eq_nil raw).resolve_right hblanks, List.replicate_zero,
      List.append_nil, hsegments, ← List.append_assoc, segments_written, hparents,
      List.append_assoc]
    · exact .blanks before _ hblanks
    · exact hroot

theorem Parted.continued (hparted : Parted raw scheme a path base endpoint) :
    Continued raw base endpoint := by
  by_cases hplain : '#' ∈ path
  · exact hparted.continued_of_fragment hplain
  · by_cases hquery : '?' ∈ path
    · exact hparted.continued_of_query hplain hquery
    · rcases hparted.of_path hplain hquery with ⟨_, _, hqueries, hfragments⟩
      exact .path (hparted.continuesPath hplain hquery) hqueries hfragments

end

/-!
# When only the path grows
-/

theorem Continues.ne {set : CharSet} {part grown : List Char}
    (hcontinues : Continues raw set part grown) : grown ≠ part := by
  rcases hcontinues with ⟨stem, rfl, rfl⟩
  intro heq
  have hletter : 'a' ∈ List.replicate (endSlashes raw) '/' := by
    rw [← List.append_cancel_left heq]
    exact List.mem_append_right _ (by decide)
  exact absurd (List.eq_of_mem_replicate hletter) (by decide)

theorem rdropWhile_append_slashes (cs : List Char) (k : Nat) :
    (cs ++ List.replicate k '/').rdropWhile (· = '/') = cs.rdropWhile (· = '/') := by
  unfold List.rdropWhile
  rw [List.reverse_append, List.reverse_replicate, List.dropWhile_append_of_pos]
  intro c hmem
  exact decide_eq_true (List.eq_of_mem_replicate hmem)

theorem rdropWhile_slash_eq_self_iff {cs : List Char} :
    cs.rdropWhile (· = '/') = cs <-> ¬['/'] <:+ cs := by
  rw [List.rdropWhile_eq_self_iff, List.singleton_suffix_iff_getLast?_eq_some]
  constructor
  · intro hlast hslash
    rcases List.getLast?_eq_some_iff.mp hslash with ⟨front, rfl⟩
    refine hlast (List.append_ne_nil_of_right_ne_nil _ (List.cons_ne_nil _ _)) ?_
    rw [List.getLast_append_singleton]
    rfl
  · intro hslash hne hlast
    refine hslash ?_
    rw [List.getLast?_eq_some_getLast hne]
    exact congrArg some (of_decide_eq_true hlast)

theorem pathText_append_name (kept : List (List Char)) :
    pathText (kept ++ ["authenticate".toList]) = pathText kept ++ authenticatePath.toList := by
  rw [pathText_append, pathText_singleton]
  rfl

theorem doubled_iff (kept : List (List Char)) :
    "//authenticate".toList <:+ pathText (kept ++ ["authenticate".toList]) <->
      ['/'] <:+ pathText kept := by
  have hdouble : "//authenticate".toList = ['/'] ++ authenticatePath.toList := rfl
  rw [pathText_append_name, hdouble, List.suffix_append_self_iff]

theorem pathText_blanks_ne (before : List (List Char)) (segment : List Char)
    (hblanks : endBlanks raw.toList ≠ []) :
    pathText (before ++ [encode CharSet.path (segment ++ endBlanks raw.toList),
        "authenticate".toList]) ≠
      (pathText (resolve before.reverse [segment])).rdropWhile (· = '/') ++
        authenticatePath.toList := by
  intro heq
  rw [List.append_cons, pathText_append_name] at heq
  have hlength := congrArg List.length (List.append_cancel_right heq)
  rw [pathText_append, pathText_singleton, encode_append, List.length_append, List.length_cons,
    List.length_append] at hlength
  have hprefix := List.rdropWhile_prefix (· = '/') (pathText (resolve before.reverse [segment]))
  have hle := hprefix.length_le
  have hbound := length_pathText_resolve_last before segment
  have hblank := List.length_pos_of_ne_nil (encode_ne_nil CharSet.path hblanks)
  omega

theorem ContinuesPath.grows_iff {path grown : List (List Char)}
    (hcontinues : ContinuesPath raw path grown) :
    pathText grown = (pathText path).rdropWhile (· = '/') ++ authenticatePath.toList <->
      endBlanks raw.toList = [] ∧ ¬"//authenticate".toList <:+ pathText grown := by
  cases hcontinues with
  | plain kept m hblanks _ =>
      rw [doubled_iff, pathText_append_name, pathText_append, pathText_replicate,
        rdropWhile_append_slashes, List.append_cancel_right_eq, eq_comm,
        rdropWhile_slash_eq_self_iff]
      exact ⟨fun hslash => ⟨hblanks, hslash⟩, And.right⟩
  | blanks before segment hblanks =>
      constructor
      · intro heq
        exact absurd heq (pathText_blanks_ne before segment hblanks)
      · rintro ⟨hnone, _⟩
        exact absurd hnone hblanks

theorem onlyPathGrows_iff (hsite : SameSite base endpoint)
    (hcontinued : Continued raw base endpoint) :
    OnlyPathGrows base endpoint <->
      base.fragment = none ∧ base.query = none ∧ endBlanks raw.toList = [] ∧
        ¬"//authenticate".toList <:+ endpoint.pathChars := by
  cases hcontinued with
  | fragment hbase hendpoint hgrown hpath hquery =>
      constructor
      · intro honly
        have hsame := honly.fragment
        rw [hbase, hendpoint, Option.some.injEq] at hsame
        exact absurd hsame hgrown.ne
      · rintro ⟨hnone, _⟩
        rw [hbase] at hnone
        cases hnone
  | query hbase hendpoint hgrown hpath hfragment =>
      constructor
      · intro honly
        have hsame := honly.query
        rw [hbase, hendpoint, Option.some.injEq] at hsame
        exact absurd hsame hgrown.ne
      · rintro ⟨_, hnone, _⟩
        rw [hbase] at hnone
        cases hnone
  | path hgrown hquery hfragment =>
      constructor
      · intro honly
        exact ⟨hfragment.left, hquery.left, hgrown.grows_iff.mp honly.path⟩
      · rintro ⟨_, _, hends⟩
        exact ⟨hsite, hquery.right.trans hquery.left.symm,
          hfragment.right.trans hfragment.left.symm, hgrown.grows_iff.mpr hends⟩

/-!
# Texts that end in a segment
-/

def lastSegment (raw : String) : List Char :=
  lastPart isSlash (started (trimSlashes raw).toList)

/-- The text of a base address ends in the name of a segment, or of the server. -/
structure EndsInSegment (raw : String) : Prop where
  solid : endBlanks raw.toList = []
  nonempty : lastSegment raw ≠ []
  notDouble : isDoubleDot (lastSegment raw) = false
  notDot : isDot (lastSegment raw) = false

theorem Parted.not_doubled {scheme : Scheme} {a : Authority} {path : List Char}
    (hparted : Parted raw scheme a path base endpoint) (hplain : '#' ∉ path)
    (hquery : '?' ∉ path) (hends : EndsInSegment raw) :
    ¬"//authenticate".toList <:+ endpoint.pathChars := by
  have hroot := hparted.isSlash_root hplain hquery
  have hendpoint : endpoint.pathChars = pathText (parents path ++ ["authenticate".toList]) := by
    change pathText endpoint.path = _
    rw [(hparted.of_path hplain hquery).right.left, hends.solid, List.nil_append,
      segments_written hroot]
  rw [hendpoint, doubled_iff]
  intro hslash
  cases path with
  | nil => exact List.cons_ne_nil _ _ (List.suffix_nil.mp hslash)
  | cons c rest =>
      have hlast : lastSegment raw = lastPart isSlash rest := by
        rcases hparted.text with ⟨front, htext⟩
        rw [hends.solid, List.append_nil] at htext
        unfold lastSegment
        rw [← htext]
        exact lastPart_append_cons (hroot c rfl) front rest
      have hne := hends.nonempty
      have hnotDouble := hends.notDouble
      have hnotDot := hends.notDot
      rw [hlast] at hne hnotDouble hnotDot
      rcases exists_before_last (hroot c rfl) rest with ⟨before, hbefore⟩
      have hparents := (hbefore [] (List.forall_mem_nil _)).left
      rw [List.append_nil, List.append_nil, descend_of_plain hnotDouble hnotDot,
        List.reverse_cons, List.reverse_reverse] at hparents
      rw [hparents, pathText_append, pathText_singleton,
        List.singleton_suffix_iff_getLast?_eq_some, List.append_cons,
        List.getLast?_append_of_ne_nil _ (encode_ne_nil CharSet.path hne)] at hslash
      refine slash_not_mem_encode (fun hmem => ?_) (List.mem_of_getLast? hslash)
      cases not_of_mem_lastPart hmem

/-- The endpoint of a provider is at the site of its base address, and the path is written after the
last part that the base address has.  Only the path grows, then, where this part is the path and
neither blanks nor an empty segment end it; the name of a segment at the end of the text is enough
for that. -/
theorem endpoint_continues_base [International] (raw : String) (parameters : Json.Object)
    (timeout : Option Nat) (provider : Provider)
    (hbuild : build (some raw) parameters timeout = .ok provider) :
    SameSite provider.base provider.endpoint ∧
      Continued raw provider.base provider.endpoint ∧
      (OnlyPathGrows provider.base provider.endpoint <->
        provider.base.fragment = none ∧ provider.base.query = none ∧
          endBlanks raw.toList = [] ∧
          ¬"//authenticate".toList <:+ provider.endpoint.pathChars) ∧
      (provider.base.fragment = none -> provider.base.query = none -> EndsInSegment raw ->
        OnlyPathGrows provider.base provider.endpoint) := by
  rcases build_eq_ok_iff.mp hbuild with ⟨hbase, hendpoint, _⟩
  rcases exists_parted hbase hendpoint with ⟨scheme, a, path, hparted⟩
  have hexact := onlyPathGrows_iff hparted.sameSite hparted.continued
  refine ⟨hparted.sameSite, hparted.continued, hexact, fun hfragment hquery hends => ?_⟩
  rcases hparted.plain hfragment hquery with ⟨hplain, hquestion⟩
  exact hexact.mpr ⟨hfragment, hquery, hends.solid, hparted.not_doubled hplain hquestion hends⟩

/-!
Base addresses with a version at the end of their path, of which one has an international name, and
base addresses that end in something else.
-/

attribute [local instance] Url.International.bookshop

def idpLocal (path : List String) (query fragment : Option String) : Url where
  scheme := .http
  user := []
  password := []
  host := .name "idp.local".toList
  port := none
  path := path.map String.toList
  query := query.map String.toList
  fragment := fragment.map String.toList

def idpAbroad (path : List String) : Url :=
  { idpLocal path none none with host := .name "xn--bcher-kva.example".toList }

theorem endpoint_continues_base_versioned :
    build (some "http://idp.local/v1/") .empty none =
        .ok ⟨idpLocal ["v1", ""] none none, idpLocal ["v1", "authenticate"] none none, .empty,
          none⟩ ∧
      EndsInSegment "http://idp.local/v1/" ∧
      OnlyPathGrows (idpLocal ["v1", ""] none none)
        (idpLocal ["v1", "authenticate"] none none) ∧
      build (some "http://bücher.example/v1") .empty none =
        .ok ⟨idpAbroad ["v1"], idpAbroad ["v1", "authenticate"], .empty, none⟩ ∧
      EndsInSegment "http://bücher.example/v1" ∧
      OnlyPathGrows (idpAbroad ["v1"]) (idpAbroad ["v1", "authenticate"]) := by
  have hbuild : build (some "http://idp.local/v1/") .empty none =
      .ok ⟨idpLocal ["v1", ""] none none, idpLocal ["v1", "authenticate"] none none, .empty,
        none⟩ :=
    build_eq_ok_iff.mpr ⟨by decide +kernel, by decide +kernel, by decide, rfl, rfl⟩
  have hends : EndsInSegment "http://idp.local/v1/" :=
    ⟨by decide +kernel, by decide +kernel, by decide +kernel, by decide +kernel⟩
  have habroad : build (some "http://bücher.example/v1") .empty none =
      .ok ⟨idpAbroad ["v1"], idpAbroad ["v1", "authenticate"], .empty, none⟩ :=
    build_eq_ok_iff.mpr ⟨by decide +kernel, by decide +kernel, by decide, rfl, rfl⟩
  have hends' : EndsInSegment "http://bücher.example/v1" :=
    ⟨by decide +kernel, by decide +kernel, by decide +kernel, by decide +kernel⟩
  exact ⟨hbuild, hends,
    (endpoint_continues_base _ _ _ _ hbuild).right.right.right rfl rfl hends, habroad, hends',
    (endpoint_continues_base _ _ _ _ habroad).right.right.right rfl rfl hends'⟩

/-- A query, a fragment, a blank or a backslash at the end keeps the path from growing alone. -/
theorem endpoint_not_onlyPathGrows :
    build (some "http://idp.local/v1?tenant=a") .empty none =
        .ok ⟨idpLocal ["v1"] (some "tenant=a") none,
          idpLocal ["v1"] (some "tenant=a/authenticate") none, .empty, none⟩ ∧
      ¬OnlyPathGrows (idpLocal ["v1"] (some "tenant=a") none)
        (idpLocal ["v1"] (some "tenant=a/authenticate") none) ∧
      build (some "http://idp.local/v1#top") .empty none =
        .ok ⟨idpLocal ["v1"] none (some "top"),
          idpLocal ["v1"] none (some "top/authenticate"), .empty, none⟩ ∧
      ¬OnlyPathGrows (idpLocal ["v1"] none (some "top"))
        (idpLocal ["v1"] none (some "top/authenticate")) ∧
      build (some "http://idp.local/v1 ") .empty none =
        .ok ⟨idpLocal ["v1"] none none,
          idpLocal ["v1%20", "authenticate"] none none, .empty, none⟩ ∧
      ¬OnlyPathGrows (idpLocal ["v1"] none none)
        (idpLocal ["v1%20", "authenticate"] none none) ∧
      build (some "http://idp.local/v1\\") .empty none =
        .ok ⟨idpLocal ["v1", ""] none none,
          idpLocal ["v1", "", "authenticate"] none none, .empty, none⟩ ∧
      ¬OnlyPathGrows (idpLocal ["v1", ""] none none)
        (idpLocal ["v1", "", "authenticate"] none none) := by
  refine ⟨build_eq_ok_iff.mpr ⟨by decide +kernel, by decide +kernel, by decide, rfl, rfl⟩, ?_,
    build_eq_ok_iff.mpr ⟨by decide +kernel, by decide +kernel, by decide, rfl, rfl⟩, ?_,
    build_eq_ok_iff.mpr ⟨by decide +kernel, by decide +kernel, by decide, rfl, rfl⟩, ?_,
    build_eq_ok_iff.mpr ⟨by decide +kernel, by decide +kernel, by decide, rfl, rfl⟩, ?_⟩
  · exact fun honly => absurd honly.query (by decide +kernel)
  · exact fun honly => absurd honly.fragment (by decide +kernel)
  · exact fun honly => absurd honly.path (by decide +kernel)
  · exact fun honly => absurd honly.path (by decide +kernel)

end Provider
end Gatekeeper
