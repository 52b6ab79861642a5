import Gatekeeper.Login.Exchange
import Gatekeeper.Proofs.Text.Base64
import Gatekeeper.Proofs.Text.Mending
import Gatekeeper.Token.Bearer
import Mathlib.Data.List.DropRight
import Mathlib.Data.List.Forall2

/-!
# How requests present tokens

The first authorization header of a request presents a token if its value is the
scheme in any case, one space and the token, with blanks around each of the two.
A value that is the scheme alone, or that has a byte which is not visible, is
malformed; any other presents nothing.
-/

namespace Gatekeeper
namespace Bearer

/-!
# The grammar
-/

def IsBlank (b : UInt8) : Prop :=
  b = 0x20 ∨ b = 0x09

def Blank (bytes : List UInt8) : Prop :=
  forall b, b ∈ bytes -> IsBlank b

def Visible (bytes : List UInt8) : Prop :=
  forall b, b ∈ bytes -> b = 0x09 ∨ (0x20 ≤ b ∧ b ≤ 0x7E)

structure Bare (bytes : List UInt8) : Prop where
  first : exists b rest, bytes = b :: rest ∧ ¬IsBlank b
  last : exists front b, bytes = front ++ [b] ∧ ¬IsBlank b

def SpellsScheme (word : List UInt8) : Prop :=
  List.Forall₂ (fun b c => b = Ascii.byte c ∨ b = Ascii.byte c.toUpper) word scheme

/-- A value that presents a token. -/
structure Presents (value token : List UInt8) : Prop where
  visible : Visible value
  bare : Bare token
  form : exists lead word gap trail, Blank lead ∧ SpellsScheme word ∧ Blank gap ∧ Blank trail ∧
    value = lead ++ (word ++ 0x20 :: (gap ++ token)) ++ trail

/-- A value that has the scheme and nothing else. -/
structure SchemeAlone (value : List UInt8) : Prop where
  visible : Visible value
  form : exists lead word trail, Blank lead ∧ SpellsScheme word ∧ Blank trail ∧
    value = lead ++ word ++ trail

/-- The value of the first authorization header; its name may have any case. -/
def FirstValue (headers : Headers) (value : List UInt8) : Prop :=
  exists before name after, headers = before ++ (name, value) :: after ∧
    Ascii.lowerText name = "authorization" ∧
    forall header, header ∈ before -> Ascii.lowerText header.1 ≠ "authorization"

/-!
# Bytes as characters
-/

def asChar (b : UInt8) : Char :=
  Char.ofNat b.toNat

@[simp] theorem toNat_asChar (b : UInt8) : (asChar b).toNat = b.toNat := by
  have hvalid : b.toNat.isValidChar := Or.inl (Nat.lt_trans b.toNat_lt (by decide))
  unfold asChar
  rw [Char.ofNat, dif_pos hvalid]
  rfl

theorem asChar_eq_iff {b : UInt8} {c : Char} (hascii : c.toNat < 0x80) :
    asChar b = c <-> b = Ascii.byte c := by
  rw [← Char.toNat_inj, toNat_asChar, ← UInt8.toNat_inj, Utf8.toNat_ofNat_of_lt (by omega)]

theorem isWhite_asChar (b : UInt8) : isWhite (asChar b) = Response.isBlank b := by
  unfold isWhite Response.isBlank
  rw [decide_eq_decide.mpr (asChar_eq_iff (c := ' ') (by decide)),
    decide_eq_decide.mpr (asChar_eq_iff (c := '\t') (by decide))]
  rfl

theorem isBlank_iff {b : UInt8} : Response.isBlank b = true <-> IsBlank b := by
  simp only [Response.isBlank, IsBlank, Bool.or_eq_true, decide_eq_true_eq]

theorem space_mem_iff {bytes : List UInt8} : ' ' ∈ bytes.map asChar <-> 0x20 ∈ bytes := by
  have hspace : forall b, asChar b = ' ' <-> b = 0x20 := fun b => asChar_eq_iff (by decide)
  simp only [List.mem_map, hspace, exists_eq_right]

theorem trim_asChar (bytes : List UInt8) :
    trim (bytes.map asChar) = (Response.trim bytes).map asChar := by
  have hwhite : isWhite ∘ asChar = Response.isBlank := funext isWhite_asChar
  unfold trim Response.trim
  simp only [List.dropWhile_map, ← List.map_reverse, hwhite]

theorem le_iff_toNat_le {c d : Char} : c ≤ d <-> c.toNat ≤ d.toNat := by
  rw [Char.le_def, UInt32.le_iff_toNat_le]
  rfl

theorem toNat_toUpper {c : Char} (hletter : 97 ≤ c.toNat ∧ c.toNat ≤ 122) :
    c.toUpper.toNat = c.toNat - 32 := by
  have hrange : 'a'.val ≤ c.val ∧ c.val ≤ 'z'.val := by
    rw [UInt32.le_iff_toNat_le, UInt32.le_iff_toNat_le]
    exact hletter
  have hshift : ('A'.val - 'a'.val).toNat = 0x100000000 - 32 := by decide
  unfold Char.toUpper
  rw [dif_pos hrange]
  show (c.val + ('A'.val - 'a'.val)).toNat = c.val.toNat - 32
  rw [UInt32.toNat_add, hshift]
  change 97 ≤ c.val.toNat ∧ c.val.toNat ≤ 122 at hletter
  omega

theorem lower_asChar_iff {b : UInt8} {c : Char} (hletter : 'a' ≤ c ∧ c ≤ 'z') :
    Ascii.lower (asChar b) = c <-> b = Ascii.byte c ∨ b = Ascii.byte c.toUpper := by
  have hrange : 97 ≤ c.toNat ∧ c.toNat ≤ 122 :=
    ⟨le_iff_toNat_le.mp hletter.left, le_iff_toNat_le.mp hletter.right⟩
  have hsmall : b = Ascii.byte c <-> b.toNat = c.toNat := by
    rw [← UInt8.toNat_inj, Utf8.toNat_ofNat_of_lt (by omega)]
  have hcapital : b = Ascii.byte c.toUpper <-> b.toNat = c.toNat - 32 := by
    have hupper := toNat_toUpper hrange
    rw [← UInt8.toNat_inj, Utf8.toNat_ofNat_of_lt (by omega), hupper]
  rw [hsmall, hcapital, ← Char.toNat_inj]
  unfold Ascii.lower
  by_cases hupper : 'A' ≤ asChar b ∧ asChar b ≤ 'Z'
  · have hbounds : 65 ≤ b.toNat ∧ b.toNat ≤ 90 := by
      rw [le_iff_toNat_le, le_iff_toNat_le, toNat_asChar] at hupper
      exact hupper
    rw [if_pos hupper, toNat_asChar, Base64.toNat_ofNat_of_ascii (by omega)]
    omega
  · have hbounds : ¬(65 ≤ b.toNat ∧ b.toNat ≤ 90) := by
      rw [le_iff_toNat_le, le_iff_toNat_le, toNat_asChar] at hupper
      exact hupper
    rw [if_neg hupper, toNat_asChar]
    omega

theorem isScheme_asChar_iff {word : List UInt8} :
    isScheme (word.map asChar) = true <-> SpellsScheme word := by
  have hletters : forall cs : List Char, (forall c, c ∈ cs -> 'a' ≤ c ∧ c ≤ 'z') ->
      forall word : List UInt8, (word.map asChar).map Ascii.lower = cs <->
        List.Forall₂ (fun b c => b = Ascii.byte c ∨ b = Ascii.byte c.toUpper) word cs := by
    intro cs hcs
    induction cs with
    | nil =>
        intro word
        rw [List.map_map, List.map_eq_nil_iff, List.forall₂_nil_right_iff]
    | cons c cs ih =>
        intro word
        cases word with
        | nil => simp
        | cons b word =>
            rw [List.map_cons, List.map_cons, List.cons.injEq, List.forall₂_cons,
              lower_asChar_iff (hcs c List.mem_cons_self),
              ih (fun other hmem => hcs other (List.mem_cons_of_mem c hmem)) word]
  unfold isScheme
  rw [decide_eq_true_iff]
  have hscheme : scheme.all (fun c => decide ('a' ≤ c ∧ c ≤ 'z')) = true := by decide
  exact hletters scheme (fun c hmem => of_decide_eq_true (List.all_eq_true.mp hscheme c hmem)) word

/-!
# Blanks around a text
-/

section Edges

variable {α : Type} {p : α -> Bool} {xs rest : List α}

theorem forall_of_edges_eq_nil (hnil : (xs.dropWhile p).rdropWhile p = []) :
    forall x, x ∈ xs -> p x = true := by
  have hall := List.rdropWhile_eq_nil_iff.mp hnil
  have hhead := List.head?_dropWhile_not p xs
  cases hdrop : xs.dropWhile p with
  | nil => exact List.dropWhile_eq_nil_iff.mp hdrop
  | cons x more =>
      rw [hdrop] at hall hhead
      have hx := hall x List.mem_cons_self
      rw [List.head?_cons] at hhead
      rw [show p x = false from hhead] at hx
      cases hx

theorem exists_of_rdropWhile_eq {front : List α} {x : α} (hx : p x = true)
    (htrim : xs.rdropWhile p = front ++ x :: rest) : ¬forall y, y ∈ rest -> p y = true := by
  intro hall
  have hsome : xs.rdropWhile p ≠ [] := by
    rw [htrim]
    exact List.append_ne_nil_of_right_ne_nil _ (List.cons_ne_nil _ _)
  have hlast := List.rdropWhile_last_not p xs hsome
  simp only [htrim, List.getLast_append_of_ne_nil _ (List.cons_ne_nil x rest)] at hlast
  rcases List.mem_cons.mp (List.getLast_mem (List.cons_ne_nil x rest)) with hself | hrest
  · rw [hself] at hlast
    exact hlast hx
  · exact hlast (hall _ hrest)

end Edges

theorem trim_ne_nil_of_space {text word rest : List Char}
    (htrim : trim text = word ++ ' ' :: rest) : trim rest ≠ [] := by
  intro hnil
  exact exists_of_rdropWhile_eq (p := isWhite) rfl htrim (forall_of_edges_eq_nil hnil)

theorem trim_eq_rdropWhile (bytes : List UInt8) :
    Response.trim bytes = (bytes.dropWhile Response.isBlank).rdropWhile Response.isBlank := rfl

theorem exists_eq_trim (bytes : List UInt8) :
    exists lead trail, Blank lead ∧ Blank trail ∧ bytes = lead ++ Response.trim bytes ++ trail := by
  refine ⟨bytes.takeWhile Response.isBlank,
    (bytes.dropWhile Response.isBlank).rtakeWhile Response.isBlank, ?_, ?_, ?_⟩
  · intro b hmem
    exact isBlank_iff.mp (List.mem_takeWhile_imp hmem)
  · intro b hmem
    exact isBlank_iff.mp (List.mem_rtakeWhile_imp hmem)
  · rw [trim_eq_rdropWhile, List.append_assoc, List.rdropWhile_append_rtakeWhile,
      List.takeWhile_append_dropWhile]

theorem trim_of_bare {lead core trail : List UInt8} (hlead : Blank lead) (htrail : Blank trail)
    (hbare : Bare core) : Response.trim (lead ++ core ++ trail) = core := by
  have hfront : (lead ++ core ++ trail).dropWhile Response.isBlank = core ++ trail := by
    rcases hbare.first with ⟨b, rest, hcore, hb⟩
    rw [List.append_assoc,
      List.dropWhile_append_of_pos fun b hmem => isBlank_iff.mpr (hlead b hmem), hcore,
      List.cons_append, List.dropWhile_cons_of_neg fun h => hb (isBlank_iff.mp h)]
  rcases hbare.last with ⟨front, b, hcore, hb⟩
  have hback : forall b, b ∈ trail.reverse -> Response.isBlank b = true :=
    fun b hmem => isBlank_iff.mpr (htrail b (List.mem_reverse.mp hmem))
  unfold Response.trim
  rw [hfront, List.reverse_append, List.dropWhile_append_of_pos hback, hcore, List.reverse_concat,
    List.dropWhile_cons_of_neg fun h => hb (isBlank_iff.mp h), List.reverse_cons,
    List.reverse_reverse]

theorem bare_trim {bytes : List UInt8} (hsome : Response.trim bytes ≠ []) :
    Bare (Response.trim bytes) := by
  constructor
  · cases htrim : Response.trim bytes with
    | nil => exact absurd htrim hsome
    | cons b rest =>
        refine ⟨b, rest, rfl, fun hblank => ?_⟩
        have hprefix : b :: rest <+: bytes.dropWhile Response.isBlank := by
          rw [← htrim, trim_eq_rdropWhile]
          exact List.rdropWhile_prefix _ _
        rcases hprefix with ⟨more, hmore⟩
        have hhead := List.head?_dropWhile_not Response.isBlank bytes
        rw [← hmore, List.cons_append, List.head?_cons] at hhead
        exact absurd (isBlank_iff.mpr hblank) (Bool.not_eq_true _ ▸ hhead)
  · refine ⟨_, _, (List.dropLast_append_getLast hsome).symm, fun hblank => ?_⟩
    exact List.rdropWhile_last_not _ _ hsome (isBlank_iff.mpr hblank)

/-!
# Reading a text
-/

theorem ofText_of_space {text word rest : List Char} (htrim : trim text = word ++ ' ' :: rest)
    (hword : ' ' ∉ word) :
    ofText text =
      if !isScheme word then .error .noToken
      else if trim rest = [] then .error .emptyToken
      else .ok ⟨String.ofList (trim rest)⟩ := by
  have hplain : forall c, c ∈ word -> decide (c ≠ ' ') = true :=
    fun c hmem => decide_eq_true fun hc => hword (hc ▸ hmem)
  unfold ofText
  simp only [htrim, List.takeWhile_append_of_pos hplain, List.dropWhile_append_of_pos hplain,
    List.takeWhile_cons_of_neg, List.dropWhile_cons_of_neg, ne_eq, not_true_eq_false, decide_false,
    Bool.false_eq_true, not_false_eq_true, List.append_nil]

theorem ofText_of_no_space {text : List Char} (hplain : ' ' ∉ trim text) :
    ofText text = if isScheme (trim text) then .error .emptyToken else .error .noToken := by
  have hdrop : (trim text).dropWhile (fun c => decide (c ≠ ' ')) = [] := by
    rw [List.dropWhile_eq_nil_iff]
    intro c hmem
    exact decide_eq_true fun hc => hplain (hc ▸ hmem)
  unfold ofText
  simp only [hdrop]

/-!
# Reading a value
-/

section Values

variable {value token word : List UInt8}

theorem text?_of_visible (hvisible : Visible value) :
    HeaderValue.text? value = some (value.map asChar) := by
  have hall : value.all Ascii.isVisible = true := by
    rw [List.all_eq_true]
    intro b hmem
    simpa [Ascii.isVisible] using hvisible b hmem
  unfold HeaderValue.text?
  rw [if_pos hall]
  rfl

theorem text?_of_not_visible (hhidden : ¬Visible value) : HeaderValue.text? value = none := by
  have hnot : ¬value.all Ascii.isVisible = true := by
    intro hall
    refine hhidden fun b hmem => ?_
    simpa [Ascii.isVisible] using List.all_eq_true.mp hall b hmem
  unfold HeaderValue.text?
  rw [if_neg hnot]

theorem not_isBlank_of_spellsScheme (hword : SpellsScheme word) :
    forall b, b ∈ word -> ¬IsBlank b := by
  have hscheme : (word.map asChar).map Ascii.lower = scheme :=
    of_decide_eq_true (isScheme_asChar_iff.mpr hword)
  intro b hmem hblank
  have hletter : Ascii.lower (asChar b) ∈ scheme := by
    rw [← hscheme]
    exact List.mem_map_of_mem (List.mem_map_of_mem hmem)
  rcases hblank with rfl | rfl
  · exact absurd hletter (by decide)
  · exact absurd hletter (by decide)

theorem bare_of_spellsScheme (hword : SpellsScheme word) : Bare word := by
  have hne : word ≠ [] := by
    rintro rfl
    cases hword
  have hblank := not_isBlank_of_spellsScheme hword
  constructor
  · exact ⟨_, _, (List.cons_head_tail hne).symm, hblank _ (List.head_mem hne)⟩
  · exact ⟨_, _, (List.dropLast_append_getLast hne).symm, hblank _ (List.getLast_mem hne)⟩

theorem space_not_mem (hword : SpellsScheme word) : ' ' ∉ word.map asChar := by
  rw [space_mem_iff]
  intro hspace
  exact not_isBlank_of_spellsScheme hword _ hspace (Or.inl rfl)

theorem ofValue_of_presents (hpresents : Presents value token) :
    ofValue value = .ok ⟨Base64.asText token⟩ := by
  rcases hpresents.form with ⟨lead, word, gap, trail, hlead, hword, hgap, htrail, hvalue⟩
  have hcore : Bare (word ++ 0x20 :: (gap ++ token)) := by
    rcases (bare_of_spellsScheme hword).first with ⟨b, rest, rfl, hb⟩
    rcases hpresents.bare.last with ⟨front, c, rfl, hc⟩
    refine ⟨⟨b, _, rfl, hb⟩, ⟨b :: rest ++ 0x20 :: (gap ++ front), c, ?_, hc⟩⟩
    simp only [List.append_assoc, List.cons_append]
  have htrim : trim (value.map asChar) =
      word.map asChar ++ ' ' :: (gap ++ token).map asChar := by
    rw [trim_asChar, hvalue, trim_of_bare hlead htrail hcore, List.map_append, List.map_cons]
    rfl
  have htoken : trim ((gap ++ token).map asChar) = token.map asChar := by
    have hempty : Blank [] := fun b hmem => nomatch hmem
    have hinner := trim_of_bare hgap hempty hpresents.bare
    rw [List.append_nil] at hinner
    rw [trim_asChar, hinner]
  have hsome : ¬token.map asChar = [] := by
    rcases hpresents.bare.first with ⟨b, rest, rfl, _⟩
    exact List.cons_ne_nil _ _
  unfold ofValue
  rw [text?_of_visible hpresents.visible]
  simp only
  rw [ofText_of_space htrim (space_not_mem hword), isScheme_asChar_iff.mpr hword, htoken,
    if_neg (by decide), if_neg hsome]
  rfl

theorem ofValue_of_schemeAlone (halone : SchemeAlone value) :
    ofValue value = .error .emptyToken := by
  rcases halone.form with ⟨lead, word, trail, hlead, hword, htrail, hvalue⟩
  have htrim : trim (value.map asChar) = word.map asChar := by
    rw [trim_asChar, hvalue, trim_of_bare hlead htrail (bare_of_spellsScheme hword)]
  have hplain : ' ' ∉ trim (value.map asChar) := by
    rw [htrim]
    exact space_not_mem hword
  unfold ofValue
  rw [text?_of_visible halone.visible]
  simp only
  rw [ofText_of_no_space hplain, htrim, isScheme_asChar_iff.mpr hword, if_pos rfl]

theorem ofValue_of_not_visible (hhidden : ¬Visible value) :
    ofValue value = .error .notVisible := by
  unfold ofValue
  rw [text?_of_not_visible hhidden]

theorem presents_or_schemeAlone_or (hvisible : Visible value) :
    (exists token, Presents value token) ∨ SchemeAlone value ∨
      ofValue value = .error .noToken := by
  rcases exists_eq_trim value with ⟨lead, trail, hlead, htrail, hvalue⟩
  have hread : ofValue value = ofText (value.map asChar) := by
    unfold ofValue
    rw [text?_of_visible hvisible]
  by_cases hspace : (0x20 : UInt8) ∈ Response.trim value
  · rcases List.eq_append_cons_of_mem hspace with ⟨word, rest, htrim, hplain⟩
    have hchars : trim (value.map asChar) = word.map asChar ++ ' ' :: rest.map asChar := by
      rw [trim_asChar, htrim, List.map_append, List.map_cons]
      rfl
    by_cases hword : SpellsScheme word
    · have hsome : Response.trim rest ≠ [] := by
        have hchars := trim_ne_nil_of_space hchars
        rw [trim_asChar] at hchars
        exact fun hnil => hchars (by rw [hnil, List.map_nil])
      refine Or.inl ⟨Response.trim rest, hvisible, bare_trim hsome, ?_⟩
      rcases exists_eq_trim rest with ⟨gap, after, hgap, hafter, hrest⟩
      refine ⟨lead, word, gap, after ++ trail, hlead, hword, hgap, ?_, ?_⟩
      · intro b hmem
        exact (List.mem_append.mp hmem).elim (hafter b) (htrail b)
      · rw [htrim] at hvalue
        calc value = lead ++ (word ++ 0x20 :: rest) ++ trail := hvalue
          _ = lead ++ (word ++ 0x20 :: (gap ++ Response.trim rest ++ after)) ++ trail := by
            rw [← hrest]
          _ = _ := by simp only [List.append_assoc, List.cons_append]
    · have hno : ' ' ∉ word.map asChar := fun hmem => hplain (space_mem_iff.mp hmem)
      have hnot : isScheme (word.map asChar) = false :=
        Bool.eq_false_iff.mpr fun h => hword (isScheme_asChar_iff.mp h)
      refine Or.inr (Or.inr ?_)
      rw [hread, ofText_of_space hchars hno, hnot]
      rfl
  · by_cases hword : SpellsScheme (Response.trim value)
    · exact Or.inr (Or.inl ⟨hvisible, lead, _, trail, hlead, hword, htrail, hvalue⟩)
    · have hplain : ' ' ∉ trim (value.map asChar) := by
        rw [trim_asChar]
        exact fun hmem => hspace (space_mem_iff.mp hmem)
      have hnot : isScheme (trim (value.map asChar)) = false := by
        rw [trim_asChar]
        exact Bool.eq_false_iff.mpr fun h => hword (isScheme_asChar_iff.mp h)
      refine Or.inr (Or.inr ?_)
      rw [hread, ofText_of_no_space hplain, hnot]
      rfl

theorem encode_asText (hpresents : Presents value token) :
    Utf8.encode (Base64.asText token) = token := by
  refine Base64.encodeChars_asText fun b hmem => ?_
  rcases hpresents.form with ⟨lead, word, gap, trail, _, _, _, _, hvalue⟩
  have hb : b ∈ value := by
    rw [hvalue]
    simp only [List.mem_append, List.mem_cons, hmem, or_true, true_or]
  rcases hpresents.visible b hb with rfl | ⟨_, hhigh⟩
  · decide
  · exact Nat.lt_of_le_of_lt (UInt8.le_iff_toNat_le.mp hhigh) (by decide)

theorem visible_of_spellsScheme (hword : SpellsScheme word) : Visible word := by
  have hletters : forall cs : List Char,
      (forall c, c ∈ cs -> Visible [Ascii.byte c, Ascii.byte c.toUpper]) ->
      forall word : List UInt8,
        List.Forall₂ (fun b c => b = Ascii.byte c ∨ b = Ascii.byte c.toUpper) word cs ->
          Visible word := by
    intro cs hcs word hword b hmem
    rcases List.mem_iff_getElem.mp hmem with ⟨i, hi, rfl⟩
    have hcount := hword.length_eq
    have hletter := hcs cs[i] (List.getElem_mem (hcount ▸ hi))
    refine hletter _ ?_
    simpa using (List.forall₂_iff_get.mp hword).right i hi (hcount ▸ hi)
  have hscheme : scheme.all (fun c => [Ascii.byte c, Ascii.byte c.toUpper].all fun b =>
      decide (b = 0x09 ∨ (0x20 ≤ b ∧ b ≤ 0x7E))) = true := by decide
  refine hletters scheme (fun c hmem b hb => ?_) word hword
  exact of_decide_eq_true (List.all_eq_true.mp (List.all_eq_true.mp hscheme c hmem) b hb)

theorem visible_of_blank {blanks : List UInt8} (hblanks : Blank blanks) : Visible blanks := by
  intro b hmem
  rcases hblanks b hmem with rfl | rfl
  · exact Or.inr (by decide)
  · exact Or.inl rfl

theorem visible_append {one other : List UInt8} (hone : Visible one) (hother : Visible other) :
    Visible (one ++ other) :=
  fun b hmem => (List.mem_append.mp hmem).elim (hone b) (hother b)

end Values

/-!
# Reading the headers of a request
-/

section Requests

variable {headers : Headers} {value other : List UInt8}

theorem first?_eq_some_iff :
    headers.first? headerName = some value <-> FirstValue headers value := by
  unfold Headers.first? FirstValue
  rw [Option.map_eq_some_iff]
  constructor
  · rintro ⟨⟨name, found⟩, hfind, rfl⟩
    rcases List.find?_eq_some_iff_append.mp hfind with ⟨hname, before, after, hsplit, hbefore⟩
    refine ⟨before, name, after, hsplit, of_decide_eq_true hname, fun header hmem hsame => ?_⟩
    have hnot := hbefore header hmem
    have hname : Ascii.lowerText header.1 = Ascii.lowerText headerName := hsame
    rw [decide_eq_true hname] at hnot
    cases hnot
  · rintro ⟨before, name, after, hsplit, hname, hbefore⟩
    refine ⟨(name, value), List.find?_eq_some_iff_append.mpr ⟨decide_eq_true hname, before, after,
      hsplit, fun header hmem => ?_⟩, rfl⟩
    rw [Bool.not_eq_true', decide_eq_false_iff_not]
    exact hbefore header hmem

theorem FirstValue.unique (hvalue : FirstValue headers value) (hother : FirstValue headers other) :
    value = other := by
  have hfirst := first?_eq_some_iff.mpr hvalue
  rw [first?_eq_some_iff.mpr hother] at hfirst
  exact (Option.some.inj hfirst).symm

theorem read_of_firstValue (hvalue : FirstValue headers value) : read headers = ofValue value := by
  unfold read
  rw [first?_eq_some_iff.mpr hvalue]

theorem read_of_no_value (hnone : forall value, ¬FirstValue headers value) :
    read headers = .error .noToken := by
  have hfirst : headers.first? headerName = none := by
    cases hfirst : headers.first? headerName with
    | none => rfl
    | some value => exact absurd (first?_eq_some_iff.mp hfirst) (hnone value)
  unfold read
  rw [hfirst]

/-- What a request can present, and what is read from it. -/
inductive Reads (headers : Headers) : Except ReadFault BearerToken -> Prop
  | token {value token : List UInt8} (hvalue : FirstValue headers value)
      (hpresents : Presents value token) : Reads headers (.ok ⟨Base64.asText token⟩)
  | hidden {value : List UInt8} (hvalue : FirstValue headers value) (hhidden : ¬Visible value) :
      Reads headers (.error .notVisible)
  | empty {value : List UInt8} (hvalue : FirstValue headers value) (halone : SchemeAlone value) :
      Reads headers (.error .emptyToken)
  | nothing (hnone : forall value, FirstValue headers value ->
      Visible value ∧ ¬SchemeAlone value ∧ forall token, ¬Presents value token) :
      Reads headers (.error .noToken)

theorem reads (headers : Headers) : Reads headers (read headers) := by
  by_cases hsome : exists value, FirstValue headers value
  · rcases hsome with ⟨value, hvalue⟩
    rw [read_of_firstValue hvalue]
    by_cases hvisible : Visible value
    · rcases presents_or_schemeAlone_or hvisible with ⟨token, hpresents⟩ | halone | hnothing
      · rw [ofValue_of_presents hpresents]
        exact Reads.token hvalue hpresents
      · rw [ofValue_of_schemeAlone halone]
        exact Reads.empty hvalue halone
      · rw [hnothing]
        refine Reads.nothing fun other hother => ?_
        rw [hother.unique hvalue]
        refine ⟨hvisible, fun halone => ?_, fun token hpresents => ?_⟩
        · rw [ofValue_of_schemeAlone halone] at hnothing
          cases hnothing
        · rw [ofValue_of_presents hpresents] at hnothing
          cases hnothing
    · rw [ofValue_of_not_visible hvisible]
      exact Reads.hidden hvalue hvisible
  · have hnone : forall value, ¬FirstValue headers value := not_exists.mp hsome
    rw [read_of_no_value hnone]
    exact Reads.nothing fun value hvalue => absurd hvalue (hnone value)

theorem read_eq_ok_iff {token : BearerToken} :
    read headers = .ok token <->
      exists value, FirstValue headers value ∧ Presents value (Utf8.encode token.value) := by
  constructor
  · intro hread
    have hreads := reads headers
    rw [hread] at hreads
    cases hreads with
    | token hvalue hpresents =>
        refine ⟨_, hvalue, ?_⟩
        rw [encode_asText hpresents]
        exact hpresents
  · rintro ⟨value, hvalue, hpresents⟩
    rw [read_of_firstValue hvalue, ofValue_of_presents hpresents,
      Utf8.encode_injective (encode_asText hpresents)]

theorem read_eq_malformed_iff {reason : String} :
    read headers = .error (.malformed reason) <-> exists value, FirstValue headers value ∧
      ((¬Visible value ∧ reason = "header is not visible ASCII") ∨
        (SchemeAlone value ∧ reason = "bearer token is empty")) := by
  constructor
  · intro hread
    have hreads := reads headers
    rw [hread] at hreads
    generalize hresult : Except.error (ReadFault.malformed reason) = result at hreads
    cases hreads with
    | token => cases hresult
    | @hidden value hvalue hhidden =>
        cases hresult
        exact ⟨value, hvalue, Or.inl ⟨hhidden, rfl⟩⟩
    | @empty value hvalue halone =>
        cases hresult
        exact ⟨value, hvalue, Or.inr ⟨halone, rfl⟩⟩
    | nothing => cases hresult
  · rintro ⟨value, hvalue, ⟨hhidden, rfl⟩ | ⟨halone, rfl⟩⟩
    · rw [read_of_firstValue hvalue, ofValue_of_not_visible hhidden]
      rfl
    · rw [read_of_firstValue hvalue, ofValue_of_schemeAlone halone]
      rfl

theorem read_eq_noToken_iff :
    read headers = .error .noToken <-> forall value, FirstValue headers value ->
      Visible value ∧ ¬SchemeAlone value ∧ forall token, ¬Presents value token := by
  constructor
  · intro hread
    have hreads := reads headers
    rw [hread] at hreads
    generalize hresult : Except.error ReadFault.noToken = result at hreads
    cases hreads with
    | token => cases hresult
    | hidden => cases hresult
    | empty => cases hresult
    | nothing hnone => exact hnone
  · intro hnone
    have hreads := reads headers
    generalize hresult : read headers = result at hreads
    cases hreads with
    | token hvalue hpresents => exact absurd hpresents ((hnone _ hvalue).right.right _)
    | hidden hvalue hhidden => exact absurd (hnone _ hvalue).left hhidden
    | empty hvalue halone => exact absurd halone (hnone _ hvalue).right.left
    | nothing => rfl

/-- A request is read by the grammar of its first authorization header: a token is read back as it
was presented, in any case of the scheme and between any blanks, and where there is a space there is
something after it. -/
theorem read_by_grammar :
    (forall headers : Headers,
      (forall token : BearerToken, read headers = .ok token <->
        exists value, FirstValue headers value ∧ Presents value (Utf8.encode token.value)) ∧
      (forall reason, read headers = .error (.malformed reason) <->
        exists value, FirstValue headers value ∧
          ((¬Visible value ∧ reason = "header is not visible ASCII") ∨
            (SchemeAlone value ∧ reason = "bearer token is empty"))) ∧
      (read headers = .error .noToken <-> forall value, FirstValue headers value ->
        Visible value ∧ ¬SchemeAlone value ∧ forall token, ¬Presents value token) ∧
      (forall cause, read headers ≠ .error (.backend cause)) ∧
      (forall (token : String) (lead word gap trail : List UInt8),
        Visible (Utf8.encode token) -> Bare (Utf8.encode token) -> SpellsScheme word ->
        Blank lead -> Blank gap -> Blank trail ->
        FirstValue headers (lead ++ (word ++ 0x20 :: (gap ++ Utf8.encode token)) ++ trail) ->
        read headers = .ok ⟨token⟩)) ∧
    forall (text : List Char) (c : Char) (rest : List Char),
      (trim text).dropWhile (fun c => decide (c ≠ ' ')) = c :: rest -> trim rest ≠ [] := by
  refine ⟨fun headers => ⟨fun token => read_eq_ok_iff, fun reason => read_eq_malformed_iff,
    read_eq_noToken_iff, ?_, ?_⟩, ?_⟩
  · intro cause hread
    have hreads := reads headers
    rw [hread] at hreads
    generalize hresult : Except.error (ReadFault.backend cause) = result at hreads
    cases hreads <;> cases hresult
  · intro token lead word gap trail hvisible hbare hword hlead hgap htrail hvalue
    refine read_eq_ok_iff.mpr ⟨_, hvalue, ?_, hbare, lead, word, gap, trail, hlead, hword, hgap,
      htrail, rfl⟩
    have hspace : Visible [0x20] :=
      visible_of_blank fun b hmem => Or.inl (List.mem_singleton.mp hmem)
    exact visible_append (visible_append (visible_of_blank hlead)
      (visible_append (visible_of_spellsScheme hword) (visible_append hspace
        (visible_append (visible_of_blank hgap) hvisible)))) (visible_of_blank htrail)
  · intro text c rest hdrop
    have hsplit := List.takeWhile_append_dropWhile (p := fun c => decide (c ≠ ' ')) (l := trim text)
    have hc := List.head?_dropWhile_not (fun c => decide (c ≠ ' ')) (trim text)
    rw [hdrop, List.head?_cons] at hc
    simp only [ne_eq, decide_not, Bool.not_eq_eq_eq_not, Bool.not_false, decide_eq_true_eq] at hc
    rw [hdrop, hc] at hsplit
    exact trim_ne_nil_of_space hsplit.symm

theorem read_mixed_case :
    read [("accept", []), ("Authorization",
      [0x20] ++ (Utf8.encode "bEaReR" ++ 0x20 :: ([0x09] ++ Utf8.encode "a b")) ++ [0x09])] =
        .ok ⟨"a b"⟩ ∧
      read [] = .error .noToken ∧
      read [("authorization", Utf8.encode " BEARER\t")] = .error .emptyToken := by
  have hgrammar := read_by_grammar
  have hspace : Blank [0x20] := fun b hmem => Or.inl (List.mem_singleton.mp hmem)
  have htab : Blank [0x09] := fun b hmem => Or.inr (List.mem_singleton.mp hmem)
  refine ⟨((hgrammar.left _).right.right.right.right) "a b" [0x20] (Utf8.encode "bEaReR") [0x09]
    [0x09] ?_ ?_ ?_ hspace htab htab ?_, ?_, ?_⟩
  · unfold Visible
    decide +kernel
  · exact ⟨⟨0x61, [0x20, 0x62], by decide +kernel, by unfold IsBlank; decide⟩,
      ⟨[0x61, 0x20], 0x62, by decide +kernel, by unfold IsBlank; decide⟩⟩
  · exact isScheme_asChar_iff.mp (by decide +kernel)
  · refine ⟨[("accept", [])], "Authorization", [], rfl, by decide +kernel, ?_⟩
    decide +kernel
  · refine (hgrammar.left []).right.right.left.mpr ?_
    rintro value ⟨before, name, after, hsplit, _⟩
    exact absurd hsplit.symm (List.append_ne_nil_of_right_ne_nil before (List.cons_ne_nil _ _))
  · refine ((hgrammar.left _).right.left _).mpr ⟨_, first?_eq_some_iff.mp rfl,
      Or.inr ⟨⟨?_, [0x20], Utf8.encode "BEARER", [0x09], hspace, ?_, htab, ?_⟩, rfl⟩⟩
    · unfold Visible
      decide +kernel
    · exact isScheme_asChar_iff.mp (by decide +kernel)
    · decide +kernel

end Requests

end Bearer
end Gatekeeper
