import Gatekeeper.Proofs.Json.Grammar

/-!
# What is passed over is a value

Passing over succeeds exactly where a value of the grammar stands, and takes that
value and the blanks before it.
-/

namespace Gatekeeper
namespace Json

open Reader Skip

namespace Reader

variable {input rest : List UInt8}

/-!
# Blanks and marks
-/

theorem exists_blanks (input : List UInt8) :
    exists blanks, Blanks blanks ∧ input = blanks ++ unblanked input :=
  ⟨input.takeWhile Ascii.isBlank, fun _ hmem => isBlank_iff.mp (List.mem_takeWhile_imp hmem),
    List.takeWhile_append_dropWhile.symm⟩

theorem unblanked_append {blanks : List UInt8} (hblanks : Blanks blanks) (rest : List UInt8) :
    unblanked (blanks ++ rest) = unblanked rest :=
  List.dropWhile_append_of_pos fun b hmem => isBlank_iff.mpr (hblanks b hmem)

theorem unblanked_append_cons {blanks : List UInt8} (hblanks : Blanks blanks) {b : UInt8}
    (hsolid : Ascii.isBlank b = false) (rest : List UInt8) :
    unblanked (blanks ++ b :: rest) = b :: rest := by
  rw [unblanked_append hblanks, unblanked_cons hsolid]

theorem mark_eq_ok_iff {step : Option UInt8 → Reader Unit} {mark : UInt8}
    (hmark : step (some mark) = advance 1)
    (hend : forall input rest, step none input ≠ .ok () rest)
    (hother : forall b, b ≠ mark -> forall input rest, step (some b) input ≠ .ok () rest) :
    (next >>= step) input = .ok () rest <-> unblanked input = mark :: rest := by
  rw [next_bind]
  cases hinput : unblanked input with
  | nil => exact ⟨fun h => absurd h (hend _ _), fun h => nomatch h⟩
  | cons b tail =>
      rw [List.head?_cons]
      by_cases hb : b = mark
      · rw [hb, hmark, advance_cons]
        constructor
        · intro h
          cases h
          rfl
        · intro h
          rw [(List.cons.inj h).right]
      · constructor
        · intro h
          exact absurd h (hother b hb _ _)
        · intro h
          exact absurd (List.cons.inj h).left hb

theorem colon_eq_ok_iff : colon input = .ok () rest <-> unblanked input = 0x3A :: rest := by
  refine mark_eq_ok_iff rfl (fun _ _ h => nomatch h) fun b hb input rest h => ?_
  simp only [if_neg hb] at h
  cases h

theorem closeObject_eq_ok_iff :
    closeObject input = .ok () rest <-> unblanked input = 0x7D :: rest := by
  refine mark_eq_ok_iff rfl (fun _ _ h => nomatch h) fun b hb input rest h => ?_
  simp only [if_neg hb] at h
  split at h <;> cases h

theorem closeList_eq_ok_iff : closeList input = .ok () rest <-> unblanked input = 0x5D :: rest := by
  refine mark_eq_ok_iff rfl (fun _ _ h => nomatch h) fun b hb input rest h => ?_
  simp only [if_neg hb] at h
  split at h
  · rcases bind_eq_ok.mp h with ⟨_, middle, _, h⟩
    rcases bind_eq_ok.mp h with ⟨found, last, _, h⟩
    split at h <;> cases h
  · cases h

theorem word_eq_ok_iff {letters : List UInt8} :
    word letters input = .ok () rest <-> input = letters ++ rest := by
  induction letters generalizing input with
  | nil =>
      constructor
      · intro h
        cases h
        rfl
      · rintro rfl
        rfl
  | cons expected letters ih =>
      unfold word
      cases input with
      | nil =>
          constructor <;>
            · intro h
              cases h
      | cons b tail =>
          simp only [List.cons_append, List.cons.injEq]
          by_cases hb : b = expected
          · rw [if_pos hb, ih]
            exact ⟨fun h => ⟨hb, h⟩, fun h => h.right⟩
          · rw [if_neg hb]
            constructor
            · intro h
              cases h
            · intro h
              exact absurd h.left hb

end Reader

/-!
# Values are passed over
-/

theorem IsNumeral.exists_digit {text : List UInt8} (htext : IsNumeral text) :
    exists d more, text = d :: more ∧ Ascii.isDigit d = true := by
  rcases htext.form with ⟨whole, fraction, exponent, hwhole, _, _, rfl⟩
  cases hwhole with
  | zero => exact ⟨0x30, _, rfl, rfl⟩
  | digits _ hdigits => exact ⟨_, _, rfl, hdigits _ List.mem_cons_self⟩

theorem IsValue.exists_first {v : List UInt8} (hv : IsValue v) :
    exists b more, v = b :: more ∧ Ascii.isBlank b = false ∧ b ≠ 0x5D := by
  have hdigit : forall b, Ascii.isDigit b = true -> Ascii.isBlank b = false ∧ b ≠ 0x5D := by
    intro b hdigit
    refine ⟨(not_isBlank_of_isDigit hdigit).left, ?_⟩
    rintro rfl
    cases hdigit
  cases hv with
  | wordNull => exact ⟨_, _, rfl, rfl, by decide⟩
  | wordTrue => exact ⟨_, _, rfl, rfl, by decide⟩
  | wordFalse => exact ⟨_, _, rfl, rfl, by decide⟩
  | number htext =>
      rcases htext.exists_digit with ⟨d, more, rfl, hd⟩
      exact ⟨d, more, rfl, hdigit d hd⟩
  | negative htext => exact ⟨_, _, rfl, rfl, by decide⟩
  | string htext => exact ⟨_, _, rfl, rfl, by decide⟩
  | @container frame items gap => cases frame <;> exact ⟨_, _, rfl, rfl, by decide⟩

theorem IsValue.unblanked_eq {v : List UInt8} (hv : IsValue v) (rest : List UInt8) :
    unblanked (v ++ rest) = v ++ rest := by
  rcases hv.exists_first with ⟨b, more, rfl, hsolid, _⟩
  exact unblanked_cons hsolid _

namespace Skip

variable {input rest : List UInt8}

theorem opening_of_digit {b : UInt8} {tail : List UInt8} (hinput : unblanked input = b :: tail)
    (hdigit : Ascii.isDigit b = true) :
    opening input = (do Numeral.skip; pure none : Reader (Option Frame)) (b :: tail) := by
  have hne : forall c : UInt8, Ascii.isDigit c = false -> ¬b = c := by
    intro c hc hb
    rw [hb, hc] at hdigit
    cases hdigit
  unfold opening
  rw [next_bind, hinput]
  simp only [List.head?_cons]
  rw [if_neg (hne 0x6E rfl), if_neg (hne 0x74 rfl), if_neg (hne 0x66 rfl), if_neg (hne 0x2D rfl),
    if_pos hdigit]

theorem opening_of_minus {tail : List UInt8} (hinput : unblanked input = 0x2D :: tail) :
    opening input = (do Numeral.skip; pure none : Reader (Option Frame)) tail := by
  unfold opening
  rw [next_bind, hinput]
  rfl

theorem opening_of_quote {tail : List UInt8} (hinput : unblanked input = 0x22 :: tail) :
    opening input = (do skipString; pure none : Reader (Option Frame)) tail := by
  unfold opening
  rw [next_bind, hinput]
  rfl

theorem entry_unblanked (input : List UInt8) :
    entry .object (unblanked input) = entry .object input := by
  unfold entry
  simp only
  rw [next_bind, next_bind, unblanked_unblanked]

theorem entry_object_eq_ok_iff :
    entry .object input = .ok () rest <-> exists quoted middle, unblanked input = 0x22 :: quoted ∧
      skipString quoted = .ok () middle ∧ unblanked middle = 0x3A :: rest := by
  unfold entry
  simp only
  rw [next_bind]
  cases hinput : unblanked input with
  | nil =>
      constructor
      · intro h
        cases h
      · rintro ⟨quoted, middle, h, _⟩
        cases h
  | cons b tail =>
      simp only [List.head?_cons]
      by_cases hb : b = 0x22
      · rw [if_pos hb, advance_bind, bind_eq_ok]
        constructor
        · rintro ⟨_, middle, hskip, hcolon⟩
          exact ⟨tail, middle, by rw [hb], hskip, colon_eq_ok_iff.mp hcolon⟩
        · rintro ⟨quoted, middle, hquoted, hskip, hcolon⟩
          cases hquoted
          exact ⟨(), middle, hskip, colon_eq_ok_iff.mpr hcolon⟩
      · rw [if_neg hb]
        constructor
        · intro h
          cases h
        · rintro ⟨quoted, middle, h, _⟩
          exact absurd (List.cons.inj h).left hb

theorem entry_of_front {frame : Frame} {front : List UInt8} (hfront : Front frame front) :
    exists blanks, Blanks blanks ∧ blanks.length ≤ front.length ∧
      forall rest, entry frame (front ++ rest) = .ok () (blanks ++ rest) := by
  cases hfront with
  | list hgap => exact ⟨front, hgap, Nat.le_refl _, fun rest => rfl⟩
  | @object lead name mid gap hlead hname hmid hgap =>
      refine ⟨gap, hgap, ?_, fun rest => ?_⟩
      · simp only [List.length_append, List.length_cons]
        omega
      · refine entry_object_eq_ok_iff.mpr ⟨name ++ 0x22 :: (mid ++ 0x3A :: (gap ++ rest)),
          mid ++ 0x3A :: (gap ++ rest), ?_, skipString_of_quotable hname _,
          unblanked_append_cons hmid rfl _⟩
        simp only [List.append_assoc, List.cons_append]
        exact unblanked_append_cons hlead rfl _

theorem ended_following (frame : Frame) {trail gap : List UInt8} (htrail : Blanks trail)
    (hgap : Blanks gap) (texts : List (List UInt8)) (rest : List UInt8) :
    Ended (trail ++ (following texts ++ (gap ++ frame.closer :: rest))) := by
  refine ended_append htrail ?_
  cases texts with
  | nil =>
      show Ended (gap ++ frame.closer :: rest)
      refine ended_append hgap (ended_cons ?_ rest)
      cases frame <;> exact ⟨rfl, by decide, rfl⟩
  | cons text texts => exact ended_cons ⟨rfl, by decide, rfl⟩ _

/-- A value is passed over, whatever blanks are before it and whatever ends it. -/
def Passing (v : List UInt8) : Prop :=
  forall blanks rest, Blanks blanks -> Ended rest -> Passes (blanks ++ (v ++ rest)) rest

theorem isBlank_closer (frame : Frame) : Ascii.isBlank frame.closer = false := by
  cases frame <;> rfl

theorem text_append (item : Item) (rest : List UInt8) :
    item.text ++ rest = item.front ++ (item.value ++ (item.trail ++ rest)) := by
  simp only [Item.text, List.append_assoc]

theorem following_cons (item : Item) (items : List Item) (rest : List UInt8) :
    following ((item :: items).map Item.text) ++ rest =
      0x2C :: (item.front ++ (item.value ++ (item.trail ++
        (following (items.map Item.text) ++ rest)))) := by
  rw [List.map_cons, following, List.flatMap_cons, List.append_assoc, List.cons_append, text_append]
  rfl

theorem passesWithin_following {frame : Frame} {items : List Item} {gap : List UInt8}
    (hfronts : forall item, item ∈ items -> Front frame item.front)
    (htrails : forall item, item ∈ items -> Blanks item.trail) (hgap : Blanks gap)
    (hvalues : forall item, item ∈ items -> Passing item.value) {trail : List UInt8}
    (htrail : Blanks trail) (rest : List UInt8) :
    PassesWithin false frame
      (trail ++ (following (items.map Item.text) ++ (gap ++ frame.closer :: rest))) rest := by
  induction items generalizing trail with
  | nil =>
      apply passesWithin_closed
      rw [unblanked_append htrail]
      exact unblanked_append_cons hgap (isBlank_closer frame) rest
  | cons item items ih =>
      rcases List.forall_mem_cons.mp hfronts with ⟨hfront, hfronts⟩
      rcases List.forall_mem_cons.mp htrails with ⟨hend, htrails⟩
      rcases List.forall_mem_cons.mp hvalues with ⟨hvalue, hvalues⟩
      rcases entry_of_front hfront with ⟨blanks, hblanks, hlength, hentry⟩
      have hafter := ih hfronts htrails hvalues hend
      have hpasses := hvalue blanks _ hblanks
        (ended_following frame hend hgap (items.map Item.text) rest)
      rw [following_cons]
      refine hpasses.before hafter ?_ fun bound frames => ?_
      · simp only [List.length_append, List.length_cons]
        omega
      · exact settle_of_entry (unwind_comma (unblanked_append_cons htrail rfl _) frames)
          (hentry _) _

theorem entry_of_first {frame : Frame} {front v : List UInt8} (hfront : Front frame front)
    (hv : IsValue v) (rest : List UInt8) :
    exists blanks b tail, Blanks blanks ∧ unblanked (front ++ (v ++ rest)) = b :: tail ∧
      b ≠ frame.closer ∧ blanks.length ≤ front.length ∧
        entry frame (b :: tail) = .ok () (blanks ++ (v ++ rest)) := by
  cases hfront with
  | list hgap =>
      rcases hv.exists_first with ⟨b, more, rfl, hsolid, hclose⟩
      exact ⟨[], b, more ++ rest, blanks_nil, unblanked_append_cons hgap hsolid _, hclose,
        Nat.zero_le _, rfl⟩
  | @object lead name mid gap hlead hname hmid hgap =>
      rcases entry_of_front (Front.object hlead hname hmid hgap) with
        ⟨blanks, hblanks, hlength, hentry⟩
      have hfirst := unblanked_append_cons hlead (b := 0x22) rfl
        (name ++ 0x22 :: (mid ++ 0x3A :: (gap ++ (v ++ rest))))
      refine ⟨blanks, 0x22, name ++ 0x22 :: (mid ++ 0x3A :: (gap ++ (v ++ rest))), hblanks, ?_,
        by decide, hlength, ?_⟩
      · simpa only [List.append_assoc, List.cons_append] using hfirst
      · rw [← hfirst, entry_unblanked, ← hentry]
        simp only [List.append_assoc, List.cons_append]

theorem separated_cons (item : Item) (items : List Item) (rest : List UInt8) :
    separated ((item :: items).map Item.text) ++ rest =
      item.front ++ (item.value ++ (item.trail ++ (following (items.map Item.text) ++ rest))) := by
  rw [List.map_cons, separated, List.append_assoc, text_append]

theorem passesWithin_separated {frame : Frame} {items : List Item} {gap : List UInt8}
    (hfronts : forall item, item ∈ items -> Front frame item.front)
    (htrails : forall item, item ∈ items -> Blanks item.trail) (hgap : Blanks gap)
    (hforms : forall item, item ∈ items -> IsValue item.value)
    (hvalues : forall item, item ∈ items -> Passing item.value) (rest : List UInt8) :
    PassesWithin true frame
      (separated (items.map Item.text) ++ (gap ++ frame.closer :: rest)) rest := by
  cases items with
  | nil => exact passesWithin_closed _ (unblanked_append_cons hgap (isBlank_closer frame) rest)
  | cons item items =>
      rcases List.forall_mem_cons.mp hfronts with ⟨hfront, hfronts⟩
      rcases List.forall_mem_cons.mp htrails with ⟨hend, htrails⟩
      rcases List.forall_mem_cons.mp hvalues with ⟨hvalue, hvalues⟩
      have hafter := passesWithin_following hfronts htrails hgap hvalues hend rest
      rw [separated_cons]
      rcases entry_of_first hfront (hforms item List.mem_cons_self) (item.trail ++
        (following (items.map Item.text) ++ (gap ++ frame.closer :: rest))) with
        ⟨blanks, b, tail, hblanks, hfirst, hopen, hlength, hentry⟩
      have hpasses := hvalue blanks _ hblanks
        (ended_following frame hend hgap (items.map Item.text) rest)
      refine hpasses.before hafter ?_ fun bound frames => ?_
      · simp only [List.length_append]
        omega
      · exact settle_of_entry (unwind_first hfirst hopen frames) hentry _

theorem opening_of_opener {frame : Frame} {tail : List UInt8}
    (hinput : unblanked input = opener frame :: tail) : opening input = .ok (some frame) tail := by
  cases frame with
  | list => exact opening_of_container hinput (Or.inl ⟨rfl, rfl⟩)
  | object => exact opening_of_container hinput (Or.inr ⟨rfl, rfl⟩)

theorem passing_of_isValue {v : List UInt8} (hv : IsValue v) : Passing v := by
  have hshort : forall (blanks : List UInt8) {v : List UInt8} (rest : List UInt8), IsValue v ->
      rest.length < (blanks ++ (v ++ rest)).length := by
    intro blanks v rest hv
    rcases hv.exists_first with ⟨b, more, rfl, _⟩
    simp only [List.length_append, List.length_cons]
    omega
  induction hv with
  | wordNull =>
      intro blanks rest hblanks _
      refine passes_of_scalar ?_ (hshort blanks rest .wordNull)
      unfold opening
      rw [next_bind, unblanked_append hblanks]
      rfl
  | wordTrue =>
      intro blanks rest hblanks _
      refine passes_of_scalar ?_ (hshort blanks rest .wordTrue)
      unfold opening
      rw [next_bind, unblanked_append hblanks]
      rfl
  | wordFalse =>
      intro blanks rest hblanks _
      refine passes_of_scalar ?_ (hshort blanks rest .wordFalse)
      unfold opening
      rw [next_bind, unblanked_append hblanks]
      rfl
  | number htext =>
      intro blanks rest hblanks hended
      refine passes_of_scalar ?_ (hshort blanks rest (.number htext))
      have hskip := Numeral.skip_of_isNumeral htext hended
      rcases htext.exists_digit with ⟨d, more, rfl, hdigit⟩
      have hfirst := unblanked_append_cons hblanks (not_isBlank_of_isDigit hdigit).left
        (more ++ rest)
      rw [List.cons_append, opening_of_digit hfirst hdigit]
      exact bind_of_ok hskip _
  | negative htext =>
      intro blanks rest hblanks hended
      refine passes_of_scalar ?_ (hshort blanks rest (.negative htext))
      rw [List.cons_append, opening_of_minus (unblanked_append_cons hblanks rfl _)]
      exact bind_of_ok (Numeral.skip_of_isNumeral htext hended) _
  | @string text htext =>
      intro blanks rest hblanks _
      refine passes_of_scalar ?_ (hshort blanks rest (.string htext))
      have hskip := skipString_of_quotable htext rest
      rw [List.cons_append, opening_of_quote (unblanked_append_cons hblanks rfl _),
        List.append_assoc]
      exact bind_of_ok hskip _
  | @container frame items gap hfronts htrails hgap hforms ih =>
      intro blanks rest hblanks _
      have hsolid : Ascii.isBlank (opener frame) = false := by cases frame <;> rfl
      have hwithin := passesWithin_separated hfronts htrails hgap hforms ih rest
      have htext : containerText frame items gap ++ rest = opener frame ::
          (separated (items.map Item.text) ++ (gap ++ frame.closer :: rest)) := by
        simp only [containerText, List.cons_append, List.append_assoc, List.nil_append]
      rw [htext]
      refine passes_of_container (opening_of_opener (unblanked_append_cons hblanks hsolid _)) ?_
        hwithin
      simp only [List.length_append, List.length_cons]
      omega

/-!
# What is passed over

A round that succeeds has taken a value; what is settled after it has taken what was
left of the containers.
-/

/-- A value stands at the front, after blanks, and is passed over. -/
structure Extent (input rest : List UInt8) : Prop where
  passes : Passes input rest
  value : exists blanks v, Blanks blanks ∧ IsValue v ∧ input = blanks ++ (v ++ rest)

structure WellPlaced (frame : Frame) (item : Item) : Prop where
  front : Front frame item.front
  value : IsValue item.value
  trail : Blanks item.trail

structure Within (fresh : Bool) (frame : Frame) (input rest : List UInt8) : Prop where
  passes : PassesWithin fresh frame input rest
  items : exists (trail : List UInt8) (items : List Item) (gap : List UInt8),
    Blanks trail ∧ Blanks gap ∧
    (forall item, item ∈ items -> WellPlaced frame item) ∧
      input = if fresh then separated (items.map Item.text) ++ (gap ++ frame.closer :: rest)
        else trail ++ (following (items.map Item.text) ++ (gap ++ frame.closer :: rest))

theorem front_append {frame : Frame} {blanks front : List UInt8} (hblanks : Blanks blanks)
    (hfront : Front frame front) : Front frame (blanks ++ front) := by
  cases hfront with
  | list hgap => exact Front.list (blanks_append hblanks hgap)
  | object hlead hname hmid hgap =>
      rw [← List.append_assoc]
      exact Front.object (blanks_append hblanks hlead) hname hmid hgap

theorem front_of_entry {frame : Frame} {entered : List UInt8}
    (hentry : entry frame input = .ok () entered) {blanks : List UInt8} (hblanks : Blanks blanks)
    (hentered : entered = blanks ++ rest) :
    exists front, Front frame front ∧ input = front ++ rest := by
  cases frame with
  | list =>
      cases hentry
      exact ⟨blanks, Front.list hblanks, hentered⟩
  | object =>
      rcases entry_object_eq_ok_iff.mp hentry with ⟨quoted, middle, hquoted, hskip, hmiddle⟩
      rcases exists_quotable hskip with ⟨name, hname, rfl⟩
      rcases exists_blanks input with ⟨lead, hlead, hinput⟩
      rcases exists_blanks middle with ⟨mid, hmid, hbefore⟩
      refine ⟨_, Front.object hlead hname hmid hblanks, ?_⟩
      rw [hinput, hquoted, hbefore, hmiddle, hentered]
      simp only [List.append_assoc, List.cons_append]

theorem length_le_of_entry {frame : Frame} (hentry : entry frame input = .ok () rest) :
    rest.length ≤ input.length := by
  rcases front_of_entry hentry blanks_nil rfl with ⟨front, _, rfl⟩
  rw [List.length_append]
  exact Nat.le_add_left _ _

theorem opening_eq_ok {found : Option Frame} (hopening : opening input = .ok found rest) :
    (found = none ∧ exists blanks v, Blanks blanks ∧ IsValue v ∧ input = blanks ++ (v ++ rest)) ∨
      exists frame, found = some frame ∧ unblanked input = opener frame :: rest := by
  rcases exists_blanks input with ⟨blanks, hblanks, hinput⟩
  have hscalar : forall {reader : Reader Unit} {tail : List UInt8},
      (reader >>= fun _ => pure (none : Option Frame)) tail = .ok found rest ->
        reader tail = .ok () rest ∧ found = none := by
    intro reader tail h
    rcases bind_eq_ok.mp h with ⟨_, middle, hread, hnone⟩
    cases hnone
    exact ⟨hread, rfl⟩
  have hvalue : forall {v : List UInt8}, IsValue v -> unblanked input = v ++ rest -> found = none ->
      found = none ∧ exists blanks v, Blanks blanks ∧ IsValue v ∧ input = blanks ++ (v ++ rest) :=
    fun hv hafter hfound => ⟨hfound, blanks, _, hblanks, hv, by rw [← hafter]; exact hinput⟩
  unfold opening at hopening
  rw [next_bind] at hopening
  cases htail : unblanked input with
  | nil =>
      rw [htail] at hopening
      cases hopening
  | cons b tail =>
      rw [htail] at hvalue
      simp only [htail, List.head?_cons] at hopening
      have hletters : forall {letters : List UInt8}, IsValue (b :: letters) ->
          (word letters >>= fun _ => pure (none : Option Frame)) tail = .ok found rest ->
            found = none ∧
              exists blanks v, Blanks blanks ∧ IsValue v ∧ input = blanks ++ (v ++ rest) := by
        intro letters hv hread
        rcases hscalar hread with ⟨hword, hfound⟩
        rw [word_eq_ok_iff.mp hword] at hvalue
        exact hvalue hv rfl hfound
      by_cases hnull : b = 0x6E
      · rw [if_pos hnull, advance_bind] at hopening
        exact Or.inl (hletters (hnull ▸ .wordNull) hopening)
      rw [if_neg hnull] at hopening
      by_cases htrue : b = 0x74
      · rw [if_pos htrue, advance_bind] at hopening
        exact Or.inl (hletters (htrue ▸ .wordTrue) hopening)
      rw [if_neg htrue] at hopening
      by_cases hfalse : b = 0x66
      · rw [if_pos hfalse, advance_bind] at hopening
        exact Or.inl (hletters (hfalse ▸ .wordFalse) hopening)
      rw [if_neg hfalse] at hopening
      by_cases hminus : b = 0x2D
      · rw [if_pos hminus, advance_bind] at hopening
        rcases hscalar hopening with ⟨hskip, hfound⟩
        rcases Numeral.exists_isNumeral hskip with ⟨text, htext, rfl⟩
        rw [hminus] at hvalue
        exact Or.inl (hvalue (.negative htext) rfl hfound)
      rw [if_neg hminus] at hopening
      by_cases hdigit : Ascii.isDigit b = true
      · rw [if_pos hdigit] at hopening
        rcases hscalar hopening with ⟨hskip, hfound⟩
        rcases Numeral.exists_isNumeral hskip with ⟨text, htext, hsplit⟩
        exact Or.inl (hvalue (.number htext) hsplit hfound)
      rw [if_neg hdigit] at hopening
      by_cases hquote : b = 0x22
      · rw [if_pos hquote, advance_bind] at hopening
        rcases hscalar hopening with ⟨hskip, hfound⟩
        rcases exists_quotable hskip with ⟨text, htext, rfl⟩
        rw [hquote] at hvalue
        refine Or.inl (hvalue (.string htext) ?_ hfound)
        simp only [List.cons_append, List.append_assoc, List.nil_append]
      rw [if_neg hquote] at hopening
      by_cases hbracket : b = 0x5B
      · rw [if_pos hbracket, advance_bind] at hopening
        cases hopening
        exact Or.inr ⟨.list, rfl, by rw [hbracket]; rfl⟩
      rw [if_neg hbracket] at hopening
      by_cases hbrace : b = 0x7B
      · rw [if_pos hbrace, advance_bind] at hopening
        cases hopening
        exact Or.inr ⟨.object, rfl, by rw [hbrace]; rfl⟩
      · rw [if_neg hbrace] at hopening
        cases hopening

theorem settle_eq_ok {fresh : Bool} {frame : Frame} {frames : List Frame} {bound : Nat}
    {last : List UInt8} (hsettle : settle fresh (frame :: frames) bound input = .ok () last) :
    (exists rest, unblanked input = frame.closer :: rest ∧
        settle false frames bound rest = .ok () last) ∨
      (exists tail entered, fresh = false ∧ unblanked input = 0x2C :: tail ∧
        entry frame tail = .ok () entered ∧ rounds bound (frame :: frames) entered = .ok () last) ∨
      (exists b tail entered, fresh = true ∧ unblanked input = b :: tail ∧ b ≠ frame.closer ∧
        entry frame (b :: tail) = .ok () entered ∧
          rounds bound (frame :: frames) entered = .ok () last) := by
  have hentered : forall {tail : List UInt8},
      unwind fresh (frame :: frames) input =
        (entry frame >>= fun _ => pure (some (frame :: frames))) tail ->
      exists entered, entry frame tail = .ok () entered ∧
        rounds bound (frame :: frames) entered = .ok () last := by
    intro tail hunwind
    unfold settle at hsettle
    rcases bind_eq_ok.mp hsettle with ⟨left, middle, hleft, hrounds⟩
    rw [hunwind] at hleft
    rcases bind_eq_ok.mp hleft with ⟨_, entered, hentry, hpure⟩
    cases hpure
    exact ⟨middle, hentry, hrounds⟩
  cases hinput : unblanked input with
  | nil =>
      unfold settle at hsettle
      rcases bind_eq_ok.mp hsettle with ⟨left, middle, hleft, _⟩
      rw [unwind, next_bind, hinput] at hleft
      cases hleft
  | cons b tail =>
      by_cases hclose : b = frame.closer
      · rw [hclose] at hinput
        rw [settle_of_unwind (unwind_closed hinput fresh frames)] at hsettle
        exact Or.inl ⟨tail, by rw [hclose], hsettle⟩
      cases fresh with
      | true =>
          rcases hentered (unwind_first hinput hclose frames) with ⟨entered, hentry, hrounds⟩
          exact Or.inr (Or.inr ⟨b, tail, entered, rfl, rfl, hclose, hentry, hrounds⟩)
      | false =>
          by_cases hcomma : b = 0x2C
          · rw [hcomma] at hinput
            rcases hentered (unwind_comma hinput frames) with ⟨entered, hentry, hrounds⟩
            exact Or.inr (Or.inl ⟨tail, entered, rfl, by rw [hcomma], hentry, hrounds⟩)
          · unfold settle at hsettle
            rcases bind_eq_ok.mp hsettle with ⟨left, middle, hleft, _⟩
            rw [unwind, next_bind, hinput] at hleft
            simp only [List.head?_cons, hcomma, hclose, decide_false, Bool.not_false,
              Bool.and_false, Bool.false_eq_true, if_false] at hleft
            cases hleft

theorem isValue_of_items {frame : Frame} {items : List Item} {gap : List UInt8}
    (hparts : forall item, item ∈ items -> WellPlaced frame item) (hgap : Blanks gap) :
    IsValue (containerText frame items gap) :=
  .container (fun item hmem => (hparts item hmem).front) (fun item hmem => (hparts item hmem).trail)
    hgap (fun item hmem => (hparts item hmem).value)

/-- The value that a round takes, and what is left to settle after it. -/
def RoundTakes (bound : Nat) : Prop :=
  forall frames input last, rounds bound frames input = .ok () last ->
    exists rest left, left < bound ∧ Extent input rest ∧ settle false frames left rest = .ok () last

def SettleTakes (bound : Nat) : Prop :=
  forall fresh frame frames input last, settle fresh (frame :: frames) bound input = .ok () last ->
    exists rest left, left ≤ bound ∧ Within fresh frame input rest ∧
      settle false frames left rest = .ok () last

theorem roundTakes {bound : Nat} (hsettles : forall left, left < bound -> SettleTakes left) :
    RoundTakes bound := by
  intro frames input last hrounds
  cases bound with
  | zero => cases hrounds
  | succ bound =>
      have hread := hrounds
      rw [rounds] at hread
      rcases bind_eq_ok.mp hread with ⟨found, after, hopening, _⟩
      rcases opening_eq_ok hopening with
        ⟨rfl, blanks, v, hblanks, hv, hinput⟩ | ⟨frame, rfl, hinput⟩
      · rw [rounds_of_scalar hopening] at hrounds
        have hshort : after.length < input.length := by
          rcases hv.exists_first with ⟨b, more, rfl, _⟩
          rw [hinput]
          simp only [List.length_append, List.length_cons]
          omega
        exact ⟨after, bound, Nat.lt_succ_self _,
          ⟨passes_of_scalar hopening hshort, blanks, v, hblanks, hv, hinput⟩, hrounds⟩
      · rw [rounds_of_container hopening] at hrounds
        rcases hsettles bound (Nat.lt_succ_self _) _ _ _ _ _ hrounds with
          ⟨rest, left, hless, hwithin, hsettle⟩
        rcases hwithin.items with ⟨_, items, gap, _, hgap, hparts, hafter⟩
        rcases exists_blanks input with ⟨blanks, hblanks, hsplit⟩
        have hshort : after.length < input.length := by
          rw [hsplit, hinput]
          simp only [List.length_append, List.length_cons]
          omega
        refine ⟨rest, left, Nat.lt_succ_of_le hless,
          ⟨passes_of_container hopening hshort hwithin.passes, blanks, _, hblanks,
            isValue_of_items hparts hgap, ?_⟩, hsettle⟩
        rw [hsplit, hinput, hafter, if_pos rfl]
        simp only [containerText, List.cons_append, List.append_assoc, List.nil_append]

theorem settleTakes {bound : Nat} (hround : RoundTakes bound)
    (hsettles : forall left, left < bound -> SettleTakes left) : SettleTakes bound := by
  intro fresh frame frames input last hsettle
  have hlength := length_unblanked_le input
  rcases exists_blanks input with ⟨blanks, hblanks, hsplit⟩
  rcases settle_eq_ok hsettle with ⟨rest, hclose, hsettle⟩ |
    ⟨tail, entered, rfl, hcomma, hentry, hrounds⟩ |
    ⟨b, tail, entered, rfl, hfirst, hopen, hentry, hrounds⟩
  · refine ⟨rest, bound, Nat.le_refl _, ⟨passesWithin_closed fresh hclose, ?_⟩, hsettle⟩
    cases fresh with
    | true => exact ⟨[], [], blanks, blanks_nil, hblanks, nofun, by rw [← hclose]; exact hsplit⟩
    | false => exact ⟨blanks, [], [], hblanks, blanks_nil, nofun, by rw [hsplit, hclose]; rfl⟩
  all_goals
    rcases hround _ _ _ hrounds with ⟨middle, left, hless, hextent, hsettle⟩
    rcases hsettles left hless _ _ _ _ _ hsettle with ⟨rest, fewer, hfewer, hwithin, hlast⟩
    rcases hextent.value with ⟨gap, v, hgap, hv, hentered⟩
    rcases hwithin.items with ⟨trail, items, space, htrail, hspace, hparts, hmiddle⟩
    rcases front_of_entry hentry hgap hentered with ⟨front, hfront, htext⟩
    have hshort := length_le_of_entry hentry
    rw [if_neg (by decide)] at hmiddle
    refine ⟨rest, fewer, by omega, ⟨hextent.passes.before hwithin.passes ?_ fun bound frames => ?_,
      ?_⟩, hlast⟩
  · rw [hcomma, List.length_cons] at hlength
    omega
  · exact settle_of_entry (unwind_comma hcomma frames) hentry _
  · have hpart : WellPlaced frame ⟨front, v, trail⟩ := ⟨hfront, hv, htrail⟩
    refine ⟨blanks, ⟨front, v, trail⟩ :: items, space, hblanks, hspace,
      List.forall_mem_cons.mpr ⟨hpart, hparts⟩, ?_⟩
    rw [if_neg (by decide), following_cons, hsplit, hcomma, htext, hmiddle]
  · rw [hfirst] at hlength
    omega
  · exact settle_of_entry (unwind_first hfirst hopen frames) hentry _
  · have hpart : WellPlaced frame ⟨blanks ++ front, v, trail⟩ :=
      ⟨front_append hblanks hfront, hv, htrail⟩
    refine ⟨[], ⟨blanks ++ front, v, trail⟩ :: items, space, blanks_nil, hspace,
      List.forall_mem_cons.mpr ⟨hpart, hparts⟩, ?_⟩
    rw [if_pos rfl, separated_cons, hsplit, hfirst, htext, hmiddle]
    simp only [List.append_assoc]

theorem takes (bound : Nat) : RoundTakes bound ∧ SettleTakes bound := by
  induction bound using Nat.strongRecOn with
  | ind bound ih =>
      have hsettles : forall left, left < bound -> SettleTakes left :=
        fun left h => (ih left h).right
      have hround := roundTakes hsettles
      exact ⟨hround, settleTakes hround hsettles⟩

end Skip

namespace Reader

variable {input rest : List UInt8}

/-- What is passed over is a value of the grammar, after blanks. -/
theorem extent_of_skip (hskip : skip input = .ok () rest) : Extent input rest := by
  rcases (takes _).left _ _ _ hskip with ⟨after, left, _, hextent, hsettle⟩
  cases hsettle
  exact hextent

theorem skip_of_isValue {blanks v : List UInt8} (hblanks : Blanks blanks) (hv : IsValue v)
    (hended : Ended rest) : skip (blanks ++ (v ++ rest)) = .ok () rest :=
  skip_of_passes (passing_of_isValue hv blanks rest hblanks hended)

end Reader
end Json
end Gatekeeper
