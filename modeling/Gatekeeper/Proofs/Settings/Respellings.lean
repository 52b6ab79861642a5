import Gatekeeper.Proofs.Json.Edits
import Gatekeeper.Proofs.Settings.Leftovers
import Mathlib.Logic.Relation

/-!
# Spellings of one configuration

A configuration stays the same when the members of its document, or of a section of
it, are put in another order, when members with unknown names come or go, and when a
default is spelled out or left out.  A known name that comes twice is refused.
-/

namespace Gatekeeper

open Json Json.Reader Json.Record

/-!
# Defaults
-/

/-- What a known field or section says that might as well be left out. -/
def SpellsDefault (key : String) (v : List UInt8) : Prop :=
  if key = "leeway_secs" then v = [0x30]
  else if key ∈ ["parameters", "provider", "cache", "verifier"] then
    exists gap, Blanks gap ∧ v = objectText [] gap
  else v = [0x6E, 0x75, 0x6C, 0x6C]

def Idle (start : σ) (depth : Nat) (m : Member σ) : Prop :=
  forall v, SpellsDefault m.name v -> exists put, Gives (m.read depth) v put ∧ put start = start

theorem defaults_of_idle {record : Record σ} {depth : Nat}
    (hidle : forall m, m ∈ record.known -> Idle record.start depth m) :
    record.Defaults depth SpellsDefault := by
  intro key known v hfind hdefault
  rcases mem_of_find? hfind with ⟨hmem, rfl⟩
  exact hidle known hmem v hdefault

section Members

variable {σ : Type} {start : σ} {name : String} {depth : Nat}

theorem idle_optional {reader : Nat → Reader α} {put : Option α → σ → σ}
    (hname : name ∉ ["leeway_secs", "parameters", "provider", "cache", "verifier"])
    (htame : Tame (reader depth)) (hput : put none start = start) :
    Idle start depth (.free name (fun depth => optional (reader depth)) put) := by
  intro v hdefault
  change SpellsDefault name v at hdefault
  rcases not_or.mp (mt List.mem_cons.mpr hname) with ⟨hzero, hempty⟩
  rw [SpellsDefault, if_neg hzero, if_neg hempty] at hdefault
  have hread : optional (reader depth) ([] ++ (v ++ [])) = .ok none [] := by
    rw [hdefault]
    rfl
  have hnull : IsValue v := hdefault ▸ .wordNull
  exact ⟨put none, (htame.optional.gives blanks_nil hnull ended_nil hread).map put, hput⟩

theorem idle_empty {reader : Nat → Reader α} {put : α → σ → σ} {a : α}
    (hname : name ∈ ["parameters", "provider", "cache", "verifier"])
    (hgives : forall gap, Blanks gap -> Gives (reader depth) (objectText [] gap) a)
    (hput : put a start = start) : Idle start depth (.free name reader put) := by
  intro v hdefault
  change SpellsDefault name v at hdefault
  have hne : name ≠ "leeway_secs" := by
    rintro rfl
    exact absurd hname (by decide)
  rw [SpellsDefault, if_neg hne, if_pos hname] at hdefault
  rcases hdefault with ⟨gap, hgap, rfl⟩
  exact ⟨put a, (hgives gap hgap).map put, hput⟩

end Members

theorem gives_object_empty (depth : Nat) (gap : List UInt8) (hgap : Blanks gap) :
    Gives (object (depth + 1)) (objectText [] gap) .empty := by
  intro lead rest hlead _
  have hclosed : unblanked (gap ++ 0x7D :: rest) = 0x7D :: rest :=
    unblanked_append_cons hgap rfl rest
  have hopen : unblanked (lead ++ (objectText [] gap ++ rest)) = 0x7B :: (gap ++ 0x7D :: rest) := by
    have htext : objectText [] gap ++ rest = 0x7B :: (gap ++ 0x7D :: rest) := by
      simp [objectText, containerText, opener, separated, Skip.Frame.closer]
    rw [htext]
    exact unblanked_append_cons hlead rfl _
  have hmembers : membersFrom (putMember depth) Object.empty true
      ((gap ++ 0x7D :: rest).length + 1) (gap ++ 0x7D :: rest) = .ok .empty (0x7D :: rest) := by
    rw [membersFrom, bind_of_ok (nextKey_closed true hclosed)]
    rfl
  exact object_eq_ok_iff.mpr (value_of_object hopen hmembers (closeObject_eq_ok_iff.mpr rfl))

theorem gives_zero : Gives uint64 [0x30] 0 := by
  have hnumeral : IsNumeral [0x30] := ⟨[0x30], [], [], .zero, .none, .none, rfl⟩
  have hread : uint64 ([] ++ ([0x30] ++ [])) = .ok 0 [] := rfl
  exact tame_uint64.gives blanks_nil (.number hnumeral) ended_nil hread

/-!
# Sections
-/

namespace ProviderSettings

theorem plain_record : record.Plain SpellsDefault where
  tame := tame_record
  lenient := by
    unfold Lenient
    decide
  unordered := by
    simp only [Unordered, record, List.pairwise_cons, List.forall_mem_cons, List.not_mem_nil,
      false_imp_iff, implies_true, List.Pairwise.nil, and_true]
    refine ⟨⟨?_, ?_⟩, ?_⟩ <;> exact Member.commute_free fun _ _ _ => rfl
  defaults := by
    intro depth
    refine defaults_of_idle (List.forall_mem_cons.mpr ⟨?_, List.forall_mem_cons.mpr ⟨?_,
      List.forall_mem_singleton.mpr ?_⟩⟩)
    · exact idle_optional (by decide) tame_string rfl
    · exact idle_empty (by decide) (gives_object_empty depth) rfl
    · exact idle_optional (by decide) tame_uint64 rfl

end ProviderSettings

namespace CacheSettings

theorem plain_record : record.Plain SpellsDefault where
  tame := tame_record
  lenient := by
    unfold Lenient
    decide
  unordered := List.pairwise_singleton _ _
  defaults := by
    intro depth
    refine defaults_of_idle (List.forall_mem_singleton.mpr ?_)
    exact idle_optional (by decide) tame_uint64 rfl

end CacheSettings

namespace VerifierSettings

theorem plain_record : record.Plain SpellsDefault where
  tame := tame_record
  lenient := by
    unfold Lenient
    decide
  unordered := by
    simp only [Unordered, record, List.pairwise_cons, List.forall_mem_cons, List.not_mem_nil,
      false_imp_iff, implies_true, List.Pairwise.nil, and_true]
    refine ⟨⟨?_, ?_, ?_, ?_, ?_⟩, ⟨?_, ?_, ?_, ?_⟩, ⟨?_, ?_, ?_⟩, ⟨?_, ?_⟩, ?_⟩ <;>
      exact Member.commute_free fun _ _ _ => rfl
  defaults := by
    intro depth
    refine defaults_of_idle (List.forall_mem_cons.mpr ⟨?_, List.forall_mem_cons.mpr ⟨?_,
      List.forall_mem_cons.mpr ⟨?_, List.forall_mem_cons.mpr ⟨?_, List.forall_mem_cons.mpr ⟨?_,
        List.forall_mem_singleton.mpr ?_⟩⟩⟩⟩⟩)
    · exact idle_optional (by decide) tame_string rfl
    · exact idle_optional (by decide) tame_string rfl
    · exact idle_optional (by decide) tame_string rfl
    · exact idle_optional (by decide) tame_string rfl
    · exact idle_optional (by decide) (tame_strings _) rfl
    · intro v hdefault
      have hzero : v = [0x30] := hdefault
      rw [hzero]
      exact ⟨_, gives_zero.map _, rfl⟩

end VerifierSettings

namespace Settings

theorem gives_section_empty {σ : Type} {part : Record σ} (hplain : part.Plain SpellsDefault)
    (depth : Nat) (gap : List UInt8) (hgap : Blanks gap) :
    Gives (part.read (depth + 1)) (objectText [] gap) part.start :=
  (gives_written_iff hplain.tame hplain.lenient hgap).mpr .nil

theorem plain_record : record.Plain SpellsDefault where
  tame := tame_record
  lenient := by
    unfold Lenient
    decide
  unordered := by
    simp only [Unordered, record, List.pairwise_cons, List.forall_mem_cons, List.not_mem_nil,
      false_imp_iff, implies_true, List.Pairwise.nil, and_true]
    refine ⟨⟨?_, ?_⟩, ?_⟩ <;> exact Member.commute_free fun _ _ _ => rfl
  defaults := by
    intro depth
    refine defaults_of_idle (List.forall_mem_cons.mpr ⟨?_, List.forall_mem_cons.mpr ⟨?_,
      List.forall_mem_singleton.mpr ?_⟩⟩)
    · exact idle_empty (by decide) (gives_section_empty ProviderSettings.plain_record depth) rfl
    · exact idle_empty (by decide) (gives_section_empty CacheSettings.plain_record depth) rfl
    · exact idle_empty (by decide) (gives_section_empty VerifierSettings.plain_record depth) rfl

/-!
# Changes of a document
-/

inductive Section (key : String) (Says : forall {σ : Type}, Record σ -> Prop) : Prop
  | provider (hkey : key = "provider") (hrecord : Says ProviderSettings.record)
  | cache (hkey : key = "cache") (hrecord : Says CacheSettings.record)
  | verifier (hkey : key = "verifier") (hrecord : Says VerifierSettings.record)

theorem Section.exists_record {key : String} {Says : forall {σ : Type}, Record σ -> Prop}
    (hsection : Section key Says) :
    exists (σ : Type) (part : Record σ) (put : σ → Settings → Settings), Says part ∧
      part.Plain SpellsDefault ∧ record.find? key = some (.free key part.read put) := by
  cases hsection with
  | provider hkey hrecord =>
      subst hkey
      exact ⟨_, _, _, hrecord, ProviderSettings.plain_record, rfl⟩
  | cache hkey hrecord =>
      subst hkey
      exact ⟨_, _, _, hrecord, CacheSettings.plain_record, rfl⟩
  | verifier hkey hrecord =>
      subst hkey
      exact ⟨_, _, _, hrecord, VerifierSettings.plain_record, rfl⟩

inductive Edit : List Written -> List Written -> Prop
  | top {ms ms' : List Written} (hedit : Record.Edit record SpellsDefault ms ms') : Edit ms ms'
  | within {m m' : Written} {ms inner inner' : List Written} {key : String} {gap gap' : List UInt8}
      (hkey : m.HasKey key) (hkey' : m'.HasKey key) (hgap : Blanks gap) (hgap' : Blanks gap')
      (hvalue : m.value = objectText inner gap) (hvalue' : m'.value = objectText inner' gap')
      (hedit : Section key fun part => part.Edit SpellsDefault inner inner') :
      Edit (m :: ms) (m' :: ms)

/-- One change of an object at the front of a text; the blanks and what follows it may differ. -/
inductive Respelled : List UInt8 -> List UInt8 -> Prop
  | object {lead lead' gap gap' rest rest' : List UInt8} {ms ms' : List Written}
      (hlead : Blanks lead) (hlead' : Blanks lead') (hgap : Blanks gap) (hgap' : Blanks gap')
      (hedit : Edit ms ms') :
      Respelled (lead ++ (objectText ms gap ++ rest)) (lead' ++ (objectText ms' gap' ++ rest'))

/-- A known name comes twice in the document or in one of its sections. -/
inductive Twice : List Written -> Prop
  | top {ms : List Written} (htwice : record.Twice ms) : Twice ms
  | within {m : Written} {ms inner : List Written} {key : String} {gap : List UInt8}
      (hmem : m ∈ ms) (hkey : m.HasKey key) (hgap : Blanks gap)
      (hvalue : m.value = objectText inner gap)
      (htwice : Section key fun part => part.Twice inner) : Twice ms

/-!
# What is read of a document
-/

section

variable {ms ms' inner inner' : List Written} {gap gap' lead rest : List UInt8}
variable {settings : Settings}

theorem gives_section_iff {σ : Type} {part : Record σ} (hplain : part.Plain SpellsDefault)
    {key : String} {put : σ → Settings → Settings} {f : Settings → Settings} (depth : Nat)
    (hgap : Blanks gap) :
    Gives ((Member.free key part.read put).read (depth + 1)) (objectText inner gap) f <->
      exists s, Brings part depth ⟨part.start, []⟩ (inner.map Written.core) s ∧ put s = f := by
  constructor
  · intro hgives
    rcases map_eq_ok.mp (hgives [] [] blanks_nil ended_nil) with ⟨s, hread, hput⟩
    exact ⟨s, ((read_written_iff hplain.tame hplain.lenient blanks_nil hgap).mp hread).right, hput⟩
  · rintro ⟨s, hbrings, rfl⟩
    exact ((gives_written_iff hplain.tame hplain.lenient hgap).mpr hbrings).map put

theorem gives_edited_iff {σ : Type} {part : Record σ} (hplain : part.Plain SpellsDefault)
    (hgap : Blanks gap) (hgap' : Blanks gap') (hedit : part.Edit SpellsDefault inner inner')
    (key : String) (put : σ → Settings → Settings) (f : Settings → Settings) :
    Gives ((Member.free key part.read put).read 126) (objectText inner gap) f <->
      Gives ((Member.free key part.read put).read 126) (objectText inner' gap') f := by
  rw [gives_section_iff hplain 125 hgap, gives_section_iff hplain 125 hgap']
  exact exists_congr fun s => and_congr_left fun _ => hedit.brings_iff hplain

theorem ofBytes_written_iff (hlead : Blanks lead) (hgap : Blanks gap) :
    ofBytes (lead ++ (objectText ms gap ++ rest)) = .ok settings <->
      Brings record 126 ⟨record.start, []⟩ (ms.map Written.core) settings := by
  have hread : forall left, record.read depthLimit (lead ++ (objectText ms gap ++ rest)) =
      .ok settings left <-> left = rest ∧
        Brings record 126 ⟨record.start, []⟩ (ms.map Written.core) settings :=
    fun left => read_written_iff plain_record.tame plain_record.lenient hlead hgap
  unfold ofBytes
  rw [outcome_eq_ok]
  constructor
  · rintro ⟨left, h⟩
    exact ((hread left).mp h).right
  · intro hbrings
    exact ⟨rest, (hread rest).mpr ⟨rfl, hbrings⟩⟩

theorem Edit.brings_iff (hedit : Edit ms ms') :
    Brings record 126 ⟨record.start, []⟩ (ms.map Written.core) settings <->
      Brings record 126 ⟨record.start, []⟩ (ms'.map Written.core) settings := by
  cases hedit with
  | top hedit => exact hedit.brings_iff plain_record
  | @within m m' ms inner inner' key gap gap' hkey hkey' hgap hgap' hvalue hvalue' hedit =>
      rcases hedit.exists_record with ⟨σ, part, put, hedit, hplain, hfind⟩
      have hsame := gives_edited_iff hplain hgap hgap' hedit key put
      rw [← hvalue, ← hvalue'] at hsame
      exact ⟨brings_of_values hkey hkey' hfind fun f => (hsame f).mp,
        brings_of_values hkey' hkey hfind fun f => (hsame f).mpr⟩

theorem Respelled.ofBytes_iff {text text' : List UInt8} (hrespelled : Respelled text text') :
    ofBytes text = .ok settings <-> ofBytes text' = .ok settings := by
  cases hrespelled with
  | object hlead hlead' hgap hgap' hedit =>
      rw [ofBytes_written_iff hlead hgap, ofBytes_written_iff hlead' hgap', hedit.brings_iff]

theorem ofBytes_iff_of_respelled {text text' : List UInt8}
    (hspelled : Relation.EqvGen Respelled text text') :
    ofBytes text = .ok settings <-> ofBytes text' = .ok settings := by
  induction hspelled with
  | rel _ _ hrespelled => exact hrespelled.ofBytes_iff
  | refl => exact Iff.rfl
  | symm _ _ _ ih => exact ih.symm
  | trans _ _ _ _ _ ihone ihtwo => exact ihone.trans ihtwo

theorem Twice.not_brings (htwice : Twice ms) :
    ¬ Brings record 126 ⟨record.start, []⟩ (ms.map Written.core) settings := by
  cases htwice with
  | top htwice => exact htwice.not_brings
  | within hmem hkey hgap hvalue htwice =>
      rcases htwice.exists_record with ⟨σ, part, put, htwice, hplain, hfind⟩
      intro hbrings
      rcases hbrings.gives hfind (List.mem_map_of_mem hmem) hkey with ⟨f, hgives⟩
      rw [Written.core, hvalue, gives_section_iff hplain 125 hgap] at hgives
      rcases hgives with ⟨s, hinner, _⟩
      exact htwice.not_brings hinner

def Keyed (ms : List Written) : Prop :=
  forall m, m ∈ ms -> exists key, m.HasKey key

theorem keyed_of_brings {σ : Type} {part : Record σ} {depth : Nat} {progress : Progress σ}
    {state : σ} (hbrings : Brings part depth progress (ms.map Written.core) state) : Keyed ms :=
  fun _ hmem => hbrings.keyed (List.mem_map_of_mem hmem)

theorem keyed_section
    (hbrings : Brings record 126 ⟨record.start, []⟩ (ms.map Written.core) settings) {m : Written}
    (hmem : m ∈ ms) {key : String} (hkey : m.HasKey key)
    (hsection : Section key fun _ => True) (hgap : Blanks gap)
    (hvalue : m.value = objectText inner gap) : Keyed inner := by
  rcases hsection.exists_record with ⟨σ, part, put, _, hplain, hfind⟩
  rcases hbrings.gives hfind (List.mem_map_of_mem hmem) hkey with ⟨f, hgives⟩
  rw [Written.core, hvalue, gives_section_iff hplain 125 hgap] at hgives
  rcases hgives with ⟨s, hinner, _⟩
  exact keyed_of_brings hinner

theorem exists_written {more : List UInt8} (hlead : Blanks lead)
    (hread : ofBytes (lead ++ 0x7B :: more) = .ok settings) :
    exists ms gap rest, Blanks gap ∧
      lead ++ 0x7B :: more = lead ++ (objectText ms gap ++ rest) := by
  rcases outcome_eq_ok.mp hread with ⟨rest, hread⟩
  have hextent := extent_of_skip ((tame_read _).passed _ _ _ hread)
  rcases hextent.value with ⟨blanks, v, hblanks, hv, hsplit⟩
  have hsame : 0x7B :: more = v ++ rest := by
    rw [← unblanked_append_cons hlead (b := 0x7B) rfl more, hsplit, unblanked_append hblanks,
      hv.unblanked_eq]
  rcases hv.exists_first with ⟨b, tail, rfl, _⟩
  rcases exists_objectText hv (by rw [(List.cons.inj hsame).left]) with ⟨ms, gap, hgap, htext⟩
  exact ⟨ms, gap, rest, hgap, by rw [hsame, htext]⟩

end

/-- Documents that such changes lead from one to the other are the same configuration.  Every
document that is read and is an object is one of written members, as is each of its sections that
is an object, so that the changes apply to it.  A document in which a known name comes twice is
refused. -/
theorem spellings_agree :
    (forall document document' settings,
      Relation.EqvGen Respelled (Utf8.encode document) (Utf8.encode document') ->
        (parse document = .ok settings <-> parse document' = .ok settings)) ∧
    (forall document settings lead more, Blanks lead ->
      Utf8.encode document = lead ++ 0x7B :: more -> parse document = .ok settings ->
      exists ms gap rest, Blanks gap ∧ Keyed ms ∧
        Utf8.encode document = lead ++ (objectText ms gap ++ rest) ∧
          forall m key, m ∈ ms -> m.HasKey key -> (Section key fun _ => True) ->
            m.value.head? = some 0x7B ->
              exists inner gap', Blanks gap' ∧ Keyed inner ∧ m.value = objectText inner gap') ∧
    forall document lead ms gap rest, Blanks lead -> Blanks gap ->
      Utf8.encode document = lead ++ (objectText ms gap ++ rest) -> Twice ms ->
        exists failure, parse document = .error (.document failure) := by
  refine ⟨fun document document' settings hspelled => ?_,
    fun document settings lead more hlead htext hread => ?_,
    fun document lead ms gap rest hlead hgap htext htwice => ?_⟩
  · rw [parse_eq_ok_iff, parse_eq_ok_iff, ofBytes_iff_of_respelled hspelled]
  · rw [parse_eq_ok_iff, htext] at hread
    rcases exists_written hlead hread with ⟨ms, gap, rest, hgap, hwritten⟩
    rw [hwritten, ofBytes_written_iff hlead hgap] at hread
    refine ⟨ms, gap, rest, hgap, keyed_of_brings hread, htext.trans hwritten,
      fun m key hmem hkey hsection hbrace => ?_⟩
    rcases List.head?_eq_some_iff.mp hbrace with ⟨tail, htail⟩
    rcases exists_objectText m.isValue htail with ⟨inner, gap', hgap', hvalue⟩
    exact ⟨inner, gap', hgap', keyed_section hread hmem hkey hsection hgap' hvalue, hvalue⟩
  · cases hparse : parse document with
    | ok settings =>
        rw [parse_eq_ok_iff, htext, ofBytes_written_iff hlead hgap] at hparse
        exact absurd hparse htwice.not_brings
    | error fault =>
        unfold parse at hparse
        cases hbytes : ofBytes (Utf8.encode document) with
        | ok settings =>
            rw [hbytes] at hparse
            cases hparse
        | error failure =>
            rw [hbytes] at hparse
            cases hparse
            exact ⟨failure, rfl⟩

theorem spellings_agree_issuer :
    parse "\x7b\"verifier\":\x7b\"leeway_secs\":0,\"issuer\":\"me\"\x7d,\"x\":true\x7d" =
        .ok ⟨.none, .none, { VerifierSettings.none with issuer := some "me" }⟩ ∧
      (exists ms gap rest, Blanks gap ∧ Keyed ms ∧
        Utf8.encode "\x7b\"verifier\":\x7b\"issuer\":\"me\"\x7d\x7d" =
          [] ++ (objectText ms gap ++ rest)) ∧
      exists failure, parse "\x7b\"cache\":\x7b\x7d,\"cache\":\x7b\x7d\x7d" =
        .error (.document failure) := by
  have hplain : forall b, b ∈ Utf8.encode "me" -> IsPlain b := by decide +kernel
  have hme : IsValue (Utf8.encode "\"me\"") := .string (spells_of_plain hplain).quotable
  have hzero : IsValue [0x30] := .number ⟨[0x30], [], [], .zero, .none, .none, rfl⟩
  let issuer := Written.tight "issuer" (by decide +kernel) hme
  let leeway := Written.tight "leeway_secs" (by decide +kernel) hzero
  let short := Written.tight "verifier" (by decide +kernel) (isValue_objectText [issuer] blanks_nil)
  let long := Written.tight "verifier" (by decide +kernel)
    (isValue_objectText [leeway, issuer] blanks_nil)
  let x := Written.tight "x" (by decide +kernel) .wordTrue
  let cache := Written.tight "cache" (by decide +kernel) (isValue_objectText [] blanks_nil)
  have hbase : Utf8.encode "\x7b\"verifier\":\x7b\"issuer\":\"me\"\x7d\x7d" =
      [] ++ (objectText [short] [] ++ []) := rfl
  have hfinal : Utf8.encode
      "\x7b\"verifier\":\x7b\"leeway_secs\":0,\"issuer\":\"me\"\x7d,\"x\":true\x7d" =
        [] ++ (objectText [long, x] [] ++ []) := rfl
  have htwo : Utf8.encode "\x7b\"cache\":\x7b\x7d,\"cache\":\x7b\x7d\x7d" =
      [] ++ (objectText [cache, cache] [] ++ []) := rfl
  have hissuer : issuer.HasKey "issuer" := Written.hasKey_tight _ hme
  have hleeway : leeway.HasKey "leeway_secs" := Written.hasKey_tight _ hzero
  have hspelled : Relation.EqvGen Respelled ([] ++ (objectText [short] [] ++ []))
      ([] ++ (objectText [long, x] [] ++ [])) := by
    have hadded : VerifierSettings.record.Edit SpellsDefault [issuer] [leeway, issuer] := by
      refine .spelled hleeway rfl rfl (List.forall_mem_singleton.mpr fun hsame => ?_)
      exact absurd (hissuer.unique hsame) (by decide)
    have hlong : Edit [short] [long] := .within (Written.hasKey_tight _ _)
      (Written.hasKey_tight _ _) blanks_nil blanks_nil rfl rfl (.verifier rfl hadded)
    have hx : Edit [long] [x, long] := .top (.unknown (Written.hasKey_tight _ _) rfl)
    have horder : Edit [x, long] [long, x] := .top (.order (List.Perm.swap _ _ _))
    have hstep : forall {ms ms' : List Written}, Edit ms ms' -> Relation.EqvGen Respelled
        ([] ++ (objectText ms [] ++ [])) ([] ++ (objectText ms' [] ++ [])) :=
      fun hedit => .rel _ _ (.object blanks_nil blanks_nil blanks_nil blanks_nil hedit)
    exact .trans _ _ _ (hstep hlong) (.trans _ _ _ (hstep hx) (hstep horder))
  have hended : Ended [0x7D] := ended_cons ⟨rfl, by decide, rfl⟩ []
  have hgives : Gives (optional string) (Utf8.encode "\"me\"") (some "me") :=
    tame_string.optional.gives blanks_nil hme hended
      ((takes_string "me").optional (solid_string "me") 0x7D [] (Or.inr rfl))
  have hverifier : Gives (VerifierSettings.record.read 126) (objectText [issuer] [])
      { VerifierSettings.none with issuer := some "me" } :=
    (gives_written_iff VerifierSettings.tame_record VerifierSettings.plain_record.lenient
      blanks_nil).mpr (.cons hissuer (.put rfl List.not_mem_nil (hgives.map _)) .nil)
  have hread : parse "\x7b\"verifier\":\x7b\"issuer\":\"me\"\x7d\x7d" =
      .ok ⟨.none, .none, { VerifierSettings.none with issuer := some "me" }⟩ := by
    rw [parse_eq_ok_iff, hbase, ofBytes_written_iff blanks_nil blanks_nil]
    exact .cons (Written.hasKey_tight _ _)
      (.put rfl List.not_mem_nil (hverifier.map _)) .nil
  have htwice : Twice [cache, cache] :=
    .top ⟨cache, cache, "cache", _, List.Sublist.refl _, Written.hasKey_tight _ _,
      Written.hasKey_tight _ _, rfl⟩
  refine ⟨(spellings_agree.left _ _ _ (by rw [hbase, hfinal]; exact hspelled)).mp hread, ?_,
    spellings_agree.right.right _ _ _ _ _ blanks_nil blanks_nil htwo htwice⟩
  rcases spellings_agree.right.left _ _ [] _ blanks_nil rfl hread with
    ⟨ms, gap, rest, hgap, hkeyed, htext, _⟩
  exact ⟨ms, gap, rest, hgap, hkeyed, htext⟩

end Settings

end Gatekeeper
