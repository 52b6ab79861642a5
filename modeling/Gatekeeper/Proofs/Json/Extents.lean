import Gatekeeper.Json.Decode
import Gatekeeper.Proofs.Json.Scalars

/-!
# Extents of values

A value that can be read can be passed over, and both leave the same input.  A
container that is read by recursion is passed over in rounds, with a stack of
the containers that are open.
-/

namespace Gatekeeper
namespace Json

/-!
# Rounds

One round takes a scalar or the opening of a container, and then closes what ends
there.
-/

namespace Skip

open Reader

def settle (fresh : Bool) (frames : List Frame) (bound : Nat) : Reader Unit := do
  match ← unwind fresh frames with
  | none => pure ()
  | some frames => rounds bound frames

theorem rounds_of_scalar {input rest : List UInt8} (hopening : opening input = .ok none rest)
    (bound : Nat) (frames : List Frame) :
    rounds (bound + 1) frames input = settle false frames bound rest := by
  rw [rounds, bind_of_ok hopening]
  rfl

theorem rounds_of_container {input rest : List UInt8} {frame : Frame}
    (hopening : opening input = .ok (some frame) rest) (bound : Nat) (frames : List Frame) :
    rounds (bound + 1) frames input = settle true (frame :: frames) bound rest := by
  rw [rounds, bind_of_ok hopening]
  rfl

theorem rounds_unblanked (bound : Nat) (frames : List Frame) (input : List UInt8) :
    rounds (bound + 1) frames (unblanked input) = rounds (bound + 1) frames input := by
  have hopening : opening (unblanked input) = opening input := by
    unfold opening
    rw [next_bind, next_bind, unblanked_unblanked]
  unfold rounds
  simp only [Bind.bind, EStateM.bind, hopening]

/-- A number of rounds takes a value from the front of the input. -/
def Passes (input rest : List UInt8) : Prop :=
  exists n, n + 1 + rest.length ≤ input.length ∧
    forall bound frames, rounds (n + 1 + bound) frames input = settle false frames bound rest

def PassesWithin (fresh : Bool) (frame : Frame) (input rest : List UInt8) : Prop :=
  exists n, n + 1 + rest.length ≤ input.length ∧
    forall bound frames,
      settle fresh (frame :: frames) (n + bound) input = settle false frames bound rest

theorem skip_of_passes {input rest : List UInt8} (hpasses : Passes input rest) :
    skip input = .ok () rest := by
  rcases hpasses with ⟨n, hlength, hrounds⟩
  have hbound : input.length + 1 = n + 1 + (input.length - n) := by omega
  unfold skip
  rw [hbound, hrounds]
  rfl

theorem passes_of_scalar {input rest : List UInt8} (hopening : opening input = .ok none rest)
    (hlength : rest.length < input.length) : Passes input rest := by
  refine ⟨0, by omega, fun bound frames => ?_⟩
  rw [Nat.zero_add, Nat.add_comm 1 bound]
  exact rounds_of_scalar hopening bound frames

theorem passes_of_container {input middle rest : List UInt8} {frame : Frame}
    (hopening : opening input = .ok (some frame) middle) (hlength : middle.length < input.length)
    (hwithin : PassesWithin true frame middle rest) : Passes input rest := by
  rcases hwithin with ⟨n, hn, hsettle⟩
  refine ⟨n, by omega, fun bound frames => ?_⟩
  rw [Nat.add_right_comm n 1 bound, rounds_of_container hopening]
  exact hsettle bound frames

theorem settle_of_unwind {fresh fresh' : Bool} {frames frames' : List Frame}
    {input input' : List UInt8} (hunwind : unwind fresh frames input = unwind fresh' frames' input')
    (bound : Nat) :
    settle fresh frames bound input = settle fresh' frames' bound input' := by
  unfold settle
  simp only [Bind.bind, EStateM.bind, hunwind]

theorem settle_of_entry {fresh : Bool} {frame : Frame} {frames : List Frame}
    {input entered rest : List UInt8}
    (hunwind : unwind fresh (frame :: frames) input =
      (entry frame >>= fun _ => pure (some (frame :: frames))) entered)
    (hentry : entry frame entered = .ok () rest) (bound : Nat) :
    settle fresh (frame :: frames) bound input = rounds bound (frame :: frames) rest := by
  rw [bind_of_ok hentry] at hunwind
  unfold settle
  rw [bind_of_ok hunwind]

theorem unwind_closed {frame : Frame} {input rest : List UInt8}
    (hclose : unblanked input = frame.closer :: rest) (fresh : Bool) (frames : List Frame) :
    unwind fresh (frame :: frames) input = unwind false frames rest := by
  cases frame <;> simp [unwind, hclose, Frame.closer]

theorem unwind_first {frame : Frame} {input rest : List UInt8} {b : UInt8}
    (hfirst : unblanked input = b :: rest) (hopen : b ≠ frame.closer) (frames : List Frame) :
    unwind true (frame :: frames) input =
      (entry frame >>= fun _ => pure (some (frame :: frames))) (b :: rest) := by
  simp [unwind, hfirst, hopen]

theorem unwind_comma {frame : Frame} {input rest : List UInt8}
    (hcomma : unblanked input = 0x2C :: rest) (frames : List Frame) :
    unwind false (frame :: frames) input =
      (entry frame >>= fun _ => pure (some (frame :: frames))) rest := by
  simp [unwind, hcomma]

theorem passesWithin_closed {frame : Frame} {input rest : List UInt8} (fresh : Bool)
    (hclose : unblanked input = frame.closer :: rest) :
    PassesWithin fresh frame input rest := by
  have hlength := length_unblanked_le input
  rw [hclose, List.length_cons] at hlength
  refine ⟨0, by omega, fun bound frames => ?_⟩
  rw [Nat.zero_add]
  exact settle_of_unwind (unwind_closed hclose fresh frames) bound

theorem Passes.before {fresh : Bool} {frame : Frame} {input entered middle rest : List UInt8}
    (hpasses : Passes entered middle) (hwithin : PassesWithin false frame middle rest)
    (hlength : entered.length ≤ input.length)
    (hsettle : forall bound frames,
      settle fresh (frame :: frames) (bound + 1) input =
        rounds (bound + 1) (frame :: frames) entered) :
    PassesWithin fresh frame input rest := by
  rcases hpasses with ⟨n, hn, hrounds⟩
  rcases hwithin with ⟨m, hm, hwithin⟩
  refine ⟨n + 1 + m, by omega, fun bound frames => ?_⟩
  have hsplit : n + 1 + m + bound = n + (m + bound) + 1 := by omega
  rw [hsplit, hsettle, Nat.add_right_comm n (m + bound) 1, hrounds]
  exact hwithin bound frames

/-!
# Containers
-/

theorem moreElements_eq_ok {isFirst more : Bool} {input rest : List UInt8}
    (hmore : moreElements isFirst input = .ok more rest) :
    (more = false ∧ rest = unblanked input ∧ exists tail, unblanked input = 0x5D :: tail) ∨
      (more = true ∧ isFirst = true ∧ rest = unblanked input ∧
        exists b tail, unblanked input = b :: tail ∧ b ≠ 0x5D) ∨
      (more = true ∧ isFirst = false ∧
        exists tail, unblanked input = 0x2C :: tail ∧ rest = unblanked tail) := by
  unfold moreElements at hmore
  rw [next_bind] at hmore
  cases hinput : unblanked input with
  | nil =>
      rw [hinput] at hmore
      cases hmore
  | cons b tail =>
      simp only [hinput, List.head?_cons] at hmore
      by_cases hclose : b = 0x5D
      · rw [if_pos hclose] at hmore
        cases hmore
        exact Or.inl ⟨rfl, rfl, tail, by rw [hclose]⟩
      · rw [if_neg hclose] at hmore
        cases isFirst with
        | true =>
            cases hmore
            exact Or.inr (Or.inl ⟨rfl, rfl, rfl, b, tail, rfl, hclose⟩)
        | false =>
            simp only [Bool.false_eq_true, if_false] at hmore
            by_cases hcomma : b = 0x2C
            · rw [if_pos hcomma, advance_bind, next_bind] at hmore
              refine Or.inr (Or.inr ?_)
              cases hafter : (unblanked tail).head? with
              | none =>
                  rw [hafter] at hmore
                  cases hmore
              | some c =>
                  simp only [hafter] at hmore
                  by_cases htrailing : c = 0x5D
                  · rw [if_pos htrailing] at hmore
                    cases hmore
                  · rw [if_neg htrailing] at hmore
                    cases hmore
                    exact ⟨rfl, rfl, tail, by rw [hcomma], rfl⟩
            · rw [if_neg hcomma] at hmore
              cases hmore

theorem moreMembers_eq_ok {isFirst more : Bool} {input rest : List UInt8}
    (hmore : moreMembers isFirst input = .ok more rest) :
    (more = false ∧ rest = unblanked input ∧ exists tail, unblanked input = 0x7D :: tail) ∨
      (more = true ∧ isFirst = true ∧ rest = unblanked input ∧
        exists tail, unblanked input = 0x22 :: tail) ∨
      (more = true ∧ isFirst = false ∧ exists tail after,
        unblanked input = 0x2C :: tail ∧ rest = unblanked tail ∧
          unblanked tail = 0x22 :: after) := by
  unfold moreMembers at hmore
  rw [next_bind] at hmore
  cases hinput : unblanked input with
  | nil =>
      rw [hinput] at hmore
      cases hmore
  | cons b tail =>
      simp only [hinput, List.head?_cons] at hmore
      by_cases hclose : b = 0x7D
      · rw [if_pos hclose] at hmore
        cases hmore
        exact Or.inl ⟨rfl, rfl, tail, by rw [hclose]⟩
      · rw [if_neg hclose] at hmore
        cases isFirst with
        | true =>
            simp only [if_true] at hmore
            by_cases hquote : b = 0x22
            · rw [if_pos hquote] at hmore
              cases hmore
              exact Or.inr (Or.inl ⟨rfl, rfl, rfl, tail, by rw [hquote]⟩)
            · rw [if_neg hquote] at hmore
              cases hmore
        | false =>
            simp only [Bool.false_eq_true, if_false] at hmore
            by_cases hcomma : b = 0x2C
            · rw [if_pos hcomma, advance_bind, next_bind] at hmore
              refine Or.inr (Or.inr ?_)
              cases hafter : unblanked tail with
              | nil =>
                  rw [hafter] at hmore
                  cases hmore
              | cons c after =>
                  simp only [hafter, List.head?_cons] at hmore
                  by_cases hquote : c = 0x22
                  · rw [if_pos hquote] at hmore
                    cases hmore
                    exact ⟨rfl, rfl, tail, after, by rw [hcomma], by rw [hafter],
                      by rw [hafter, hquote]⟩
                  · rw [if_neg hquote] at hmore
                    split at hmore <;> cases hmore
            · rw [if_neg hcomma] at hmore
              cases hmore

theorem closeList_eq_ok {input rest : List UInt8} {tail : List UInt8}
    (hinput : unblanked input = 0x5D :: tail) (hclose : closeList input = .ok () rest) :
    rest = tail := by
  unfold closeList at hclose
  rw [next_bind, hinput] at hclose
  cases hclose
  rfl

theorem closeObject_eq_ok {input rest : List UInt8} {tail : List UInt8}
    (hinput : unblanked input = 0x7D :: tail) (hclose : closeObject input = .ok () rest) :
    rest = tail := by
  unfold closeObject at hclose
  rw [next_bind, hinput] at hclose
  cases hclose
  rfl

theorem passesWithin_elements {element : Nat → Reader α}
    (helement : forall i input a rest, element i input = .ok a rest -> Passes input rest)
    (bound : Nat) {i : Nat} {input middle rest : List UInt8} {items : List α}
    (hread : elementsFrom element i bound input = .ok items middle)
    (hclose : closeList middle = .ok () rest) :
    PassesWithin (i = 0) .list input rest := by
  induction bound generalizing i input items with
  | zero => cases hread
  | succ bound ih =>
      unfold elementsFrom at hread
      rcases bind_eq_ok.mp hread with ⟨more, entered, hmore, hread⟩
      rcases moreElements_eq_ok hmore with
        ⟨rfl, rfl, tail, htail⟩ | ⟨rfl, hfirst, rfl, b, tail, htail, hb⟩ |
          ⟨rfl, hlater, tail, htail, rfl⟩
      · cases hread
        have hrest := closeList_eq_ok (by rw [unblanked_unblanked]; exact htail) hclose
        rw [hrest]
        exact passesWithin_closed _ htail
      all_goals
        simp only [if_true] at hread
        rcases bind_eq_ok.mp hread with ⟨a, after, ha, hread⟩
        rcases bind_eq_ok.mp hread with ⟨others, last, hothers, hlast⟩
        cases hlast
        have hpasses := helement i _ _ _ (within_eq_ok.mp ha)
        have hwithin : PassesWithin false .list after rest := by
          have h := ih hothers
          simpa using h
      · refine hpasses.before hwithin (length_unblanked_le input) fun bound frames => ?_
        rw [hfirst]
        have hopen : b ≠ Frame.list.closer := hb
        have hunwind := unwind_first htail hopen frames
        rw [← htail] at hunwind
        exact settle_of_entry hunwind rfl _
      · have hlength := length_unblanked_le input
        rw [htail, List.length_cons] at hlength
        have hafter := length_unblanked_le tail
        refine hpasses.before hwithin (by omega) fun bound frames => ?_
        rw [hlater, rounds_unblanked]
        exact settle_of_entry (unwind_comma htail frames) rfl _

theorem nextKey_eq_ok {isFirst : Bool} {input rest : List UInt8} {found : Option String}
    (hfound : nextKey isFirst input = .ok found rest) :
    (found = none ∧ rest = unblanked input ∧ exists tail, unblanked input = 0x7D :: tail) ∨
      exists key quoted, found = some key ∧ stringTail quoted = .ok key rest ∧
        ((isFirst = true ∧ unblanked input = 0x22 :: quoted) ∨
          (isFirst = false ∧
            exists tail, unblanked input = 0x2C :: tail ∧ unblanked tail = 0x22 :: quoted)) := by
  rcases bind_eq_ok.mp (within_eq_ok.mp hfound) with ⟨more, entered, hmore, hkey⟩
  rcases moreMembers_eq_ok hmore with
    ⟨rfl, rfl, htail⟩ | ⟨rfl, rfl, rfl, quoted, hquoted⟩ |
      ⟨rfl, rfl, tail, quoted, htail, rfl, hquoted⟩
  · cases hkey
    exact Or.inl ⟨rfl, rfl, htail⟩
  all_goals
    simp only [if_true, hquoted] at hkey
    rw [advance_bind] at hkey
    rcases bind_eq_ok.mp hkey with ⟨key, middle, hkey, hsome⟩
    cases hsome
  · exact Or.inr ⟨key, quoted, rfl, hkey, Or.inl ⟨rfl, hquoted⟩⟩
  · exact Or.inr ⟨key, quoted, rfl, hkey, Or.inr ⟨rfl, tail, htail, hquoted⟩⟩

theorem entry_of_key {input quoted middle rest : List UInt8} {key : String}
    (hinput : unblanked input = 0x22 :: quoted) (hkey : stringTail quoted = .ok key middle)
    (hcolon : colon middle = .ok () rest) :
    entry .object input = .ok () rest := by
  unfold entry
  simp only
  rw [next_bind, hinput]
  simp only [List.head?_cons, if_true]
  rw [advance_bind, bind_of_ok (skipString_of_stringTail hkey)]
  exact hcolon

theorem length_le_of_colon {input rest : List UInt8} (hcolon : colon input = .ok () rest) :
    rest.length ≤ input.length := by
  have hlength := length_unblanked_le input
  unfold colon at hcolon
  rw [next_bind] at hcolon
  cases hinput : unblanked input with
  | nil =>
      rw [hinput] at hcolon
      cases hcolon
  | cons b tail =>
      rw [hinput, List.length_cons] at hlength
      simp only [hinput, List.head?_cons] at hcolon
      by_cases hb : b = 0x3A
      · rw [if_pos hb] at hcolon
        cases hcolon
        exact Nat.le_of_succ_le hlength
      · rw [if_neg hb] at hcolon
        cases hcolon

theorem passesWithin_members {member : σ → String → Reader σ}
    (hmember : forall state key input state' rest,
      member state key input = .ok state' rest ->
        exists entered, colon input = .ok () entered ∧ Passes entered rest)
    (bound : Nat) {state state' : σ} {isFirst : Bool} {input middle rest : List UInt8}
    (hread : membersFrom member state isFirst bound input = .ok state' middle)
    (hclose : closeObject middle = .ok () rest) :
    PassesWithin isFirst .object input rest := by
  induction bound generalizing state isFirst input with
  | zero => cases hread
  | succ bound ih =>
      unfold membersFrom at hread
      rcases bind_eq_ok.mp hread with ⟨found, named, hfound, hread⟩
      rcases nextKey_eq_ok hfound with
        ⟨rfl, rfl, tail, htail⟩ | ⟨key, quoted, rfl, hkey, hquoted⟩
      · cases hread
        have hrest := closeObject_eq_ok (by rw [unblanked_unblanked]; exact htail) hclose
        rw [hrest]
        exact passesWithin_closed _ htail
      · rcases bind_eq_ok.mp hread with ⟨next, after, hnext, hothers⟩
        rcases hmember _ _ _ _ _ hnext with ⟨entered, hcolon, hpasses⟩
        have hwithin := ih hothers
        have hinput := length_unblanked_le input
        have hshort := length_lt_of_skipString (skipString_of_stringTail hkey)
        have hentered := length_le_of_colon hcolon
        rcases hquoted with ⟨rfl, hquoted⟩ | ⟨rfl, tail, htail, hquoted⟩
        · rw [hquoted, List.length_cons] at hinput
          refine hpasses.before hwithin (by omega) fun bound frames => ?_
          have hopen : (0x22 : UInt8) ≠ Frame.object.closer := by decide
          exact settle_of_entry (unwind_first hquoted hopen frames)
            (entry_of_key rfl hkey hcolon) _
        · have htailed := length_unblanked_le tail
          rw [hquoted, List.length_cons] at htailed
          rw [htail, List.length_cons] at hinput
          refine hpasses.before hwithin (by omega) fun bound frames => ?_
          exact settle_of_entry (unwind_comma htail frames)
            (entry_of_key hquoted hkey hcolon) _

/-!
# Values
-/

theorem opening_of_word {letters : List UInt8} {found a : Found} {b : UInt8}
    {tail rest : List UInt8}
    (hread : (do advance 1; word letters; pure (some a) : Reader (Option Found)) (b :: tail) =
      .ok (some found) rest) :
    (do advance 1; word letters; pure none : Reader (Option Frame)) (b :: tail) = .ok none rest ∧
      rest.length ≤ tail.length := by
  rw [advance_bind] at hread ⊢
  rcases bind_eq_ok.mp hread with ⟨_, middle, hword, hread⟩
  cases hread
  rw [bind_of_ok hword]
  exact ⟨rfl, length_le_of_word hword⟩

theorem opening_of_scalar {b : UInt8} {found : Found} {input tail rest : List UInt8}
    (hinput : unblanked input = b :: tail) (hread : scalar b (b :: tail) = .ok (some found) rest) :
    opening input = .ok none rest ∧ rest.length ≤ tail.length := by
  unfold scalar at hread
  unfold opening
  rw [next_bind, hinput]
  simp only [List.head?_cons]
  by_cases hnull : b = 0x6E
  · rw [if_pos hnull] at hread ⊢
    exact opening_of_word hread
  · rw [if_neg hnull] at hread ⊢
    by_cases htrue : b = 0x74
    · rw [if_pos htrue] at hread ⊢
      exact opening_of_word hread
    · rw [if_neg htrue] at hread ⊢
      by_cases hfalse : b = 0x66
      · rw [if_pos hfalse] at hread ⊢
        exact opening_of_word hread
      · rw [if_neg hfalse] at hread ⊢
        by_cases hminus : b = 0x2D
        · rw [if_pos hminus, advance_bind] at hread ⊢
          rcases bind_eq_ok.mp hread with ⟨n, middle, hn, hread⟩
          cases hread
          have hskip := Numeral.skip_of_read hn
          rw [bind_of_ok hskip]
          exact ⟨rfl, Nat.le_of_lt (Numeral.length_lt_of_skip hskip)⟩
        · rw [if_neg hminus] at hread ⊢
          by_cases hdigit : Ascii.isDigit b = true
          · rw [if_pos hdigit] at hread ⊢
            rcases bind_eq_ok.mp hread with ⟨n, middle, hn, hread⟩
            cases hread
            have hskip := Numeral.skip_of_read hn
            rw [bind_of_ok hskip]
            exact ⟨rfl, Nat.le_of_lt_succ (Numeral.length_lt_of_skip hskip)⟩
          · rw [if_neg hdigit] at hread ⊢
            by_cases hquote : b = 0x22
            · rw [if_pos hquote, advance_bind] at hread ⊢
              rcases bind_eq_ok.mp hread with ⟨s, middle, hs, hread⟩
              cases hread
              have hskip := skipString_of_stringTail hs
              rw [bind_of_ok hskip]
              exact ⟨rfl, Nat.le_of_lt (length_lt_of_skipString hskip)⟩
            · rw [if_neg hquote] at hread
              cases hread

theorem opening_of_container {frame : Frame} {b : UInt8} {input tail : List UInt8}
    (hinput : unblanked input = b :: tail)
    (hframe : b = 0x5B ∧ frame = .list ∨ b = 0x7B ∧ frame = .object) :
    opening input = .ok (some frame) tail := by
  unfold opening
  rw [next_bind, hinput]
  rcases hframe with ⟨rfl, rfl⟩ | ⟨rfl, rfl⟩ <;> rfl

end Skip

namespace Reader

open Skip

theorem bind_ne_none {reader : Reader α} {next : α → Reader (Option β)}
    (hnext : forall a input rest, next a input ≠ .ok none rest) (input rest : List UInt8) :
    (reader >>= next) input ≠ .ok none rest := by
  intro h
  rcases bind_eq_ok.mp h with ⟨a, middle, _, hnone⟩
  exact hnext a middle rest hnone

theorem scalar_eq_none {b : UInt8} {input rest : List UInt8}
    (hread : scalar b input = .ok none rest) : rest = input := by
  have hnone : forall {found : Found} (input rest : List UInt8),
      (pure (some found) : Reader (Option Found)) input ≠ .ok none rest := by
    intro found input rest h
    cases h
  unfold scalar at hread
  split at hread
  · exact absurd hread (bind_ne_none (fun _ => bind_ne_none fun _ => hnone) _ _)
  split at hread
  · exact absurd hread (bind_ne_none (fun _ => bind_ne_none fun _ => hnone) _ _)
  split at hread
  · exact absurd hread (bind_ne_none (fun _ => bind_ne_none fun _ => hnone) _ _)
  split at hread
  · exact absurd hread (bind_ne_none (fun _ => bind_ne_none fun _ => hnone) _ _)
  split at hread
  · exact absurd hread (bind_ne_none (fun _ => hnone) _ _)
  split at hread
  · exact absurd hread (bind_ne_none (fun _ => bind_ne_none fun _ => hnone) _ _)
  · cases hread
    rfl

theorem passes_of_valueOf {list : Reader (List Value)} {object : Reader Object}
    (hlist : forall tail items rest, list (0x5B :: tail) = .ok items rest ->
      PassesWithin true .list tail rest)
    (hobject : forall tail members rest, object (0x7B :: tail) = .ok members rest ->
      PassesWithin true .object tail rest)
    {input rest : List UInt8} {v : Value} (hread : valueOf list object input = .ok v rest) :
    Passes input rest := by
  have hlength := length_unblanked_le input
  unfold valueOf onValue at hread
  rw [next_bind] at hread
  cases hinput : unblanked input with
  | nil =>
      rw [hinput] at hread
      cases hread
  | cons b tail =>
      rw [hinput, List.length_cons] at hlength
      simp only [hinput, List.head?_cons] at hread
      rcases bind_eq_ok.mp hread with ⟨found, middle, hscalar, hread⟩
      cases found with
      | some found =>
          cases hread
          rcases opening_of_scalar hinput hscalar with ⟨hopening, hshort⟩
          exact passes_of_scalar hopening (by omega)
      | none =>
          rw [scalar_eq_none hscalar] at hread
          by_cases hbracket : b = 0x5B
          · simp only [if_pos hbracket] at hread
            rcases map_eq_ok.mp hread with ⟨items, hitems, _⟩
            rw [hbracket] at hitems
            exact passes_of_container (opening_of_container hinput (Or.inl ⟨hbracket, rfl⟩))
              (by omega) (hlist tail items rest hitems)
          · simp only [if_neg hbracket] at hread
            by_cases hbrace : b = 0x7B
            · simp only [if_pos hbrace] at hread
              rcases map_eq_ok.mp hread with ⟨members, hmembers, _⟩
              rw [hbrace] at hmembers
              exact passes_of_container (opening_of_container hinput (Or.inr ⟨hbrace, rfl⟩))
                (by omega) (hobject tail members rest hmembers)
            · simp only [if_neg hbrace] at hread
              cases hread

theorem passes_of_value (depth : Nat) {input rest : List UInt8} {v : Value}
    (hread : value depth input = .ok v rest) : Passes input rest := by
  induction depth generalizing input rest v with
  | zero =>
      refine passes_of_valueOf ?_ ?_ hread <;>
        · intro tail found rest h
          cases h
  | succ depth ih =>
      refine passes_of_valueOf ?_ ?_ hread
      · intro tail items rest hitems
        unfold listBody at hitems
        rw [advance_bind] at hitems
        rcases enclosed_eq_ok.mp hitems with ⟨middle, helements, hclose⟩
        exact passesWithin_elements (fun _ _ _ _ h => ih h) _ helements hclose
      · intro tail members rest hmembers
        unfold objectBody at hmembers
        rw [advance_bind] at hmembers
        rcases enclosed_eq_ok.mp hmembers with ⟨middle, hmembers, hclose⟩
        refine passesWithin_members ?_ _ hmembers hclose
        intro o key input o' rest hmember
        rcases bind_eq_ok.mp hmember with ⟨v, last, hvalue, hinsert⟩
        cases hinsert
        rcases bind_eq_ok.mp hvalue with ⟨_, entered, hcolon, hvalue⟩
        exact ⟨entered, hcolon, ih (within_eq_ok.mp hvalue)⟩

/-- What is read as a value is passed over with the same rest. -/
theorem skip_of_value {depth : Nat} {input rest : List UInt8} {v : Value}
    (hread : value depth input = .ok v rest) : skip input = .ok () rest :=
  skip_of_passes (passes_of_value depth hread)

end Reader
end Json
end Gatekeeper
