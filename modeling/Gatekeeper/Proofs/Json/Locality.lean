import Gatekeeper.Proofs.Json.Records
import Gatekeeper.Proofs.Json.Spellings

/-!
# What a reading depends on

A reading depends on the bytes that it takes and on the byte that follows them, and
one that ends with a closing mark on nothing that follows.
-/

namespace Gatekeeper
namespace Json
namespace Reader

open Skip (Frame)

/-!
# Readings that look no further than the next byte
-/

/-- The reader takes some bytes, and takes them in the same way before the same next byte. -/
def Local (reader : Reader α) : Prop :=
  forall ⦃input a rest⦄, reader input = .ok a rest -> exists taken, input = taken ++ rest ∧
    forall other, other.head? = rest.head? -> reader (taken ++ other) = .ok a other

/-- The reader takes at least one byte, and what it takes it takes in the same way before anything
that fits. -/
def Grasps (Fits : List UInt8 → Prop) (reader : Reader α) : Prop :=
  forall ⦃input a rest⦄, reader input = .ok a rest -> exists taken, taken ≠ [] ∧
    input = taken ++ rest ∧ forall other, Fits other -> reader (taken ++ other) = .ok a other

/-- The reader takes nothing, and does not look at what there is. -/
def Still (reader : Reader α) : Prop :=
  forall ⦃input a rest⦄, reader input = .ok a rest -> rest = input ∧
    forall other, reader other = .ok a other

def Anything (_ : List UInt8) : Prop :=
  True

variable {Fits : List UInt8 → Prop}

theorem head?_append {taken rest other : List UInt8} (hhead : other.head? = rest.head?) :
    (taken ++ other).head? = (taken ++ rest).head? := by
  cases taken with
  | nil => exact hhead
  | cons b taken => rfl

theorem head?_of_taken {taken middle rest : List UInt8} (hsome : taken ≠ [])
    (hmiddle : middle = taken ++ rest) (other : List UInt8) :
    (taken ++ other).head? = middle.head? := by
  rcases List.exists_cons_of_ne_nil hsome with ⟨b, more, rfl⟩
  rw [hmiddle]
  rfl

theorem ended_of_head {rest other : List UInt8} (hhead : other.head? = rest.head?)
    (hended : Ended rest) : Ended other := by
  intro b hb
  exact hended b (hhead ▸ hb)

theorem still_pure (a : α) : Still (pure a : Reader α) := by
  intro input b rest hread
  cases hread
  exact ⟨rfl, fun other => rfl⟩

theorem still_fail (fault : Fault) : Still (fail fault : Reader α) := by
  intro input a rest hread
  cases hread

theorem Still.local {reader : Reader α} (hstill : Still reader) : Local reader := by
  intro input a rest hread
  rcases hstill hread with ⟨rfl, hsame⟩
  exact ⟨[], rfl, fun other _ => hsame other⟩

theorem grasps_fail (fault : Fault) : Grasps Fits (fail fault : Reader α) := by
  intro input a rest hread
  cases hread

theorem Grasps.local {reader : Reader α} (hreader : Grasps Anything reader) : Local reader := by
  intro input a rest hread
  rcases hreader hread with ⟨taken, _, hinput, hsame⟩
  exact ⟨taken, hinput, fun other _ => hsame other trivial⟩

theorem Local.bind {reader : Reader α} {next : α → Reader β} (hreader : Local reader)
    (hnext : forall a, Local (next a)) : Local (reader >>= next) := by
  intro input b rest hread
  rcases bind_eq_ok.mp hread with ⟨a, middle, hfirst, hsecond⟩
  rcases hreader hfirst with ⟨one, hinput, hone⟩
  rcases hnext a hsecond with ⟨two, hmiddle, htwo⟩
  refine ⟨one ++ two, by rw [hinput, hmiddle, List.append_assoc], fun other hother => ?_⟩
  rw [List.append_assoc, bind_of_ok (hone _ (by rw [hmiddle]; exact head?_append hother))]
  exact htwo other hother

theorem Local.before {reader : Reader α} {next : α → Reader β} (hreader : Local reader)
    (hnext : forall a, Grasps Fits (next a)) : Grasps Fits (reader >>= next) := by
  intro input b rest hread
  rcases bind_eq_ok.mp hread with ⟨a, middle, hfirst, hsecond⟩
  rcases hreader hfirst with ⟨one, hinput, hone⟩
  rcases hnext a hsecond with ⟨two, hsome, hmiddle, htwo⟩
  refine ⟨one ++ two, List.append_ne_nil_of_right_ne_nil one hsome,
    by rw [hinput, hmiddle, List.append_assoc], fun other hother => ?_⟩
  rw [List.append_assoc, bind_of_ok (hone _ (head?_of_taken hsome hmiddle other))]
  exact htwo other hother

theorem Grasps.bind_of_yields {reader : Reader α} {next : α → Reader β} {property : α → Prop}
    (hreader : Grasps Fits reader) (hyields : Yields property reader)
    (hnext : forall a, property a -> Still (next a)) : Grasps Fits (reader >>= next) := by
  intro input b rest hread
  rcases bind_eq_ok.mp hread with ⟨a, middle, hfirst, hsecond⟩
  rcases hreader hfirst with ⟨taken, hsome, hinput, hsame⟩
  rcases hnext a (hyields _ _ _ hfirst) hsecond with ⟨rfl, hstill⟩
  refine ⟨taken, hsome, hinput, fun other hother => ?_⟩
  rw [bind_of_ok (hsame other hother)]
  exact hstill other

theorem Grasps.bind {reader : Reader α} {next : α → Reader β} (hreader : Grasps Fits reader)
    (hnext : forall a, Still (next a)) : Grasps Fits (reader >>= next) :=
  hreader.bind_of_yields (Yields.of_forall fun _ => trivial) fun a (_ : True) => hnext a

theorem Grasps.map {reader : Reader α} (hreader : Grasps Fits reader) (f : α → β) :
    Grasps Fits (f <$> reader) := by
  intro input b rest hread
  rcases map_eq_ok.mp hread with ⟨a, ha, hb⟩
  rcases hreader ha with ⟨taken, hsome, hinput, hsame⟩
  exact ⟨taken, hsome, hinput, fun other hother => map_eq_ok.mpr ⟨a, hsame other hother, hb⟩⟩

theorem Grasps.within {reader : Reader α} (hreader : Grasps Fits reader) (step : Step) :
    Grasps Fits (within step reader) := by
  intro input a rest hread
  rcases hreader (within_eq_ok.mp hread) with ⟨taken, hsome, hinput, hsame⟩
  exact ⟨taken, hsome, hinput, fun other hother => within_eq_ok.mpr (hsame other hother)⟩

theorem Local.within {reader : Reader α} (hreader : Local reader) (step : Step) :
    Local (within step reader) := by
  intro input a rest hread
  rcases hreader (within_eq_ok.mp hread) with ⟨taken, hinput, hsame⟩
  exact ⟨taken, hinput, fun other hother => within_eq_ok.mpr (hsame other hother)⟩

/-!
# Marks
-/

theorem local_advance : Local (advance 1) := by
  intro input a rest hread
  cases hread
  cases input with
  | nil =>
      refine ⟨[], rfl, fun other hother => ?_⟩
      rw [List.head?_eq_none_iff.mp hother]
      rfl
  | cons b rest => exact ⟨[b], rfl, fun other _ => rfl⟩

theorem unblanked_of_head {rest other : List UInt8} (hhead : other.head? = (unblanked rest).head?) :
    unblanked other = other := by
  cases other with
  | nil => rfl
  | cons b more =>
      have hfirst := List.head?_dropWhile_not Ascii.isBlank rest
      rw [show (rest.dropWhile Ascii.isBlank).head? = some b from hhead.symm] at hfirst
      exact unblanked_cons hfirst more

theorem local_next : Local next := by
  intro input a rest hread
  cases hread
  rcases exists_blanks input with ⟨blanks, hblanks, hinput⟩
  refine ⟨blanks, hinput, fun other hother => ?_⟩
  have hnext : unblanked (blanks ++ other) = other := by
    rw [unblanked_append hblanks]
    exact unblanked_of_head hother
  show EStateM.Result.ok (unblanked (blanks ++ other)).head? (unblanked (blanks ++ other)) = _
  rw [hnext, hother]

theorem grasps_of_mark {reader : Reader Unit} {b : UInt8} (hsolid : Ascii.isBlank b = false)
    (hreader : forall {input rest}, reader input = .ok () rest <-> unblanked input = b :: rest) :
    Grasps Fits reader := by
  intro input a rest hread
  rcases exists_blanks input with ⟨blanks, hblanks, hinput⟩
  rw [hreader.mp hread] at hinput
  refine ⟨blanks ++ [b], List.append_ne_nil_of_right_ne_nil _ (List.cons_ne_nil _ _), ?_,
    fun other _ => hreader.mpr ?_⟩
  · rw [List.append_assoc]
    exact hinput
  · rw [List.append_assoc]
    exact unblanked_append_cons hblanks hsolid other

theorem grasps_colon : Grasps Fits colon :=
  grasps_of_mark (by decide) colon_eq_ok_iff

theorem grasps_closeObject : Grasps Fits closeObject :=
  grasps_of_mark (by decide) closeObject_eq_ok_iff

theorem grasps_closeList : Grasps Fits closeList :=
  grasps_of_mark (by decide) closeList_eq_ok_iff

theorem grasps_word {letters : List UInt8} (hsome : letters ≠ []) : Grasps Fits (word letters) := by
  intro input a rest hread
  exact ⟨letters, hsome, word_eq_ok_iff.mp hread, fun other _ => word_eq_ok_iff.mpr rfl⟩

theorem grasps_stringTail : Grasps Fits stringTail := by
  intro input s rest hread
  rcases stringTail_eq_ok_iff.mp hread with ⟨text, hspells, hinput⟩
  refine ⟨text ++ [0x22], List.append_ne_nil_of_right_ne_nil _ (List.cons_ne_nil _ _), ?_,
    fun other _ => stringTail_eq_ok_iff.mpr ⟨text, hspells, ?_⟩⟩
  · rw [hinput, List.append_assoc]
    rfl
  · rw [List.append_assoc]
    rfl

theorem local_moreElements (isFirst : Bool) : Local (moreElements isFirst) := by
  unfold moreElements
  refine local_next.bind fun found => ?_
  cases found with
  | none => exact (still_fail _).local
  | some b =>
      simp only
      split
      · exact (still_pure _).local
      split
      · exact (still_pure _).local
      split
      · refine local_advance.bind fun _ => local_next.bind fun found => ?_
        cases found with
        | none => exact (still_fail _).local
        | some c =>
            simp only
            split
            · exact (still_fail _).local
            · exact (still_pure _).local
      · exact (still_fail _).local

theorem local_moreMembers (isFirst : Bool) : Local (moreMembers isFirst) := by
  unfold moreMembers
  refine local_next.bind fun found => ?_
  cases found with
  | none => exact (still_fail _).local
  | some b =>
      simp only
      split
      · exact (still_pure _).local
      split
      · split
        · exact (still_pure _).local
        · exact (still_fail _).local
      split
      · refine local_advance.bind fun _ => local_next.bind fun found => ?_
        cases found with
        | none => exact (still_fail _).local
        | some c =>
            simp only
            split
            · exact (still_pure _).local
            split
            · exact (still_fail _).local
            · exact (still_fail _).local
      · exact (still_fail _).local

theorem local_nextKey (isFirst : Bool) : Local (nextKey isFirst) := by
  refine Local.within ((local_moreMembers isFirst).bind fun more => ?_) _
  cases more with
  | true =>
      exact local_advance.bind fun _ => grasps_stringTail.local.bind fun _ => (still_pure _).local
  | false => exact (still_pure _).local

end Reader

/-!
# Numerals
-/

namespace Numeral

open Reader

variable {negative : Bool} {parts : Parts} {input rest : List UInt8} {n : Number}

def ReadsAlike (reader : Reader Number) (input rest : List UInt8) (n : Number) : Prop :=
  exists taken, input = taken ++ rest ∧ forall other, Ended other ->
    reader (taken ++ other) = .ok n other

theorem result_alike (hread : result negative parts input = .ok n rest) (other : List UInt8) :
    result negative parts other = .ok n other := by
  unfold result at hread ⊢
  cases hnumber : parts.number? negative with
  | none =>
      rw [hnumber] at hread
      cases hread
  | some m =>
      rw [hnumber] at hread
      cases hread
      rfl

theorem exponent_alike (hread : exponent negative parts input = .ok n rest) :
    ReadsAlike (exponent negative parts) input rest n := by
  rcases exists_sign input with ⟨sign, hsign, hinput, hbelow⟩
  unfold exponent at hread
  split at hread
  · cases hread
  · rename_i below b tail heq
    rw [heq] at hinput hbelow
    by_cases hdigit : Ascii.isDigit b = true
    · rcases digits_eq (b :: tail) with ⟨run, after, hrun, htail, hdigits⟩
      simp only [if_pos hdigit, hrun] at hread
      have hrest : rest = after := by
        split at hread
        · split at hread
          · cases hread
          · cases hread
            rfl
        · exact result_eq_ok hread
      refine ⟨sign ++ run, by rw [hinput, hrest, List.append_assoc, ← htail],
        fun other hother => ?_⟩
      have hagain := digits_of_ended hdigits fun c hc => (hother c hc).digit
      cases run with
      | nil =>
          have hfirst := congrArg Prod.fst hrun
          simp only [digits, List.takeWhile_cons_of_pos hdigit] at hfirst
          cases hfirst
      | cons d ds =>
          have hd : Ascii.isDigit d = true := hdigits d List.mem_cons_self
          rw [List.append_assoc, List.cons_append, exponent,
            exponentSign_of_digit hsign hd (ds ++ other), ← hbelow]
          rw [List.cons_append] at hagain
          simp only [if_pos hd, hagain]
          split at hread
          · rename_i hmost
            rw [if_pos hmost]
            split at hread
            · cases hread
            · rename_i hzero
              rw [if_neg hzero]
              cases hread
              rfl
          · rename_i hmost
            rw [if_neg hmost]
            exact result_alike hread other
    · rw [if_neg hdigit] at hread
      cases hread

theorem exponentOrEnd_alike (hread : exponentOrEnd negative parts input = .ok n rest) :
    ReadsAlike (exponentOrEnd negative parts) input rest n := by
  have hend : forall {input : List UInt8}, result negative parts input = .ok n rest ->
      ReadsAlike (exponentOrEnd negative parts) input rest n := by
    intro input hresult
    refine ⟨[], (result_eq_ok hresult).symm, fun other hother => ?_⟩
    cases other with
    | nil => exact result_alike hresult []
    | cons b more =>
        rw [List.nil_append, exponentOrEnd]
        simp only [(hother b rfl).exponent, Bool.false_eq_true, if_false]
        exact result_alike hresult _
  unfold exponentOrEnd at hread
  cases input with
  | nil => exact hend hread
  | cons b tail =>
      simp only at hread
      by_cases hmark : isExponentMark b = true
      · rw [if_pos hmark] at hread
        rcases exponent_alike hread with ⟨taken, rfl, hsame⟩
        refine ⟨b :: taken, rfl, fun other hother => ?_⟩
        rw [List.cons_append, exponentOrEnd]
        simp only [if_pos hmark]
        exact hsame other hother
      · rw [if_neg hmark] at hread
        exact hend hread

theorem fraction_alike (hread : fraction negative parts input = .ok n rest) :
    ReadsAlike (fraction negative parts) input rest n := by
  rcases digits_eq input with ⟨run, after, hrun, hinput, hdigits⟩
  unfold fraction at hread
  simp only [hrun] at hread
  cases run with
  | nil =>
      simp only [List.isEmpty_nil, if_true] at hread
      split at hread <;> cases hread
  | cons d ds =>
      simp only [List.isEmpty_cons, Bool.false_eq_true, if_false] at hread
      have hskip := skipExponentOrEnd_of_exponentOrEnd hread
      rcases skipExponentOrEnd_eq_ok hskip with ⟨text, htext, hafter⟩
      rcases exponentOrEnd_alike hread with ⟨taken, hsplit, hsame⟩
      have htaken : taken = text := List.append_cancel_right (hsplit.symm.trans hafter)
      refine ⟨d :: ds ++ taken, by rw [hinput, hsplit, List.append_assoc], fun other hother => ?_⟩
      have hstop : forall c, (taken ++ other).head? = some c -> Ascii.isDigit c = false :=
        fun c hc => head_not_digit Fraction.none (htaken ▸ htext) hother c hc
      have hagain := digits_of_ended hdigits hstop
      rw [List.append_assoc, fraction]
      simp only [hagain, List.isEmpty_cons, Bool.false_eq_true, if_false]
      exact hsame other hother

theorem afterWhole_alike {significand dropped : Nat}
    (hread : afterWhole negative significand dropped input = .ok n rest) :
    ReadsAlike (afterWhole negative significand dropped) input rest n := by
  have hend : forall {input : List UInt8},
      (if dropped = 0 then .ok (ofDigits negative significand) input
        else result negative ⟨significand, dropped⟩ input) = EStateM.Result.ok n rest ->
      ReadsAlike (afterWhole negative significand dropped) input rest n := by
    intro input hresult
    have hinput : input = rest := by
      split at hresult
      · cases hresult
        rfl
      · exact (result_eq_ok hresult).symm
    refine ⟨[], hinput, fun other hother => ?_⟩
    have hother : afterWhole negative significand dropped other =
        if dropped = 0 then .ok (ofDigits negative significand) other
          else result negative ⟨significand, dropped⟩ other := by
      cases other with
      | nil => rfl
      | cons b more =>
          simp only [afterWhole, if_neg (hother b rfl).point, (hother b rfl).exponent,
            Bool.false_eq_true, if_false]
    rw [List.nil_append, hother]
    split at hresult
    · rename_i hdropped
      rw [if_pos hdropped]
      cases hresult
      rfl
    · rename_i hdropped
      rw [if_neg hdropped]
      exact result_alike hresult other
  unfold afterWhole at hread
  cases input with
  | nil => exact hend hread
  | cons b tail =>
      simp only at hread
      by_cases hpoint : b = 0x2E
      · rw [if_pos hpoint] at hread
        rcases fraction_alike hread with ⟨taken, rfl, hsame⟩
        refine ⟨b :: taken, rfl, fun other hother => ?_⟩
        rw [List.cons_append, afterWhole]
        simp only [if_pos hpoint]
        exact hsame other hother
      · rw [if_neg hpoint] at hread
        by_cases hmark : isExponentMark b = true
        · rw [if_pos hmark] at hread
          rcases exponent_alike hread with ⟨taken, rfl, hsame⟩
          refine ⟨b :: taken, rfl, fun other hother => ?_⟩
          rw [List.cons_append, afterWhole]
          simp only [if_neg hpoint, if_pos hmark]
          exact hsame other hother
        · rw [if_neg hmark] at hread
          exact hend hread

theorem afterWhole_head {significand dropped : Nat} {taken : List UInt8}
    (hread : afterWhole negative significand dropped input = .ok n rest)
    (hinput : input = taken ++ rest) {other : List UInt8} (hother : Ended other) :
    forall b, (taken ++ other).head? = some b -> Ascii.isDigit b = false := by
  rcases skipAfterWhole_eq_ok (skipAfterWhole_of_afterWhole hread) with
    ⟨fraction, exponent, hfraction, hexponent, hsplit⟩
  have htaken : taken = fraction ++ exponent := by
    rw [hinput, ← List.append_assoc] at hsplit
    exact List.append_cancel_right hsplit
  rw [htaken, List.append_assoc]
  exact head_not_digit hfraction hexponent hother

theorem grasps_read : Grasps Ended (read negative) := by
  intro input n rest hread
  unfold read at hread
  cases input with
  | nil => cases hread
  | cons b tail =>
      simp only at hread
      by_cases hzero : b = 0x30
      · rw [if_pos hzero] at hread
        split at hread
        · cases hread
        · rcases afterWhole_alike hread with ⟨taken, hinput, hsame⟩
          refine ⟨b :: taken, List.cons_ne_nil _ _, congrArg (b :: ·) hinput,
            fun other hother => ?_⟩
          have hhead := afterWhole_head hread hinput hother
          have hplain : (taken ++ other).head?.any Ascii.isDigit = false := by
            cases hfirst : (taken ++ other).head? with
            | none => rfl
            | some c => rw [Option.any_some, hhead c hfirst]
          rw [List.cons_append, read]
          simp only [if_pos hzero, hplain, Bool.false_eq_true, if_false]
          exact hsame other hother
      · rw [if_neg hzero] at hread
        by_cases hdigit : Ascii.isDigit b = true
        · rcases digits_eq (b :: tail) with ⟨run, after, hrun, htail, hdigits⟩
          simp only [if_pos hdigit, hrun] at hread
          rcases afterWhole_alike hread with ⟨taken, hinput, hsame⟩
          have hfirst : exists ds, run = b :: ds := by
            have hfirst := congrArg Prod.fst hrun
            simp only [digits, List.takeWhile_cons_of_pos hdigit] at hfirst
            exact ⟨_, hfirst.symm⟩
          rcases hfirst with ⟨ds, rfl⟩
          refine ⟨b :: ds ++ taken, List.cons_ne_nil _ _, ?_, fun other hother => ?_⟩
          · rw [htail, hinput, List.append_assoc]
          · have hagain := digits_of_ended hdigits (afterWhole_head hread hinput hother)
            rw [List.cons_append] at hagain
            rw [List.append_assoc, List.cons_append, read]
            simp only [if_neg hzero, if_pos hdigit, hagain]
            exact hsame other hother
        · rw [if_neg hdigit] at hread
          cases hread

end Numeral

namespace Reader

variable {Fits : List UInt8 → Prop}

/-!
# Scalars
-/

theorem scalar_cases (b : UInt8) :
    (Grasps Ended (scalar b) ∧ Yields (fun found => found.isSome = true) (scalar b)) ∨
      scalar b = pure none := by
  have hsome : forall {α : Type} {reader : Reader α} (f : α → Found), Grasps Ended reader ->
      Grasps Ended (reader >>= fun a => pure (some (f a))) ∧
        Yields (fun found => found.isSome = true) (reader >>= fun a => pure (some (f a))) :=
    fun f hreader => ⟨hreader.bind fun _ => still_pure _, yields_bind fun _ => yields_pure rfl⟩
  have hafter : forall {reader : Reader (Option Found)}, Grasps Ended reader ∧
      Yields (fun found => found.isSome = true) reader ->
      Grasps Ended (advance 1 >>= fun _ => reader) ∧
        Yields (fun found => found.isSome = true) (advance 1 >>= fun _ => reader) :=
    fun h => ⟨local_advance.before fun _ => h.left, yields_bind fun _ => h.right⟩
  unfold scalar
  split
  · exact Or.inl (hafter (hsome (fun _ => .null) (grasps_word (List.cons_ne_nil _ _))))
  split
  · exact Or.inl (hafter (hsome (fun _ => .bool true) (grasps_word (List.cons_ne_nil _ _))))
  split
  · exact Or.inl (hafter (hsome (fun _ => .bool false) (grasps_word (List.cons_ne_nil _ _))))
  split
  · exact Or.inl (hafter (hsome .number Numeral.grasps_read))
  split
  · exact Or.inl (hsome .number Numeral.grasps_read)
  split
  · exact Or.inl (hafter (hsome .string grasps_stringTail))
  · exact Or.inr rfl

theorem grasps_mismatch (expected : String) (b : UInt8) :
    Grasps Fits (mismatch expected b : Reader α) := by
  intro input a rest hread
  exact absurd hread not_mismatch

theorem grasps_onValue {read : UInt8 → Reader α} (hread : forall b, Grasps Fits (read b)) :
    Grasps Fits (onValue read) := by
  refine local_next.before fun found => ?_
  cases found with
  | none => exact grasps_fail _
  | some b => exact hread b

theorem grasps_string : Grasps Fits string := by
  refine grasps_onValue fun b => ?_
  split
  · exact local_advance.before fun _ => grasps_stringTail
  · exact grasps_mismatch _ b

theorem grasps_number (expected : String) : Grasps Ended (number expected) := by
  refine grasps_onValue fun b => ?_
  split
  · exact local_advance.before fun _ => Numeral.grasps_read
  split
  · exact Numeral.grasps_read
  · exact grasps_mismatch expected b

theorem grasps_integerWithin (least most : Int) (expected : String) :
    Grasps Ended (integerWithin least most expected) := by
  refine (grasps_number expected).bind fun found => ?_
  cases found with
  | float x => exact still_fail _
  | integer n =>
      simp only
      split
      · exact still_pure n
      · exact still_fail _

theorem grasps_uint64 : Grasps Ended uint64 :=
  (grasps_integerWithin _ _ _).map _

theorem grasps_optional {reader : Reader α} (hreader : Grasps Fits reader) :
    Grasps Fits (optional reader) := by
  refine local_next.before fun found => ?_
  split
  · exact local_advance.before fun _ =>
      Grasps.bind (grasps_word (List.cons_ne_nil _ _)) fun _ => still_pure _
  · exact hreader.map some

theorem grasps_skip : Grasps Ended skip := by
  intro input a rest hread
  rcases (extent_of_skip hread).value with ⟨blanks, v, hblanks, hv, hinput⟩
  rcases hv.exists_first with ⟨b, more, hfirst, _⟩
  refine ⟨blanks ++ v, ?_, by rw [hinput, List.append_assoc], fun other hother => ?_⟩
  · exact List.append_ne_nil_of_right_ne_nil blanks (hfirst ▸ List.cons_ne_nil b more)
  · rw [List.append_assoc]
    exact skip_of_isValue hblanks hv hother

/-!
# Containers
-/

def LocalWithin (reader : Reader α) : Prop :=
  forall ⦃input a rest⦄, reader input = .ok a rest -> Ended rest ->
    exists taken, input = taken ++ rest ∧
      forall other, other.head? = rest.head? -> reader (taken ++ other) = .ok a other

theorem Local.withinContainer {reader : Reader α} (hreader : Local reader) : LocalWithin reader :=
  fun _ _ _ hread _ => hreader hread

theorem ended_of_mark {input rest : List UInt8} {b : UInt8} (hinput : unblanked input = b :: rest)
    (hends : Numeral.Ends b) : Ended input := by
  rcases exists_blanks input with ⟨blanks, hblanks, hsplit⟩
  rw [hsplit, hinput]
  exact ended_append hblanks (ended_cons hends rest)

theorem grasps_enclosed {body : Reader α} {closing : Reader Unit} (hbody : LocalWithin body)
    (hclosing : Grasps Anything closing)
    (hended : forall input rest, closing input = .ok () rest -> Ended input) :
    Grasps Fits (enclosed body closing) := by
  intro input a rest hread
  rcases enclosed_eq_ok.mp hread with ⟨middle, hfirst, hclose⟩
  rcases hbody hfirst (hended middle rest hclose) with ⟨one, hinput, hone⟩
  rcases hclosing hclose with ⟨two, hsome, hmiddle, htwo⟩
  refine ⟨one ++ two, List.append_ne_nil_of_right_ne_nil one hsome,
    by rw [hinput, hmiddle, List.append_assoc], fun other _ => ?_⟩
  rw [List.append_assoc]
  exact enclosed_eq_ok.mpr
    ⟨two ++ other, hone _ (head?_of_taken hsome hmiddle other), htwo other trivial⟩

theorem ended_of_closeList {input rest : List UInt8} (hclose : closeList input = .ok () rest) :
    Ended input :=
  ended_of_mark (closeList_eq_ok_iff.mp hclose) ⟨rfl, by decide, rfl⟩

theorem ended_of_closeObject {input rest : List UInt8} (hclose : closeObject input = .ok () rest) :
    Ended input :=
  ended_of_mark (closeObject_eq_ok_iff.mp hclose) ⟨rfl, by decide, rfl⟩

theorem ended_of_moreElements {input rest : List UInt8} {more : Bool}
    (hmore : moreElements false input = .ok more rest) : Ended input := by
  rcases Skip.moreElements_eq_ok hmore with
    ⟨_, _, tail, htail⟩ | ⟨_, hfirst, _⟩ | ⟨_, _, tail, htail, _⟩
  · exact ended_of_mark htail ⟨rfl, by decide, rfl⟩
  · cases hfirst
  · exact ended_of_mark htail ⟨rfl, by decide, rfl⟩

theorem ended_of_nextKey {input rest : List UInt8} {found : Option String}
    (hfound : nextKey false input = .ok found rest) : Ended input := by
  rcases Skip.nextKey_eq_ok hfound with
    ⟨_, _, tail, htail⟩ | ⟨key, quoted, _, _, ⟨hfirst, _⟩ | ⟨_, tail, htail, _⟩⟩
  · exact ended_of_mark htail ⟨rfl, by decide, rfl⟩
  · cases hfirst
  · exact ended_of_mark htail ⟨rfl, by decide, rfl⟩

theorem ended_of_elementsFrom {element : Nat → Reader α} {bound i : Nat} {input rest : List UInt8}
    {items : List α} (hread : elementsFrom element (i + 1) bound input = .ok items rest) :
    Ended input := by
  cases bound with
  | zero => cases hread
  | succ bound =>
      rcases bind_eq_ok.mp hread with ⟨more, next, hnext, _⟩
      rw [decide_eq_false (Nat.succ_ne_zero i)] at hnext
      exact ended_of_moreElements hnext

theorem ended_of_membersFrom {member : σ → String → Reader σ} {state state' : σ} {bound : Nat}
    {input rest : List UInt8}
    (hread : membersFrom member state false bound input = .ok state' rest) : Ended input := by
  cases bound with
  | zero => cases hread
  | succ bound =>
      rcases bind_eq_ok.mp hread with ⟨found, named, hfound, _⟩
      exact ended_of_nextKey hfound

/-- The elements of a list are read alike whatever follows them, within any bound that suffices. -/
theorem elementsFrom_alike {element : Nat → Reader α}
    (helement : forall i, Grasps Ended (element i)) (bound : Nat) {i : Nat}
    {input rest : List UInt8} {items : List α}
    (hread : elementsFrom element i bound input = .ok items rest) :
    exists taken, input = taken ++ rest ∧ forall other, other.head? = rest.head? ->
      forall enough, taken.length < enough ->
        elementsFrom element i enough (taken ++ other) = .ok items other := by
  induction bound generalizing i input items with
  | zero => cases hread
  | succ bound ih =>
      unfold elementsFrom at hread
      rcases bind_eq_ok.mp hread with ⟨more, entered, hmore, hread⟩
      rcases local_moreElements _ hmore with ⟨one, hinput, hone⟩
      cases more with
      | false =>
          cases hread
          refine ⟨one, hinput, fun other hother enough henough => ?_⟩
          rcases Nat.exists_eq_add_one_of_ne_zero (Nat.ne_zero_of_lt henough) with ⟨less, rfl⟩
          rw [elementsFrom, bind_of_ok (hone other hother)]
          rfl
      | true =>
          simp only [if_true] at hread
          rcases bind_eq_ok.mp hread with ⟨a, after, ha, hread⟩
          rcases bind_eq_ok.mp hread with ⟨others, last, hothers, hlast⟩
          cases hlast
          rcases (helement i).within (.index i) ha with ⟨two, hsome, hentered, htwo⟩
          rcases ih hothers with ⟨three, hafter, hthree⟩
          refine ⟨one ++ (two ++ three), ?_, fun other hother enough henough => ?_⟩
          · rw [hinput, hentered, hafter, List.append_assoc, List.append_assoc]
          rcases Nat.exists_eq_add_one_of_ne_zero (Nat.ne_zero_of_lt henough) with ⟨less, rfl⟩
          have hlength := List.length_pos_iff.mpr hsome
          simp only [List.length_append] at henough
          have hlast : Ended (three ++ other) :=
            ended_of_head (by rw [hafter]; exact head?_append hother)
              (ended_of_elementsFrom hothers)
          have hhead := head?_of_taken hsome hentered (three ++ other)
          rw [List.append_assoc, List.append_assoc, elementsFrom, bind_of_ok (hone _ hhead)]
          simp only [if_true]
          rw [bind_of_ok (htwo _ hlast), bind_of_ok (hthree other hother less (by omega))]
          rfl

theorem local_elements {element : Nat → Reader α} (helement : forall i, Grasps Ended (element i)) :
    Local (elements element) := by
  intro input items rest hread
  rcases elementsFrom_alike helement _ hread with ⟨taken, hinput, hsame⟩
  refine ⟨taken, hinput, fun other hother => hsame other hother _ ?_⟩
  rw [List.length_append]
  omega

theorem membersFrom_alike {member : σ → String → Reader σ}
    (hmember : forall state key, Grasps Ended (member state key)) (bound : Nat) {state state' : σ}
    {isFirst : Bool} {input rest : List UInt8}
    (hread : membersFrom member state isFirst bound input = .ok state' rest) :
    exists taken, input = taken ++ rest ∧ forall other, other.head? = rest.head? ->
      forall enough, taken.length < enough ->
        membersFrom member state isFirst enough (taken ++ other) = .ok state' other := by
  induction bound generalizing state isFirst input with
  | zero => cases hread
  | succ bound ih =>
      unfold membersFrom at hread
      rcases bind_eq_ok.mp hread with ⟨found, named, hfound, hread⟩
      rcases local_nextKey _ hfound with ⟨one, hinput, hone⟩
      cases found with
      | none =>
          cases hread
          refine ⟨one, hinput, fun other hother enough henough => ?_⟩
          rcases Nat.exists_eq_add_one_of_ne_zero (Nat.ne_zero_of_lt henough) with ⟨less, rfl⟩
          rw [membersFrom, bind_of_ok (hone other hother)]
          rfl
      | some key =>
          rcases bind_eq_ok.mp hread with ⟨next, after, hnext, hothers⟩
          rcases hmember state key hnext with ⟨two, hsome, hnamed, htwo⟩
          rcases ih hothers with ⟨three, hafter, hthree⟩
          refine ⟨one ++ (two ++ three), ?_, fun other hother enough henough => ?_⟩
          · rw [hinput, hnamed, hafter, List.append_assoc, List.append_assoc]
          rcases Nat.exists_eq_add_one_of_ne_zero (Nat.ne_zero_of_lt henough) with ⟨less, rfl⟩
          have hlength := List.length_pos_iff.mpr hsome
          simp only [List.length_append] at henough
          have hlast : Ended (three ++ other) :=
            ended_of_head (by rw [hafter]; exact head?_append hother) (ended_of_membersFrom hothers)
          have hhead := head?_of_taken hsome hnamed (three ++ other)
          rw [List.append_assoc, List.append_assoc, membersFrom, bind_of_ok (hone _ hhead)]
          simp only
          rw [bind_of_ok (htwo _ hlast)]
          exact hthree other hother less (by omega)

theorem local_members {member : σ → String → Reader σ}
    (hmember : forall state key, Grasps Ended (member state key)) (state : σ) :
    Local (members member state) := by
  intro input state' rest hread
  rcases membersFrom_alike hmember _ hread with ⟨taken, hinput, hsame⟩
  refine ⟨taken, hinput, fun other hother => hsame other hother _ ?_⟩
  rw [List.length_append]
  omega

theorem grasps_listBody {element : Reader α} (helement : Grasps Ended element) :
    Grasps Fits (listBody element) :=
  local_advance.before fun _ =>
    grasps_enclosed (local_elements fun _ => helement).withinContainer grasps_closeList
      fun _ _ => ended_of_closeList

theorem grasps_memberValue {reader : Reader α} (hreader : Grasps Fits reader) (key : String) :
    Grasps Fits (memberValue key reader) :=
  grasps_colon.local.before fun _ => hreader.within _

theorem grasps_objectBody {reader : Reader Value} (hreader : Grasps Ended reader) :
    Grasps Fits (objectBody reader) :=
  local_advance.before fun _ =>
    grasps_enclosed (local_members (fun _ key => (grasps_memberValue hreader key).bind
      fun _ => still_pure _) _).withinContainer grasps_closeObject fun _ _ => ended_of_closeObject

theorem grasps_valueOf {list : Reader (List Value)} {object : Reader Object}
    (hlist : Grasps Ended list) (hobject : Grasps Ended object) :
    Grasps Ended (valueOf list object) := by
  refine grasps_onValue fun b => ?_
  rcases scalar_cases b with ⟨hscalar, hyields⟩ | hscalar
  · refine hscalar.bind_of_yields hyields fun found hfound => ?_
    cases found with
    | none => cases hfound
    | some found => exact still_pure _
  · rw [hscalar]
    show Grasps Ended (if b = 0x5B then Value.array <$> list
      else if b = 0x7B then (fun o => Value.object o.members) <$> object else fail .expectedValue)
    split
    · exact hlist.map _
    split
    · exact hobject.map _
    · exact grasps_fail _

theorem grasps_value (depth : Nat) : Grasps Ended (value depth) := by
  induction depth with
  | zero => exact grasps_valueOf (grasps_fail _) (grasps_fail _)
  | succ depth ih => exact grasps_valueOf (grasps_listBody ih) (grasps_objectBody ih)

theorem grasps_descend {body : Nat → Reader α} (hbody : forall depth, Grasps Fits (body depth))
    (depth : Nat) : Grasps Fits (descend depth body) := by
  cases depth with
  | zero => exact grasps_fail _
  | succ depth => exact hbody depth

theorem grasps_object (depth : Nat) : Grasps Fits (object depth) := by
  refine grasps_onValue fun b => ?_
  split
  · exact grasps_descend (fun depth => grasps_objectBody (grasps_value depth)) depth
  · exact grasps_mismatch _ b

theorem grasps_strings (depth : Nat) : Grasps Fits (strings depth) := by
  refine grasps_onValue fun b => ?_
  split
  · exact grasps_descend (fun depth => grasps_listBody grasps_string) depth
  · exact grasps_mismatch _ b

end Reader

/-!
# Records
-/

namespace Record

open Reader

variable {σ : Type} {record : Record σ} {Fits : List UInt8 → Prop}

def Graspable (record : Record σ) : Prop :=
  forall m, m ∈ record.known -> forall depth, Grasps Ended (m.read depth)

theorem grasps_member (hgrasps : record.Graspable) (depth : Nat) (progress : Progress σ)
    (key : String) : Grasps Ended (record.member depth progress key) := by
  unfold Record.member
  split
  · exact (grasps_memberValue grasps_skip key).bind fun _ => still_pure _
  · rename_i m hfind
    split
    · exact grasps_fail _
    · exact (grasps_memberValue (hgrasps m (mem_of_find? hfind).left depth) key).bind
        fun _ => still_pure _

theorem still_complete (progress : Progress σ) : Still (record.complete progress) := by
  unfold Record.complete
  split
  · exact still_fail _
  · exact still_pure _

theorem grasps_objectBody (hgrasps : record.Graspable) (depth : Nat) :
    Grasps Fits (record.objectBody depth) := by
  refine local_advance.before fun _ => grasps_enclosed (Local.withinContainer ?_)
    grasps_closeObject fun _ _ => ended_of_closeObject
  exact (local_members (grasps_member hgrasps depth) _).bind fun _ => (still_complete _).local

theorem ended_of_listMembers {depth i : Nat} {known : List (Member σ)} {state state' : σ}
    {input rest : List UInt8}
    (hread : record.listMembers depth known (i + 1) state input = .ok state' rest)
    (hended : Ended rest) : Ended input := by
  cases known with
  | nil =>
      cases hread
      exact hended
  | cons m known =>
      rcases bind_eq_ok.mp hread with ⟨more, next, hnext, _⟩
      rw [decide_eq_false (Nat.succ_ne_zero i)] at hnext
      exact ended_of_moreElements hnext

theorem still_listEnd (known : List (Member σ)) (i : Nat) (state : σ) :
    Still (match known.findIdx? (fun m => !m.mayTrail) with
      | some k => fail (.wrongLength (i + k) record.listForm)
      | none => pure state : Reader σ) := by
  split
  · exact still_fail _
  · exact still_pure _

theorem localWithin_listMembers (depth : Nat) {known : List (Member σ)}
    (hgrasps : forall m, m ∈ known -> forall depth, Grasps Ended (m.read depth)) (i : Nat)
    (state : σ) : LocalWithin (record.listMembers depth known i state) := by
  induction known generalizing i state with
  | nil => exact (still_pure _).local.withinContainer
  | cons m known ih =>
      rcases List.forall_mem_cons.mp hgrasps with ⟨hm, hgrasps⟩
      intro input state' rest hread hended
      unfold listMembers at hread
      rcases bind_eq_ok.mp hread with ⟨more, entered, hmore, hread⟩
      rcases local_moreElements _ hmore with ⟨one, hinput, hone⟩
      cases more with
      | false =>
          simp only [Bool.false_eq_true, if_false] at hread
          rcases still_listEnd (m :: known) i state hread with ⟨rfl, hsame⟩
          refine ⟨one, hinput, fun other hother => ?_⟩
          rw [listMembers, bind_of_ok (hone other hother)]
          exact hsame other
      | true =>
          simp only [if_true] at hread
          rcases bind_eq_ok.mp hread with ⟨put, after, hput, hothers⟩
          rcases (hm depth).within (.index i) hput with ⟨two, hsome, hentered, htwo⟩
          rcases ih hgrasps (i + 1) (put state) hothers hended with ⟨three, hafter, hthree⟩
          refine ⟨one ++ (two ++ three), ?_, fun other hother => ?_⟩
          · rw [hinput, hentered, hafter, List.append_assoc, List.append_assoc]
          have hlast : Ended (three ++ other) :=
            ended_of_head (by rw [hafter]; exact head?_append hother)
              (ended_of_listMembers hothers hended)
          have hhead := head?_of_taken hsome hentered (three ++ other)
          rw [List.append_assoc, List.append_assoc, listMembers, bind_of_ok (hone _ hhead)]
          simp only [if_true]
          rw [bind_of_ok (htwo _ hlast)]
          exact hthree other hother

theorem grasps_listBody (hgrasps : record.Graspable) (depth : Nat) :
    Grasps Fits (record.listBody depth) :=
  local_advance.before fun _ => grasps_enclosed
    (localWithin_listMembers depth hgrasps 0 record.start) grasps_closeList
      fun _ _ => ended_of_closeList

theorem grasps_read (hgrasps : record.Graspable) (depth : Nat) :
    Grasps Fits (record.read depth) := by
  refine grasps_onValue fun b => ?_
  split
  · exact grasps_descend (grasps_objectBody hgrasps) depth
  split
  · exact grasps_descend (grasps_listBody hgrasps) depth
  · exact grasps_mismatch _ b

end Record
end Json
end Gatekeeper
