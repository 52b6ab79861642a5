import Gatekeeper.Proofs.Json.Extents
import Gatekeeper.Proofs.Json.Yields

/-!
# Typed readings

A reading for a wanted type that succeeds is a reading of a value of that type.
-/

namespace Gatekeeper
namespace Json
namespace Reader

open Skip

variable {input rest : List UInt8}

theorem valueOf_of_scalar {list : Reader (List Value)} {object : Reader Object} {b : UInt8}
    {tail : List UInt8} {found : Found} (hinput : unblanked input = b :: tail)
    (hscalar : scalar b (b :: tail) = .ok (some found) rest) :
    valueOf list object input = .ok (foundValue found) rest := by
  unfold valueOf onValue
  rw [next_bind, hinput]
  simp only [List.head?_cons]
  rw [bind_of_ok hscalar]
  rfl

theorem value_of_scalar (depth : Nat) {b : UInt8} {tail : List UInt8} {found : Found}
    (hinput : unblanked input = b :: tail)
    (hscalar : scalar b (b :: tail) = .ok (some found) rest) :
    value depth input = .ok (foundValue found) rest := by
  cases depth with
  | zero => exact valueOf_of_scalar hinput hscalar
  | succ depth => exact valueOf_of_scalar hinput hscalar

theorem value_unblanked (depth : Nat) (input : List UInt8) :
    value depth (unblanked input) = value depth input := by
  cases depth <;>
    · unfold value valueOf onValue
      rw [next_bind, next_bind, unblanked_unblanked]

/-!
# Scalars
-/

theorem not_mismatch {expected : String} {b : UInt8} {a : α} :
    (mismatch expected b : Reader α) input ≠ .ok a rest := by
  have hnone : Yields (fun _ : α => False) (mismatch expected b) := yields_mismatch expected b
  exact hnone input a rest

theorem string_eq_ok {s : String} (hread : string input = .ok s rest) :
    exists tail, unblanked input = 0x22 :: tail ∧ stringTail tail = .ok s rest := by
  unfold string onValue at hread
  rw [next_bind] at hread
  cases hinput : unblanked input with
  | nil =>
      rw [hinput] at hread
      cases hread
  | cons b tail =>
      simp only [hinput, List.head?_cons] at hread
      by_cases hquote : b = 0x22
      · rw [if_pos hquote, advance_bind] at hread
        exact ⟨tail, by rw [hquote], hread⟩
      · rw [if_neg hquote] at hread
        exact absurd hread not_mismatch

theorem scalar_of_digit {b : UInt8} (hdigit : Ascii.isDigit b = true) :
    scalar b input =
      (do let n ← Numeral.read false; pure (some (.number n)) : Reader (Option Found)) input := by
  have hne : forall c : UInt8, Ascii.isDigit c = false -> ¬ b = c := by
    intro c hc hb
    rw [hb, hc] at hdigit
    cases hdigit
  unfold scalar
  rw [if_neg (hne 0x6E rfl), if_neg (hne 0x74 rfl), if_neg (hne 0x66 rfl), if_neg (hne 0x2D rfl),
    if_pos hdigit]

theorem number_eq_ok {expected : String} {n : Number}
    (hread : number expected input = .ok n rest) :
    exists b tail, unblanked input = b :: tail ∧
      scalar b (b :: tail) = .ok (some (.number n)) rest := by
  unfold number onValue at hread
  rw [next_bind] at hread
  cases hinput : unblanked input with
  | nil =>
      rw [hinput] at hread
      cases hread
  | cons b tail =>
      refine ⟨b, tail, rfl, ?_⟩
      simp only [hinput, List.head?_cons] at hread
      by_cases hminus : b = 0x2D
      · rw [if_pos hminus, advance_bind] at hread
        subst hminus
        change (Numeral.read true >>= fun n => pure (some (Found.number n))) tail = _
        rw [bind_of_ok hread]
        rfl
      · rw [if_neg hminus] at hread
        by_cases hdigit : Ascii.isDigit b = true
        · rw [if_pos hdigit] at hread
          rw [scalar_of_digit hdigit, bind_of_ok hread]
          rfl
        · rw [if_neg hdigit] at hread
          exact absurd hread not_mismatch

theorem integerWithin_eq_ok {least most n : Int} {expected : String}
    (hread : integerWithin least most expected input = .ok n rest) :
    number expected input = .ok (.integer n) rest ∧ least ≤ n ∧ n ≤ most := by
  unfold integerWithin at hread
  rcases bind_eq_ok.mp hread with ⟨found, middle, hnumber, hread⟩
  cases found with
  | float x => cases hread
  | integer m =>
      by_cases hrange : least ≤ m ∧ m ≤ most
      · simp only [if_pos hrange] at hread
        cases hread
        exact ⟨hnumber, hrange⟩
      · simp only [if_neg hrange] at hread
        cases hread

/-!
# Values that may be null
-/

theorem optional_eq (reader : Reader α) (input : List UInt8) :
    optional reader input =
      if (unblanked input).head? = some 0x6E then
        (do advance 1; nullTail; pure none : Reader (Option α)) (unblanked input)
      else (some <$> reader) (unblanked input) := by
  unfold optional
  rw [next_bind]
  by_cases hnull : (unblanked input).head? = some 0x6E
  · rw [if_pos hnull, hnull]
    rfl
  · rw [if_neg hnull]
    refine congrFun ?_ _
    split
    · rename_i hhead
      exact absurd hhead hnull
    · rfl

theorem optional_eq_ok {reader : Reader α} {found : Option α}
    (hread : optional reader input = .ok found rest) :
    (exists tail, unblanked input = 0x6E :: tail ∧ nullTail tail = .ok () rest ∧ found = none) ∨
      exists a, found = some a ∧ reader (unblanked input) = .ok a rest := by
  rw [optional_eq] at hread
  by_cases hnull : (unblanked input).head? = some 0x6E
  · rw [if_pos hnull] at hread
    rcases List.head?_eq_some_iff.mp hnull with ⟨tail, hinput⟩
    rw [hinput, advance_bind] at hread
    rcases bind_eq_ok.mp hread with ⟨_, middle, hword, hread⟩
    cases hread
    exact Or.inl ⟨tail, hinput, hword, rfl⟩
  · rw [if_neg hnull] at hread
    rcases map_eq_ok.mp hread with ⟨a, ha, hfound⟩
    exact Or.inr ⟨a, hfound.symm, ha⟩

theorem value_of_null (depth : Nat) {tail : List UInt8} (hinput : unblanked input = 0x6E :: tail)
    (hword : nullTail tail = .ok () rest) : value depth input = .ok .null rest := by
  have hscalar : scalar 0x6E (0x6E :: tail) = .ok (some .null) rest := by
    change (nullTail >>= fun _ => pure (some Found.null)) tail = _
    rw [bind_of_ok hword]
    rfl
  exact value_of_scalar depth hinput hscalar

theorem value_of_string (depth : Nat) {s : String} (hread : string input = .ok s rest) :
    value depth input = .ok (.string s) rest := by
  rcases string_eq_ok hread with ⟨tail, hinput, htail⟩
  have hscalar : scalar 0x22 (0x22 :: tail) = .ok (some (.string s)) rest := by
    change (stringTail >>= fun s => pure (some (Found.string s))) tail = _
    rw [bind_of_ok htail]
    rfl
  exact value_of_scalar depth hinput hscalar

theorem value_of_optional_string (depth : Nat) {found : Option String}
    (hread : optional string input = .ok found rest) :
    value depth input = .ok (found.elim .null .string) rest := by
  rcases optional_eq_ok hread with ⟨tail, hinput, hword, rfl⟩ | ⟨s, rfl, hs⟩
  · exact value_of_null depth hinput hword
  · rw [← value_unblanked]
    exact value_of_string depth hs

theorem value_of_optional_int64 (depth : Nat) {found : Option Int}
    (hread : optional int64 input = .ok found rest) :
    value depth input = .ok (found.elim .null fun n => .number (.integer n)) rest := by
  rcases optional_eq_ok hread with ⟨tail, hinput, hword, rfl⟩ | ⟨n, rfl, hn⟩
  · exact value_of_null depth hinput hword
  · rcases number_eq_ok (integerWithin_eq_ok hn).1 with ⟨b, tail, hinput, hscalar⟩
    rw [unblanked_unblanked] at hinput
    exact value_of_scalar depth hinput hscalar

/-!
# Readings of the same extent
-/

/-- The reader leaves what a reading of the same value leaves. -/
def SameExtent (depth : Nat) (reader : Reader α) : Prop :=
  forall {input : List UInt8} {v : Value} {rest : List UInt8} {a : α} {rest' : List UInt8},
    value depth input = .ok v rest -> reader input = .ok a rest' -> rest' = rest

theorem sameExtent_skip (depth : Nat) : SameExtent depth skip := by
  intro input v rest a rest' hvalue hread
  rw [skip_of_value hvalue] at hread
  cases hread
  rfl

theorem sameExtent_string (depth : Nat) : SameExtent depth string := by
  intro input v rest s rest' hvalue hread
  rw [value_of_string depth hread] at hvalue
  cases hvalue
  rfl

theorem SameExtent.optional {depth : Nat} {reader : Reader α} (hreader : SameExtent depth reader) :
    SameExtent depth (optional reader) := by
  intro input v rest found rest' hvalue hread
  rcases optional_eq_ok hread with ⟨tail, hinput, hword, _⟩ | ⟨a, _, ha⟩
  · rw [value_of_null depth hinput hword] at hvalue
    cases hvalue
    rfl
  · rw [← value_unblanked] at hvalue
    exact hreader hvalue ha

theorem passes_of_list {element : Nat → Reader α}
    (helement : forall depth input a rest, element depth input = .ok a rest -> Passes input rest)
    {depth : Nat} {items : List α} (hread : list element depth input = .ok items rest) :
    Passes input rest := by
  have hlength := length_unblanked_le input
  unfold list onValue at hread
  rw [next_bind] at hread
  cases hinput : unblanked input with
  | nil =>
      rw [hinput] at hread
      cases hread
  | cons b tail =>
      rw [hinput, List.length_cons] at hlength
      simp only [hinput, List.head?_cons] at hread
      by_cases hbracket : b = 0x5B
      · rw [if_pos hbracket] at hread
        cases depth with
        | zero => cases hread
        | succ depth =>
            change listBody (element depth) (b :: tail) = _ at hread
            unfold listBody at hread
            rw [advance_bind] at hread
            rcases enclosed_eq_ok.mp hread with ⟨middle, helements, hclose⟩
            have hwithin := passesWithin_elements (fun _ => helement depth) _ helements hclose
            exact passes_of_container (opening_of_container hinput (Or.inl ⟨hbracket, rfl⟩))
              (by omega) hwithin
      · rw [if_neg hbracket] at hread
        exact absurd hread not_mismatch

theorem sameExtent_of_passes (depth : Nat) {reader : Reader α}
    (hpasses : forall input a rest, reader input = .ok a rest -> Passes input rest) :
    SameExtent depth reader := by
  intro input v rest a rest' hvalue hread
  have hskip := skip_of_value hvalue
  rw [skip_of_passes (hpasses input a rest' hread)] at hskip
  cases hskip
  rfl

theorem sameExtent_strings (depth depth' : Nat) : SameExtent depth (strings depth') :=
  sameExtent_of_passes depth fun _ _ _ hread =>
    passes_of_list (fun _ _ _ _ h => passes_of_value 0 (value_of_string 0 h)) hread

end Reader
end Json
end Gatekeeper
