import Gatekeeper.Json.Reader

/-!
# Moves of readers

When a reader made of others yields a value, and what each of them has read by
then.
-/

namespace Gatekeeper
namespace Json
namespace Reader

variable {input rest : List UInt8}

theorem bind_eq_ok {reader : Reader α} {f : α → Reader β} {b : β} :
    (reader >>= f) input = .ok b rest <->
      exists a middle, reader input = .ok a middle ∧ f a middle = .ok b rest := by
  simp only [Bind.bind, EStateM.bind]
  cases hread : reader input with
  | ok a middle =>
      constructor
      · intro h
        exact ⟨a, middle, rfl, h⟩
      · rintro ⟨a', middle', h, hnext⟩
        cases h
        exact hnext
  | error failure middle =>
      constructor
      · intro h
        cases h
      · rintro ⟨a, middle', h, _⟩
        cases h

theorem bind_of_ok {reader : Reader α} {a : α} {middle : List UInt8}
    (hread : reader input = .ok a middle) (f : α → Reader β) :
    (reader >>= f) input = f a middle := by
  simp only [Bind.bind, EStateM.bind, hread]

theorem map_eq_ok {reader : Reader α} {f : α → β} {b : β} :
    (f <$> reader) input = .ok b rest <-> exists a, reader input = .ok a rest ∧ f a = b := by
  simp only [Functor.map, EStateM.map]
  cases hread : reader input with
  | ok a middle =>
      constructor
      · intro h
        cases h
        exact ⟨a, rfl, rfl⟩
      · rintro ⟨a', h, hb⟩
        cases h
        rw [← hb]
  | error failure middle =>
      constructor
      · intro h
        cases h
      · rintro ⟨a, h, _⟩
        cases h

theorem within_eq_ok {step : Step} {reader : Reader α} {a : α} :
    within step reader input = .ok a rest <-> reader input = .ok a rest := by
  unfold within
  cases hread : reader input with
  | ok b middle => exact Iff.rfl
  | error failure middle =>
      constructor <;>
        · intro h
          cases h

theorem enclosed_eq_ok {body : Reader α} {closing : Reader Unit} {a : α} :
    enclosed body closing input = .ok a rest <->
      exists middle, body input = .ok a middle ∧ closing middle = .ok () rest := by
  unfold enclosed
  cases hbody : body input with
  | ok b middle =>
      simp only
      cases hclose : closing middle with
      | ok u last =>
          constructor
          · intro h
            cases h
            exact ⟨middle, rfl, hclose⟩
          · rintro ⟨middle', h, hlast⟩
            cases h
            rw [hclose] at hlast
            cases hlast
            rfl
      | error failure last =>
          constructor
          · intro h
            cases h
          · rintro ⟨middle', h, hlast⟩
            cases h
            rw [hclose] at hlast
            cases hlast
  | error failure middle =>
      constructor
      · intro h
        simp only at h
        cases hclose : closing middle <;> rw [hclose] at h <;> cases h
      · rintro ⟨middle', h, _⟩
        cases h

theorem outcome_eq_ok {reader : Reader α} {a : α} :
    reader.outcome input = .ok a <-> exists rest, reader input = .ok a rest := by
  unfold outcome
  cases hread : reader input with
  | ok b middle =>
      constructor
      · intro h
        cases h
        exact ⟨middle, rfl⟩
      · rintro ⟨rest, h⟩
        cases h
        rfl
  | error failure middle =>
      constructor
      · intro h
        cases h
      · rintro ⟨rest, h⟩
        cases h

theorem whole_outcome_eq_ok {reader : Reader α} {a : α}
    (hread : (whole reader).outcome input = .ok a) :
    exists rest, reader input = .ok a rest := by
  rcases outcome_eq_ok.mp hread with ⟨last, hwhole⟩
  rcases bind_eq_ok.mp hwhole with ⟨b, rest, hb, hrest⟩
  rcases bind_eq_ok.mp hrest with ⟨_, middle, _, hpure⟩
  cases hpure
  exact ⟨rest, hb⟩

@[simp] theorem advance_cons (b : UInt8) : advance 1 (b :: rest) = .ok () rest := rfl

@[simp] theorem advance_bind (b : UInt8) (f : Unit → Reader α) :
    (advance 1 >>= f) (b :: rest) = f () rest := rfl

/-- What is left after blanks. -/
def unblanked (input : List UInt8) : List UInt8 :=
  input.dropWhile Ascii.isBlank

@[simp] theorem next_bind (f : Option UInt8 → Reader α) :
    (next >>= f) input = f (unblanked input).head? (unblanked input) := rfl

@[simp] theorem unblanked_unblanked (input : List UInt8) :
    unblanked (unblanked input) = unblanked input := by
  unfold unblanked
  induction input with
  | nil => rfl
  | cons b rest ih =>
      rw [List.dropWhile_cons]
      by_cases hblank : Ascii.isBlank b = true
      · rw [if_pos hblank]
        exact ih
      · rw [if_neg hblank, List.dropWhile_cons, if_neg hblank]

theorem length_unblanked_le (input : List UInt8) :
    (unblanked input).length ≤ input.length :=
  (List.dropWhile_suffix _).length_le

end Reader
end Json
end Gatekeeper
