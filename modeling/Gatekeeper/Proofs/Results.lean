/-!
# Results

When a computation that may fail, made of others, has a result.
-/

namespace Gatekeeper

theorem except_bind_eq_ok {result : Except ε α} {next : α → Except ε β} {b : β} :
    result >>= next = .ok b <-> exists a, result = .ok a ∧ next a = .ok b := by
  cases result with
  | error e =>
      constructor
      · intro h
        cases h
      · rintro ⟨a, h, _⟩
        cases h
  | ok a =>
      constructor
      · intro h
        exact ⟨a, rfl, h⟩
      · rintro ⟨a', h, hnext⟩
        cases h
        exact hnext

theorem except_bind_eq_error {result : Except ε α} {next : α → Except ε β} {e : ε} :
    result >>= next = .error e <->
      result = .error e ∨ exists a, result = .ok a ∧ next a = .error e := by
  cases result with
  | error e' =>
      constructor
      · intro h
        cases h
        exact Or.inl rfl
      · intro h
        rcases h with h | ⟨a, h, _⟩
        · cases h
          rfl
        · cases h
  | ok a =>
      constructor
      · intro h
        exact Or.inr ⟨a, rfl, h⟩
      · intro h
        rcases h with h | ⟨a', h, hnext⟩
        · cases h
        · cases h
          exact hnext

@[simp] theorem mapError_ok (f : ε → ε') (a : α) : (.ok a : Except ε α).mapError f = .ok a := rfl

@[simp] theorem mapError_error (f : ε → ε') (e : ε) :
    (.error e : Except ε α).mapError f = .error (f e) := rfl

@[simp] theorem mapError_eq_ok {result : Except ε α} {f : ε → ε'} {a : α} :
    result.mapError f = .ok a <-> result = .ok a := by
  cases result with
  | error e =>
      constructor <;>
        · intro h
          cases h
  | ok b =>
      constructor <;>
        · intro h
          cases h
          rfl

theorem mapError_eq_error {result : Except ε α} {f : ε → ε'} {e' : ε'} :
    result.mapError f = .error e' <-> exists e, result = .error e ∧ f e = e' := by
  cases result with
  | error e =>
      constructor
      · intro h
        cases h
        exact ⟨e, rfl, rfl⟩
      · intro h
        rcases h with ⟨e', h, hf⟩
        cases h
        exact congrArg Except.error hf
  | ok a =>
      constructor
      · intro h
        cases h
      · intro h
        rcases h with ⟨e, h, _⟩
        cases h

theorem eq_ok_of_toOption {result : Except ε α} {a : α} (hsome : result.toOption = some a) :
    result = .ok a := by
  cases result with
  | error e => cases hsome
  | ok b =>
      cases hsome
      rfl

end Gatekeeper
