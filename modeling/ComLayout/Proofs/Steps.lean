/-!
# Computing in steps that may fail

What is computed in several steps has a result exactly if each step has one. Where the steps also change
a state, a step that fails leaves the state as it is then.
-/

namespace ComLayout

variable {ε ε' σ α β : Type}

/-- What is computed in two parts has a result exactly if both parts have one. -/
theorem bind_eq_ok {first : Except ε α} {second : α → Except ε β} {b : β} :
    first >>= second = .ok b ↔ ∃ a, first = .ok a ∧ second a = .ok b := by
  cases first <;> simp [bind, Except.bind]

/-- What is computed from a result is there exactly if the result is. -/
theorem map_eq_ok (result : Except ε α) (f : α → β) (b : β) :
    result.map f = .ok b ↔ ∃ a, result = .ok a ∧ f a = b := by
  cases result <;> simp [Except.map]

/-- Where there is a result, no error is renamed. -/
@[simp] theorem mapError_ok (a : α) (f : ε → ε') : (Except.ok a).mapError f = .ok a := rfl

/-- An error that is renamed stays one. -/
@[simp] theorem mapError_error (e : ε) (f : ε → ε') :
    (Except.error e : Except ε α).mapError f = .error (f e) := rfl

/-- Renaming errors gives no result and takes none away. -/
theorem mapError_eq_ok {result : Except ε α} {f : ε → ε'} {a : α} :
    result.mapError f = .ok a ↔ result = .ok a := by
  cases result <;> simp

section State

variable (state : σ)

/-- A value is the result as it is. -/
theorem run_pure (a : α) : (pure a : ExceptT ε (StateM σ) α).run.run state = (.ok a, state) := rfl

/-- An error is the result as it is. -/
theorem run_throw (e : ε) : (throw e : ExceptT ε (StateM σ) α).run.run state = (.error e, state) := rfl

/-- The state can be had. -/
theorem run_get : (get : ExceptT ε (StateM σ) σ).run.run state = (.ok state, state) := rfl

/-- The state can be changed. -/
theorem run_modify (f : σ → σ) :
    (modify f : ExceptT ε (StateM σ) PUnit).run.run state = (.ok ⟨⟩, f state) := rfl

end State

/-- What is run in two parts runs the second on the value of the first, from the state that it leaves. -/
theorem run_bind (first : ExceptT ε (StateM σ) α) (second : α → ExceptT ε (StateM σ) β) (state : σ) :
    (first >>= second).run.run state = match first.run.run state with
      | (.ok a, later) => (second a).run.run later
      | (.error e, later) => (.error e, later) := by
  unfold ExceptT.run StateT.run
  simp only [bind, ExceptT.bind, ExceptT.mk, StateT.bind, ExceptT.bindCont]
  rcases first state with ⟨result, later⟩
  cases result <;> rfl

/-- What is run with the state runs with the state as it is. -/
theorem run_get_bind (f : σ → ExceptT ε (StateM σ) β) (state : σ) :
    (get >>= f).run.run state = (f state).run.run state := by
  rw [run_bind, run_get]

/-- What is run in two parts succeeds exactly if both parts do. -/
theorem run_bind_eq_ok {first : ExceptT ε (StateM σ) α} {second : α → ExceptT ε (StateM σ) β}
    {state last : σ} {b : β} :
    (first >>= second).run.run state = (.ok b, last) ↔ ∃ a later,
      first.run.run state = (.ok a, later) ∧ (second a).run.run later = (.ok b, last) := by
  rw [run_bind]
  rcases first.run.run state with ⟨_ | a, later⟩
  · constructor
    · intro failed
      cases failed
    · rintro ⟨a, later, failed, -⟩
      cases failed
  · constructor
    · exact fun onward => ⟨a, later, rfl, onward⟩
    · rintro ⟨_, _, value, onward⟩
      cases value
      exact onward

/-- What is run in two parts fails exactly if the first part does, or the second after it. -/
theorem run_bind_eq_error {first : ExceptT ε (StateM σ) α} {second : α → ExceptT ε (StateM σ) β}
    {state last : σ} {e : ε} :
    (first >>= second).run.run state = (.error e, last) ↔
      first.run.run state = (.error e, last) ∨ ∃ a later,
        first.run.run state = (.ok a, later) ∧ (second a).run.run later = (.error e, last) := by
  rw [run_bind]
  rcases first.run.run state with ⟨_ | a, later⟩
  · constructor
    · intro failed
      cases failed
      exact .inl rfl
    · rintro (failed | ⟨a, later, value, -⟩)
      · cases failed
        rfl
      · cases value
  · constructor
    · exact fun onward => .inr ⟨a, later, rfl, onward⟩
    · rintro (failed | ⟨_, _, value, onward⟩)
      · cases failed
      · cases value
        exact onward

/-- What is run for each of some items is run for the first and then for the others. -/
theorem run_forM_cons (f : β → ExceptT ε (StateM σ) PUnit) (b : β) (rest : List β) (state : σ) :
    ((b :: rest).forM f).run.run state = (f b >>= fun _ => rest.forM f).run.run state := rfl

end ComLayout
