/-! # Steps that may fail

What is known when steps in a row have succeeded: each of them has.
-/

namespace AnnexCatalog

/-- A step after another succeeds exactly if the first yields a value on which the second does. -/
theorem bind_eq_ok_iff {ε α β : Type} {first : Except ε α} {next : α → Except ε β} {result : β} :
    (first >>= next) = .ok result ↔ ∃ value, first = .ok value ∧ next value = .ok result := by
  cases first with
  | error fault => simp [bind, Except.bind]
  | ok value => simp [bind, Except.bind]

/-- A step after another fails as the first does, or on the value that the first yields. -/
theorem bind_eq_error_iff {ε α β : Type} {first : Except ε α} {next : α → Except ε β} {fault : ε} :
    (first >>= next) = .error fault ↔
      first = .error fault ∨ ∃ value, first = .ok value ∧ next value = .error fault := by
  cases first with
  | error other => simp [bind, Except.bind]
  | ok value => simp [bind, Except.bind]

/-- A changed outcome is a success exactly if the outcome was one. -/
theorem map_eq_ok_iff {ε α β : Type} {outcome : Except ε α} {change : α → β} {result : β} :
    outcome.map change = .ok result ↔ ∃ value, outcome = .ok value ∧ change value = result := by
  cases outcome with
  | error fault => simp [Except.map]
  | ok value => simp [Except.map]

/-- A changed outcome is the failure that the outcome was. -/
theorem map_eq_error_iff {ε α β : Type} {outcome : Except ε α} {change : α → β} {fault : ε} :
    outcome.map change = .error fault ↔ outcome = .error fault := by
  cases outcome with
  | error other => simp [Except.map]
  | ok value => simp [Except.map]

/-- An outcome is a success exactly if it is one under other names of its failures. -/
theorem mapError_eq_ok_iff {ε ε' α : Type} {outcome : Except ε α} {change : ε → ε'} {result : α} :
    outcome.mapError change = .ok result ↔ outcome = .ok result := by
  cases outcome with
  | error fault => constructor <;> intro same <;> cases same
  | ok value => constructor <;> intro same <;> cases same <;> rfl

/-- An outcome fails under other names exactly if it fails, and its failure is renamed. -/
theorem mapError_eq_error_iff {ε ε' α : Type} {outcome : Except ε α} {change : ε → ε'}
    {fault : ε'} :
    outcome.mapError change = .error fault ↔
      ∃ other, outcome = .error other ∧ change other = fault := by
  cases outcome with
  | error other =>
      constructor
      · intro same
        exact ⟨other, rfl, Except.error.inj same⟩
      · rintro ⟨_, same, rfl⟩
        cases same
        rfl
  | ok value =>
      constructor
      · intro same
        cases same
      · rintro ⟨_, same, -⟩
        cases same

/-- A refusal stands before a step: both succeed if nothing is refused and the step succeeds. -/
theorem throw_eq_ok_iff {ε α : Type} {refused : Prop} [Decidable refused] {fault : ε}
    {next : PUnit → Except ε α} {result : α} :
    (if refused then throw fault >>= next else next ()) = .ok result ↔
      ¬ refused ∧ next () = .ok result := by
  by_cases holds : refused
  · simp [holds, bind, Except.bind, throw, throwThe, MonadExceptOf.throw]
  · simp [holds]

end AnnexCatalog
