import AnnexCatalog.Outcome
import AnnexCatalog.Store.Reading

/-! # Readings that succeed

A reading succeeds exactly if everything it asks for is answered.
-/

namespace AnnexCatalog.Reading

variable {α β : Type}

@[simp] theorem outcome_pure (value : α) : (pure value : Reading α).outcome = .ok value := rfl

/-- What is read one after the other comes to what the second comes to, if the first succeeds. -/
theorem outcome_bind (first : Reading α) (next : α → Reading β) :
    (first >>= next).outcome = first.outcome >>= fun value => (next value).outcome := by
  change (first.andThen next).outcome = _
  unfold andThen
  cases first.outcome <;> rfl

/-- Reading one thing after another succeeds exactly if each does. -/
theorem outcome_bind_eq_ok_iff {first : Reading α} {next : α → Reading β} {result : β} :
    (first >>= next).outcome = .ok result ↔
      ∃ value, first.outcome = .ok value ∧ (next value).outcome = .ok result := by
  rw [outcome_bind, bind_eq_ok_iff]

/-- A request comes to its answer. -/
theorem outcome_ask_eq_ok_iff {call : StoreCall} {answer : Except String α} {value : α} :
    (ask call answer).outcome = .ok value ↔ answer = .ok value :=
  mapError_eq_ok_iff

end AnnexCatalog.Reading
