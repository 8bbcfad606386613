import AnnexCatalog.Outcome
import AnnexCatalog.Query.Clause

/-! # Readers make progress

What a reader leaves of a text is no longer than the text, and a clause takes at least one character
where it begins inside a word. Reading a query therefore comes to an end.
-/

namespace AnnexCatalog.Query

open Text

/-- The rest after a word is no longer than the text. -/
theorem length_takeWord_le (text : List Char) : (takeWord text).2.length ≤ text.length :=
  List.IsSuffix.length_le (List.dropWhile_suffix _)

/-- A word that begins here takes at least one character. -/
theorem length_takeWord_lt {text : List Char} (inside : atBoundary text = false) :
    (takeWord text).2.length < text.length := by
  cases text with
  | nil => cases inside
  | cons c rest =>
      have letter : endsWord c = false := inside
      simp only [takeWord, List.dropWhile_cons, letter, Bool.not_false, if_true, List.length_cons]
      exact Nat.lt_succ_of_le (List.IsSuffix.length_le (List.dropWhile_suffix _))

theorem length_splitFirst?_lt {cut : Char} {text before after : List Char}
    (found : splitFirst? cut text = some (before, after)) : after.length < text.length := by
  induction text generalizing before with
  | nil => cases found
  | cons c rest step =>
      rw [splitFirst?] at found
      split at found
      · cases found
        exact Nat.lt_succ_self _
      · obtain ⟨⟨first, second⟩, inner, same⟩ := Option.map_eq_some_iff.mp found
        cases same
        exact Nat.lt_succ_of_lt (step inner)

theorem length_takeQuotation_lt {body value rest : List Char}
    (found : takeQuotation body = .ok (value, rest)) : rest.length < body.length := by
  rw [takeQuotation] at found
  split at found
  · next split =>
      cases found
      exact length_splitFirst?_lt split
  · cases found

theorem length_takeValue_le {missing : Fault} {text value rest : List Char}
    (found : takeValue missing text = .ok (value, rest)) : rest.length ≤ text.length := by
  rw [takeValue.eq_def] at found
  split at found
  · exact Nat.le_succ_of_le (Nat.le_of_lt (length_takeQuotation_lt found))
  · split at found
    · cases found
    · cases found
      exact length_takeWord_le text

theorem length_takeComparison?_lt {operator : Operator} {text rest : List Char}
    (found : takeComparison? text = some (operator, rest)) : rest.length < text.length := by
  rw [takeComparison?.eq_def] at found
  split at found <;> cases found <;> simp only [List.length_cons] <;> omega

theorem length_takeName?_lt {text name rest : List Char}
    (found : takeName? text = some (name, rest)) : rest.length < text.length := by
  rw [takeName?] at found
  split at found
  · next first name rest _ after =>
      split at found
      · cases found
        have whole : (text.dropWhile isNameLetter).length ≤ text.length :=
          List.IsSuffix.length_le (List.dropWhile_suffix _)
        rw [after, List.length_cons] at whole
        omega
      · cases found
  · cases found

theorem length_afterSeparator?_lt {text rest : List Char}
    (found : afterSeparator? text = some rest) : rest.length < text.length := by
  rw [afterSeparator?.eq_def] at found
  split at found
  · cases found
    simp
  · split at found
    · cases found
      simp only [List.length_cons]
      omega
    · cases found
  · cases found

theorem length_takeFilter_le {field : Field} {clause text rest : List Char} {filter : Filter}
    (found : takeFilter field clause text = .ok (filter, rest)) : rest.length ≤ text.length := by
  rw [takeFilter.eq_def] at found
  split at found
  · next comparison =>
      have shorter := length_takeComparison?_lt comparison
      split at found
      · cases found
      · obtain ⟨⟨value, after⟩, taken, ending⟩ := bind_eq_ok_iff.mp found
        have below := length_takeValue_le taken
        dsimp only at ending
        split at ending <;> cases ending
        omega
  · split at found
    · obtain ⟨⟨value, after⟩, taken, result⟩ := bind_eq_ok_iff.mp found
      cases result
      exact Nat.le_succ_of_le (length_takeValue_le taken)
    · obtain ⟨⟨value, after⟩, taken, result⟩ := bind_eq_ok_iff.mp found
      cases result
      exact Nat.le_succ_of_le (Nat.le_of_lt (length_takeQuotation_lt taken))
    · split at found
      · cases found
      · obtain ⟨_, _, result⟩ := bind_eq_ok_iff.mp found
        cases result
        exact length_takeWord_le _

/-- The rest after a condition is shorter than the text, if that does not begin at a boundary. -/
theorem length_takeCondition_lt {clause text rest : List Char} {result : Clause}
    (inside : atBoundary text = false) (found : takeCondition clause text = .ok (result, rest)) :
    rest.length < text.length := by
  rw [takeCondition.eq_def] at found
  split at found
  · obtain ⟨⟨value, after⟩, taken, same⟩ := bind_eq_ok_iff.mp found
    cases same
    exact Nat.lt_succ_of_lt (length_takeQuotation_lt taken)
  · split at found
    · cases found
      exact length_takeWord_lt inside
    · next named =>
        have shorter := length_takeName?_lt named
        split at found
        · cases found
        · obtain ⟨⟨filter, after⟩, taken, ending⟩ := bind_eq_ok_iff.mp found
          have below := length_takeFilter_le taken
          obtain ⟨_, _, same⟩ := bind_eq_ok_iff.mp ending
          cases same
          omega

/-- A clause takes at least one character. -/
theorem length_takeClause_lt {text rest : List Char} {result : Clause}
    (inside : atBoundary text = false) (found : takeClause text = .ok (result, rest)) :
    rest.length < text.length := by
  rw [takeClause.eq_def] at found
  split at found
  · split at found
    · cases found
    · next after notBoundary =>
        obtain ⟨⟨condition, left⟩, taken, same⟩ := map_eq_ok_iff.mp found
        cases same
        exact Nat.lt_succ_of_lt
          (length_takeCondition_lt (Bool.eq_false_iff.mpr notBoundary) taken)
  · exact length_takeCondition_lt inside found

end AnnexCatalog.Query
