import AnnexCatalog.Proofs.Number.Decimal
import AnnexCatalog.Toml.Number

/-! # Natural numbers read back

Digits at the end of a line are neither a date nor a time of day, as no hyphen or colon stands among
them, and no number with a fraction or an exponent. So a natural number of 63 bits that is written in
decimal digits is read as an integer (`readNumber_toString`).
-/

namespace AnnexCatalog.Toml

/-! ### Digits at the end of a line -/

section Digits

variable {digits : List Char} (decimal : ∀ c ∈ digits, c.isDigit = true) (rest : List Char)
include decimal

theorem moreDigits_append :
    moreDigits Char.isDigit (digits ++ '\n' :: rest) = (digits, '\n' :: rest) := by
  induction digits with
  | nil =>
      rw [List.nil_append, moreDigits, if_neg (by decide)]
      simp
  | cons c digits step =>
      obtain ⟨digit, others⟩ := List.forall_mem_cons.mp decimal
      rw [List.cons_append, moreDigits, if_pos digit, step others]
      rintro _ _ rfl
      exact absurd digit (by decide)

/-- Digits are taken as a whole, unless a zero stands before others. -/
theorem takeWhole?_append (nonempty : digits ≠ [])
    (unpadded : digits = ['0'] ∨ digits.head? ≠ some '0') :
    takeWhole? (digits ++ '\n' :: rest) = some (digits, '\n' :: rest) := by
  obtain ⟨c, others, rfl⟩ := List.exists_cons_of_ne_nil nonempty
  rcases unpadded with zero | front
  · rw [zero]
    rfl
  · have taken := moreDigits_append (List.forall_mem_cons.mp decimal).2 rest
    rw [List.cons_append, takeWhole?, takeDigits?, if_pos (decimal c List.mem_cons_self), taken]
    rintro _ same
    exact front (congrArg some (List.cons.inj same).1)

/-- No other mark stands after some of the digits. -/
theorem after?_of_takeCount? {count low high value : Nat} {tail : List Char} {mark : Char}
    (taken : takeCount? count low high (digits ++ '\n' :: rest) = some (value, tail))
    (other : mark.isDigit = false) (line : mark ≠ '\n') : after? mark tail = none := by
  unfold takeCount? at taken
  dsimp only at taken
  split at taken
  · next accepted =>
      cases taken
      have within : count ≤ digits.length := by
        by_contra beyond
        obtain ⟨more, sum⟩ := Nat.exists_eq_add_of_lt (Nat.not_le.mp beyond)
        have ended : '\n' ∈ (digits ++ '\n' :: rest).take count := by
          rw [sum, Nat.add_assoc, List.take_length_add_append, List.take_succ_cons]
          exact List.mem_append_right _ List.mem_cons_self
        exact absurd (List.all_eq_true.mp accepted.2.1 _ ended) (by decide)
      rw [List.drop_append_of_le_length within]
      cases left : digits.drop count with
      | nil => exact if_neg line.symm
      | cons c others =>
          have digit := decimal c (List.mem_of_mem_drop (left ▸ List.mem_cons_self))
          refine if_neg ?_
          rintro rfl
          rw [digit] at other
          cases other
  · cases taken

/-- Digits are no point in time. -/
theorem afterMoment?_append : afterMoment? (digits ++ '\n' :: rest) = none := by
  have date : afterDate? (digits ++ '\n' :: rest) = none := by
    unfold afterDate?
    cases taken : takeCount? 4 0 9999 (digits ++ '\n' :: rest) with
    | none => rfl
    | some split =>
        have none : after? '-' split.2 = none :=
          after?_of_takeCount? decimal rest taken (by decide) (by decide)
        simp [none]
  have time : afterTime? (digits ++ '\n' :: rest) = none := by
    unfold afterTime?
    cases taken : takeCount? 2 0 23 (digits ++ '\n' :: rest) with
    | none => rfl
    | some split =>
        have none : after? ':' split.2 = none :=
          after?_of_takeCount? decimal rest taken (by decide) (by decide)
        simp [none]
  rw [afterMoment?, date, time]

end Digits

/-- The digits of a number are taken as a whole. -/
theorem takeWhole?_toString (number : Nat) (rest : List Char) :
    takeWhole? ((toString number).toList ++ '\n' :: rest) =
      some ((toString number).toList, '\n' :: rest) := by
  refine takeWhole?_append (fun _ => isDigit_of_mem_toString) rest (toList_toString_ne_nil number)
    ?_
  rcases Nat.eq_zero_or_pos number with rfl | positive
  · exact .inl rfl
  · exact .inr (head?_toString_ne_zero positive)

/-- There is no sign before a digit. -/
theorem takeSign_of_isDigit {c : Char} (digit : c.isDigit = true) (rest : List Char) :
    takeSign (c :: rest) = ([], c :: rest) := by
  rw [takeSign]
  all_goals
    intro _ same
    obtain ⟨rfl, -⟩ := List.cons.inj same
    exact absurd digit (by decide)

/-- The digits of a number are no number with a fraction or an exponent. -/
theorem afterReal?_toString (number : Nat) (rest : List Char) :
    afterReal? ((toString number).toList ++ '\n' :: rest) = none := by
  have taken := takeWhole?_toString number rest
  obtain ⟨c, others, written, digit⟩ := exists_cons_toString number
  have unsigned := takeSign_of_isDigit digit (others ++ '\n' :: rest)
  have word {first : Char} (letter : first.isDigit = false) (more : List Char) :
      Text.dropLead? (first :: more) ((toString number).toList ++ '\n' :: rest) = none := by
    rw [written, List.cons_append, Text.dropLead?]
    refine if_neg fun begins => ?_
    rw [List.isPrefixOf, Bool.and_eq_true, beq_iff_eq] at begins
    rw [begins.1, digit] at letter
    cases letter
  rw [← List.cons_append, ← written] at unsigned
  rw [afterReal?, unsigned]
  dsimp only
  rw [word (by decide), word (by decide), taken]
  rfl

/-- **A natural number is read as it was written**, if it has 63 bits. -/
theorem readNumber_toString {number : Nat} (small : number < Nat.pow 2 63) (rest : List Char) :
    readNumber ((toString number).toList ++ '\n' :: rest) =
      some (.integer number, '\n' :: rest) := by
  have integer : readInteger ((toString number).toList ++ '\n' :: rest) =
      some ((number : Int), '\n' :: rest) := by
    rcases Nat.eq_zero_or_pos number with rfl | positive
    · rfl
    · have front := head?_toString_ne_zero positive
      have taken := takeWhole?_toString number rest
      have parsed := parseInt64?_toString small
      obtain ⟨c, others, written, digit⟩ := exists_cons_toString number
      rw [written] at front taken parsed ⊢
      rw [List.cons_append] at taken ⊢
      rw [readInteger, readDecimal, takeSign_of_isDigit digit]
      · dsimp only
        simp [taken, parsed]
      · rintro _ _ same
        exact front (congrArg some (List.cons.inj same).1)
  rw [readNumber, afterMoment?_append (fun _ => isDigit_of_mem_toString) rest,
    afterReal?_toString, integer]
  rfl

end AnnexCatalog.Toml
