import AnnexCatalog.Number.Decimal
import Mathlib.Algebra.Ring.Nat
import Mathlib.Data.List.Basic
import Mathlib.Data.List.Induction

/-! # Written numbers

A number is written in decimal digits and read from them again, as long as it has 64 bits
(`parseNat64?_toString`), or 63 where there is a sign (`parseInt64?_toString`). Digits that stand
before others count by the place that these give them (`ofDigits_append`).
-/

namespace AnnexCatalog

theorem toList_toString (number : Nat) : (toString number).toList = Nat.toDigits 10 number :=
  Nat.toList_repr

theorem toList_toString_ne_nil (number : Nat) : (toString number).toList ≠ [] := by
  rw [toList_toString]
  exact Nat.toDigits_ne_nil

theorem isDigit_of_mem_toString {number : Nat} {c : Char} (member : c ∈ (toString number).toList) :
    c.isDigit = true := by
  rw [toList_toString] at member
  exact Nat.isDigit_of_mem_toDigits (by decide) (by decide) member

/-- A number is written with a digit first. -/
theorem exists_cons_toString (number : Nat) :
    ∃ c rest, (toString number).toList = c :: rest ∧ c.isDigit = true := by
  obtain ⟨c, rest, written⟩ := List.exists_cons_of_ne_nil (toList_toString_ne_nil number)
  exact ⟨c, rest, written, isDigit_of_mem_toString (written ▸ List.mem_cons_self)⟩

/-- A number is read from the digits with which it is written. -/
theorem ofDigits_toString (number : Nat) : Decimal.ofDigits (toString number).toList = number := by
  rw [toList_toString]
  exact Nat.ofDigitChars_ten_toDigits

theorem all_isDigit_toString (number : Nat) :
    (toString number).toList.all Char.isDigit = true :=
  List.all_eq_true.mpr fun _ member => isDigit_of_mem_toString member

/-- Digits before others are worth ten times more for each of those. -/
theorem ofDigits_append (front back : List Char) :
    Decimal.ofDigits (front ++ back) =
      Decimal.ofDigits front * 10 ^ back.length + Decimal.ofDigits back := by
  have whole : Decimal.ofDigits (front ++ back) =
      Nat.ofDigitChars 10 back (Decimal.ofDigits front) := Nat.ofDigitChars_append 0
  rw [whole, Nat.ofDigitChars_eq_ofDigitChars_zero, Nat.mul_comm]
  rfl

theorem ofDigits_cons (c : Char) (rest : List Char) :
    Decimal.ofDigits (c :: rest) =
      (c.toNat - '0'.toNat) * 10 ^ rest.length + Decimal.ofDigits rest := by
  have first : Decimal.ofDigits [c] = c.toNat - '0'.toNat := Nat.zero_add _
  rw [← List.singleton_append, ofDigits_append, first]

theorem ofDigits_replicate_zero (count : Nat) :
    Decimal.ofDigits (List.replicate count '0') = 0 := by
  have zeros : Decimal.ofDigits (List.replicate count '0') = 10 ^ count * 0 :=
    Nat.ofDigitChars_replicate_zero
  rw [zeros, Nat.mul_zero]

theorem digit_le {c : Char} (digit : c.isDigit = true) : c.toNat - '0'.toNat ≤ 9 :=
  Nat.sub_le_sub_right (Char.isDigit_iff_toNat.mp digit).2 '0'.toNat

theorem ofDigits_lt {digits : List Char} (all : ∀ c ∈ digits, c.isDigit = true) :
    Decimal.ofDigits digits < 10 ^ digits.length := by
  induction digits with
  | nil => exact Nat.zero_lt_one
  | cons c rest step =>
      obtain ⟨digit, others⟩ := List.forall_mem_cons.mp all
      have first := Nat.mul_le_mul_right (10 ^ rest.length) (digit_le digit)
      have behind := step others
      rw [ofDigits_cons, List.length_cons, Nat.pow_succ]
      omega

/-- Only zero is written with a zero at its front. -/
theorem head?_toString_ne_zero {number : Nat} (positive : 0 < number) :
    (toString number).toList.head? ≠ some '0' := by
  rw [toList_toString]
  have digits : ∀ digit < 10, 0 < digit → Nat.digitChar digit ≠ '0' := by decide
  induction number using Nat.strongRecOn with
  | ind number step =>
      rcases Nat.lt_or_ge number 10 with digit | more
      · rw [Nat.toDigits_of_lt_base digit]
        exact fun zero => digits number digit positive (Option.some.inj zero)
      · have shorter : number / 10 < number := Nat.div_lt_self positive (by decide)
        have front := step (number / 10) shorter (Nat.div_pos more (by decide))
        rw [Nat.toDigits_of_base_le (by decide) more,
          List.head?_append_of_ne_nil _ Nat.toDigits_ne_nil]
        exact front

/-- A beginning of a written number is what is left of the number without its last digits. -/
theorem beginning_of_toString {number : Nat} {front back : List Char}
    (written : (toString number).toList = front ++ back) (begun : front ≠ []) (ended : back ≠ []) :
    front = (toString (number / 10 ^ back.length)).toList ∧ 10 ^ back.length ≤ number := by
  rw [toList_toString] at written ⊢
  induction back using List.reverseRecOn generalizing number with
  | nil => exact absurd rfl ended
  | append_singleton others last step =>
      have large : 10 ≤ number := by
        by_contra small
        rw [Nat.toDigits_of_lt_base (Nat.not_le.mp small)] at written
        have length := congrArg List.length written
        have positive := List.length_pos_of_ne_nil begun
        simp only [List.length_append, List.length_singleton] at length
        omega
      rw [Nat.toDigits_of_base_le (by decide) large, ← List.append_assoc] at written
      have shorter := List.append_inj_left' written rfl
      rw [List.length_append, List.length_singleton, Nat.pow_succ', ← Nat.div_div_eq_div_mul]
      by_cases only : others = []
      · subst only
        rw [List.append_nil] at shorter
        rw [List.length_nil, Nat.pow_zero, Nat.div_one, Nat.mul_one]
        exact ⟨shorter.symm, large⟩
      · obtain ⟨same, bound⟩ := step shorter only
        exact ⟨same, Nat.le_trans (Nat.mul_le_mul_left 10 bound) (Nat.mul_div_le number 10)⟩

/-- A number is read from the digits that it is written with, if it has 64 bits. -/
theorem parseNat64?_toString (number : Nat) :
    parseNat64? (toString number).toList =
      if number < Nat.pow 2 64 then some number else none := by
  unfold parseNat64?
  extract_lets body
  have unsigned : body = (toString number).toList := by
    unfold body
    split
    · next rest written =>
        have plus : '+' ∈ (toString number).toList := by
          rw [written]
          exact List.mem_cons_self
        exact absurd (isDigit_of_mem_toString plus) (by decide)
    · rfl
  simp only [unsigned, ofDigits_toString, toList_toString_ne_nil, all_isDigit_toString, ne_eq,
    not_false_eq_true, true_and]

/-- A text that begins with a digit has no sign. -/
theorem sign_of_isDigit {c : Char} (digit : c.isDigit = true) (rest : List Char) :
    Decimal.sign (c :: rest) = (false, c :: rest) := by
  unfold Decimal.sign
  split
  · next minus =>
      cases minus
      cases digit
  · next plus =>
      cases plus
      cases digit
  · rfl

/-- An integer is read from the digits that it is written with, if it has 63 bits. -/
theorem parseInt64?_toString {number : Nat} (small : number < Nat.pow 2 63) :
    parseInt64? (toString number).toList = some (number : Int) := by
  obtain ⟨c, rest, written, digit⟩ := exists_cons_toString number
  have unsigned := sign_of_isDigit digit rest
  rw [← written] at unsigned
  have accepted : ¬ ((toString number).toList = [] ∨ (!true) = true) :=
    not_or.mpr ⟨toList_toString_ne_nil number, Bool.false_ne_true⟩
  rw [parseInt64?, unsigned]
  dsimp only
  rw [all_isDigit_toString, if_neg accepted, if_neg Bool.false_ne_true, ofDigits_toString,
    if_pos small]

end AnnexCatalog
