import AnnexCatalog.Catalog.Metadata
import AnnexCatalog.Number.Leading
import AnnexCatalog.Proofs.Number.Wide
import AnnexCatalog.Proofs.Text.Pieces

/-! # Two readers of numbers

A single value of a numeric field has to be a number as a whole; of a value that is kept beside others
the number at its beginning counts. Both read a number as a whole alike, unless a blank beyond ASCII
stands before it (`Scalar.leading_of_read?`).
-/

namespace AnnexCatalog

open Text

/-! ### A numeral at the beginning of a text -/

/-- A character that ends a numeral, whatever stands before it. -/
def endsNumeral (c : Char) : Bool :=
  !c.isDigit && !(['.', 'e', 'E'].contains c)

theorem endsNumeral_of_isBlank {c : Char} (blank : isBlank c = true) : endsNumeral c = true := by
  have solid {other : Char} (letter : isBlank other = false) : c ≠ other := by
    intro same
    rw [same, letter] at blank
    cases blank
  have digit : c.isDigit = false := by
    rw [Bool.eq_false_iff]
    intro digit
    rw [isBlank_of_isDigit digit] at blank
    cases blank
  have letter : ['.', 'e', 'E'].contains c = false := by
    simp [solid (show isBlank '.' = false by decide), solid (show isBlank 'e' = false by decide),
      solid (show isBlank 'E' = false by decide)]
  rw [endsNumeral, digit, letter]
  rfl

/-- What follows a text that is not empty does not change its sign. -/
theorem sign_append {text : List Char} (nonempty : text ≠ []) (tail : List Char) :
    Decimal.sign (text ++ tail) = ((Decimal.sign text).1, (Decimal.sign text).2 ++ tail) := by
  obtain ⟨c, rest, rfl⟩ := List.exists_cons_of_ne_nil nonempty
  by_cases minus : c = '-'
  · rw [minus]
    rfl
  · by_cases plus : c = '+'
    · rw [plus]
      rfl
    · simp [Decimal.sign, minus, plus]

/-- The number of digits after the point of a numeral. -/
def Decimal.places (text : List Char) : Nat :=
  (fraction ((sign text).2.dropWhile Char.isDigit)).1.length

theorem le_ofDigitChars (digits : List Char) (number : Nat) :
    number ≤ Nat.ofDigitChars 10 digits number := by
  rw [Nat.ofDigitChars_eq_ofDigitChars_zero]
  exact Nat.le_add_right_of_le (Nat.le_mul_of_pos_left number (Nat.pow_pos (by decide)))

/-- As long as there is room, every digit is taken, and moves the point. -/
theorem foldl_takeDigit (taken skipped : Int) (digits : List Char) (decimal : Decimal)
    (short : Nat.ofDigitChars 10 digits decimal.coefficient < 10 * Decimal.coefficientLimit) :
    digits.foldl (Decimal.takeDigit taken skipped) decimal =
      ⟨decimal.negative, Nat.ofDigitChars 10 digits decimal.coefficient,
        decimal.exponent + taken * digits.length⟩ := by
  induction digits generalizing decimal with
  | nil => simp
  | cons digit rest step =>
      rw [Nat.ofDigitChars_cons] at short ⊢
      have least := le_ofDigitChars rest (10 * decimal.coefficient + (digit.toNat - '0'.toNat))
      have room : decimal.coefficient < Decimal.coefficientLimit := by omega
      rw [List.foldl_cons, Decimal.takeDigit, if_pos room, step _ short, List.length_cons]
      simp only [Decimal.mk.injEq, true_and]
      push_cast
      ring

/-- An exponent is counted as far as five digits. -/
theorem foldl_takeExponentDigit (digits : List Char) (exponent : Nat)
    (few : Nat.ofDigitChars 10 digits exponent < 100000) :
    digits.foldl Decimal.takeExponentDigit exponent = Nat.ofDigitChars 10 digits exponent := by
  induction digits generalizing exponent with
  | nil => rfl
  | cons digit rest step =>
      rw [Nat.ofDigitChars_cons] at few ⊢
      have least := le_ofDigitChars rest (10 * exponent + (digit.toNat - '0'.toNat))
      have room : exponent < 10000 := by omega
      rw [List.foldl_cons, Decimal.takeExponentDigit, if_pos room, step _ few]

section Tail

variable {tail : List Char} (ends : ∀ c ∈ tail.head?, endsNumeral c = true)
include ends

theorem isDigit_head?_of_ends : ∀ c ∈ tail.head?, c.isDigit = false := by
  intro c first
  obtain ⟨digit, -⟩ := Bool.and_eq_true_iff.mp (ends c first)
  simpa using digit

theorem fraction_append (text : List Char) :
    Decimal.fraction (text ++ tail) =
      ((Decimal.fraction text).1, (Decimal.fraction text).2 ++ tail) := by
  have pointless {other : List Char} (whole : other.head? ≠ some '.') :
      Decimal.fraction other = ([], other) := by
    unfold Decimal.fraction
    split
    · exact absurd rfl whole
    · rfl
  cases text with
  | nil =>
      apply pointless
      intro point
      exact absurd (ends '.' point) (by decide)
  | cons c rest =>
      by_cases point : c = '.'
      · subst point
        have digits := isDigit_head?_of_ends ends
        rw [List.cons_append, Decimal.fraction, Decimal.fraction, takeWhile_append_of_ends digits,
          dropWhile_append_of_ends digits]
      · have other {rest : List Char} : (c :: rest).head? ≠ some '.' :=
          fun same => point (Option.some.inj same)
        rw [List.cons_append, pointless other, pointless other, List.cons_append]

/-- An exponent is read alike with and without something behind it, if it has no more than five
digits that count. -/
theorem leadingExponent_append {text : List Char} {exponent : Int}
    (read : Decimal.exponent? text = some exponent) (few : exponent.natAbs < 100000) :
    Decimal.leadingExponent (text ++ tail) = exponent := by
  cases text with
  | nil =>
      cases read
      cases tail with
      | nil => rfl
      | cons c rest =>
          obtain ⟨-, other⟩ := Bool.and_eq_true_iff.mp (ends c rfl)
          have unmarked : ¬ (c = 'e' ∨ c = 'E') := by
            rintro (rfl | rfl) <;> cases other
          rw [List.nil_append, Decimal.leadingExponent]
          exact if_neg unmarked
  | cons mark rest =>
      rw [Decimal.exponent?] at read
      dsimp only at read
      split at read
      · next accepted =>
          obtain ⟨marked, some, digits⟩ := accepted
          have nonempty : rest ≠ [] := by
            rintro rfl
            exact some rfl
          have kept : ((Decimal.sign rest).2 ++ tail).takeWhile Char.isDigit =
              (Decimal.sign rest).2 :=
            takeWhile_append_eq_left (isDigit_head?_of_ends ends) (List.all_eq_true.mp digits)
          have value := Option.some.inj read
          have counted : (Decimal.sign rest).2.foldl Decimal.takeExponentDigit 0 =
              Decimal.ofDigits (Decimal.sign rest).2 := by
            refine foldl_takeExponentDigit _ 0 ?_
            change Decimal.ofDigits (Decimal.sign rest).2 < 100000
            rw [← value] at few
            split at few <;> omega
          rw [List.cons_append, Decimal.leadingExponent, sign_append nonempty]
          dsimp only
          rw [kept, counted, if_pos marked]
          exact value
      · cases read

/-- The decimal number at the beginning of a text is the numeral there, if nothing behind belongs to
it and no digit of it is left out. -/
theorem Decimal.leading_append {numeral : List Char} {decimal : Decimal}
    (read : Decimal.read? numeral = some decimal)
    (short : decimal.coefficient < 10 * Decimal.coefficientLimit)
    (few : (decimal.exponent + Decimal.places numeral).natAbs < 100000) :
    Decimal.leading (numeral ++ tail) = decimal := by
  rw [Decimal.read?] at read
  dsimp only at read
  split at read
  · cases read
  · next digits =>
      obtain ⟨exponent, raised, rfl⟩ := Option.map_eq_some_iff.mp read
      have nonempty : numeral ≠ [] := by
        rintro rfl
        exact digits ⟨rfl, rfl⟩
      have digitless := isDigit_head?_of_ends ends
      dsimp only at short few
      rw [Decimal.places, Int.sub_add_cancel] at few
      rw [Decimal.leading, sign_append nonempty]
      dsimp only
      rw [takeWhile_append_of_ends digitless, dropWhile_append_of_ends digitless,
        fraction_append ends]
      dsimp only
      rw [leadingExponent_append ends raised few]
      have total : Nat.ofDigitChars 10
            (Decimal.fraction ((Decimal.sign numeral).2.dropWhile Char.isDigit)).1
            (Nat.ofDigitChars 10 ((Decimal.sign numeral).2.takeWhile Char.isDigit) 0) <
          10 * Decimal.coefficientLimit := by
        rw [← Nat.ofDigitChars_append]
        exact short
      have front := Nat.lt_of_le_of_lt (le_ofDigitChars _ _) total
      rw [foldl_takeDigit 0 1 _ _ front, foldl_takeDigit (-1) 0 _ _ total,
        ← Nat.ofDigitChars_append]
      simp only [Decimal.mk.injEq, true_and]
      refine ⟨rfl, ?_⟩
      ring

end Tail

/-! ### Numbers of few digits -/

/-- A numeral that is approximated exactly and leaves no digit of its exponent out. -/
def IsShortNumeral (text : List Char) : Prop :=
  ∃ decimal, Decimal.read? text = some decimal ∧ decimal.IsShort ∧ text.length ≤ 90000

/-- A text has at most as many decimal places as it has characters. -/
theorem places_le_length (text : List Char) : Decimal.places text ≤ text.length := by
  have signed : (Decimal.sign text).2.length ≤ text.length := by
    unfold Decimal.sign
    split <;> simp
  have pointed (rest : List Char) : (Decimal.fraction rest).1.length ≤ rest.length := by
    unfold Decimal.fraction
    split
    · exact Nat.le_succ_of_le (List.takeWhile_prefix _).length_le
    · exact Nat.zero_le _
  exact (pointed _).trans ((List.dropWhile_suffix _).length_le.trans signed)

/-- A numeral of few digits at the beginning of a text is the double nearest to it. -/
theorem leading_of_isShort {text numeral tail : List Char} {decimal : Decimal}
    (ends : ∀ c ∈ tail.head?, endsNumeral c = true)
    (begins : text.dropWhile isAsciiBlank = numeral ++ tail)
    (read : Decimal.read? numeral = some decimal) (short : decimal.IsShort)
    (length : numeral.length ≤ 90000) : Binary64.leading text = decimal.toBinary64 := by
  have digits : decimal.coefficient < 10 * Decimal.coefficientLimit :=
    short.coefficient_lt.trans (by decide)
  have few := short.2
  have places := places_le_length numeral
  rw [Binary64.leading, begins, Decimal.leading_append ends read digits (by omega),
    Decimal.approximate_of_isShort short]

/-- A whole number of 64 bits is a decimal number without a point or an exponent. -/
theorem exists_decimal_of_parseInt64? {text : List Char} {number : Int}
    (read : parseInt64? text = some number) :
    ∃ negative coefficient, Decimal.read? text = some ⟨negative, coefficient, 0⟩ ∧
      Decimal.places text = 0 ∧ coefficient ≤ 2 ^ 63 ∧
        number = if negative then -(coefficient : Int) else coefficient := by
  rw [parseInt64?] at read
  rw [Decimal.read?, Decimal.places]
  generalize Decimal.sign text = parts at read ⊢
  obtain ⟨negative, digits⟩ := parts
  dsimp only at read ⊢
  split at read
  · cases read
  · next accepted =>
      obtain ⟨some, all⟩ := not_or.mp accepted
      rw [Bool.not_eq_true', Bool.not_eq_false, List.all_eq_true] at all
      have whole : digits.takeWhile Char.isDigit = digits := List.takeWhile_eq_self_iff.mpr all
      have rest : digits.dropWhile Char.isDigit = [] := List.dropWhile_eq_nil_iff.mpr all
      refine ⟨negative, Decimal.ofDigits digits, ?_, ?_, ?_, ?_⟩
      · rw [whole, rest, if_neg fun none => some none.1]
        simp [Decimal.fraction, Decimal.exponent?]
      · rw [rest]
        rfl
      all_goals
        split at read
        · next minus =>
            split at read
            · next most =>
                cases read
                first | exact most | rw [if_pos minus]
            · cases read
        · next plain =>
            split at read
            · next most =>
                cases read
                first | exact Nat.le_of_lt most | rw [if_neg plain]
            · cases read

/-- A whole number of 64 bits at the beginning of a text is the double nearest to it. -/
theorem leading_of_parseInt64? {text numeral tail : List Char} {number : Int}
    (ends : ∀ c ∈ tail.head?, endsNumeral c = true)
    (begins : text.dropWhile isAsciiBlank = numeral ++ tail)
    (read : parseInt64? numeral = some number) : Binary64.leading text = .ofInt number := by
  obtain ⟨negative, coefficient, decimal, places, most, rfl⟩ := exists_decimal_of_parseInt64? read
  have room : coefficient < 10 * Decimal.coefficientLimit := Nat.lt_of_le_of_lt most (by decide)
  have few : ((0 : Int) + Decimal.places numeral).natAbs < 100000 := by
    rw [places]
    decide
  rw [Binary64.leading, begins, Decimal.leading_append ends decimal room few,
    Decimal.approximate_of_whole (Nat.lt_of_le_of_lt most (by decide)),
    Decimal.toBinary64_eq (Nat.lt_of_le_of_lt most (by decide)) (show (-20 : Int) ≤ 0 by decide)
      (show (0 : Int) ≤ 20 by decide),
    Binary64.ofInt_eq_ofRatio]
  change Binary64.ofRatio negative (coefficient * 1) 1 = _
  rw [Nat.mul_one]

/-! ### Blanks before a number -/

/-- The blanks before a text are ASCII blanks. -/
def BeginsPlainly (text : List Char) : Prop :=
  ∀ c ∈ text.takeWhile isBlank, isAsciiBlank c = true

instance (text : List Char) : Decidable (BeginsPlainly text) :=
  List.decidableBAll _ _

theorem isBlank_of_isAsciiBlank {c : Char} (blank : isAsciiBlank c = true) : isBlank c = true := by
  rw [isAsciiBlank, Bool.or_eq_true, Bool.and_eq_true] at blank
  rcases blank with space | control
  · rw [beq_iff_eq.mp space]
    rfl
  · have least : 9 ≤ c.toNat := of_decide_eq_true control.1
    have most : c.toNat ≤ 13 := of_decide_eq_true control.2
    simp [isBlank, least, most]

/-- A text whose blanks at the front are those of ASCII is trimmed in the same way. -/
theorem BeginsPlainly.dropWhile_eq {text : List Char} (plain : BeginsPlainly text) :
    text.dropWhile isAsciiBlank = trimStart text := by
  induction text with
  | nil => rfl
  | cons c rest step =>
      rw [trimStart, List.dropWhile_cons, List.dropWhile_cons]
      rw [BeginsPlainly, List.takeWhile_cons] at plain
      cases blank : isBlank c with
      | true =>
          rw [blank, if_pos rfl, List.forall_mem_cons] at plain
          rw [if_pos plain.1, if_pos rfl]
          exact step plain.2
      | false =>
          have other : isAsciiBlank c = false := by
            rw [← Bool.not_eq_true]
            intro ascii
            rw [isBlank_of_isAsciiBlank ascii] at blank
            cases blank
          rw [if_neg (by simp [other]), if_neg Bool.false_ne_true]

/-- A number ends where trailing blanks begin. -/
theorem exists_trimStart_eq (text : List Char) :
    ∃ tail, trimStart text = trim text ++ tail ∧ ∀ c ∈ tail.head?, endsNumeral c = true := by
  obtain ⟨tail, split, blank⟩ := exists_trimStart_eq_append text
  exact ⟨tail, split, fun c first => endsNumeral_of_isBlank (blank c (List.mem_of_mem_head? first))⟩

/-- A number before a slash ends there or where the blanks before the slash begin. -/
theorem exists_trimStart_eq_of_slash {text : List Char}
    (nonempty : trim (text.takeWhile (· != '/')) ≠ []) :
    ∃ tail, trimStart text = trim (text.takeWhile (· != '/')) ++ tail ∧
      ∀ c ∈ tail.head?, endsNumeral c = true := by
  obtain ⟨blanks, split, ends⟩ := exists_trimStart_eq (text.takeWhile (· != '/'))
  have some : trimStart (text.takeWhile (· != '/')) ≠ [] := by
    rw [split]
    exact List.append_ne_nil_of_left_ne_nil nonempty _
  refine ⟨blanks ++ text.dropWhile (· != '/'), ?_, ?_⟩
  · have whole := congrArg trimStart
      (List.takeWhile_append_dropWhile (p := (· != '/')) (l := text))
    rw [trimStart, List.dropWhile_append, ← trimStart, if_neg (mt List.isEmpty_iff.mp some),
      split, List.append_assoc] at whole
    exact whole.symm
  · intro c first
    cases blanks with
    | nil =>
        have stopped := List.head?_dropWhile_not (· != '/') text
        rw [List.nil_append] at first
        rw [Option.mem_def.mp first] at stopped
        have slash : c = '/' := by simpa using stopped
        rw [slash]
        rfl
    | cons blank rest => exact ends c first

/-- **Where two readers of numbers agree.** A value that is a number as a whole begins with the same
number, if the blanks before it are ASCII blanks, and if it is a whole number or has few digits. -/
theorem Scalar.leading_of_read? {kind : Field.Kind} {value : String} {scalar : Scalar}
    (plain : BeginsPlainly value.toList)
    (exact : kind = .integer ∨ kind = .real ∧ IsShortNumeral (trim value.toList))
    (read : Scalar.read? kind value = some scalar) :
    Binary64.leading value.toList = scalar.asNumber := by
  rcases exact with rfl | ⟨rfl, decimal, numeral, short, length⟩
  · obtain ⟨number, parsed, rfl⟩ := Option.map_eq_some_iff.mp read
    have nonempty : trim (value.toList.takeWhile (· != '/')) ≠ [] := by
      intro none
      rw [integerOf?, none] at parsed
      cases parsed
    obtain ⟨tail, split, ends⟩ := exists_trimStart_eq_of_slash nonempty
    rw [← plain.dropWhile_eq] at split
    exact leading_of_parseInt64? ends split parsed
  · obtain ⟨number, parsed, rfl⟩ := Option.map_eq_some_iff.mp read
    obtain ⟨found, -⟩ := Option.filter_eq_some_iff.mp parsed
    rw [numeral] at found
    cases found
    obtain ⟨tail, split, ends⟩ := exists_trimStart_eq value.toList
    rw [← plain.dropWhile_eq] at split
    exact leading_of_isShort ends split numeral short length

/-- Of a fraction the number before the slash counts for both. -/
example : (Scalar.read? .integer " 3 /12").map Scalar.asNumber = some (.ofInt 3) ∧
    Binary64.leading " 3 /12".toList = .ofInt 3 := by decide +kernel

/-- Of a number with many digits those at its end are lost. -/
example : (Scalar.read? .real "9007199254740993.0000000000001").map Scalar.asNumber =
      some (.ofInt 9007199254740994) ∧
    Binary64.leading "9007199254740993.0000000000001".toList = .ofInt 9007199254740992 := by
  decide +kernel

end AnnexCatalog
