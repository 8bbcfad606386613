import AnnexCatalog.Proofs.Query.RoundTrip
import AnnexCatalog.Proofs.Text.Pieces
import Mathlib.Data.List.Chain

/-! # Numbers and ranges as they are written

A numeral is a sign, digits and points, and an exponent (`exists_numeral`). So it does not end in the
mark of an exponent, and a minus sign inside it stands right after such a mark. Hence two numbers
that are joined by a minus sign are taken apart at the joint (`splitRange?_join`), and a word
without blanks is a range in one way at most (`splitRange?_unambiguous`).
-/

namespace AnnexCatalog.Query

open Text

/-! ### The parts of a numeral -/

/-- The signs before a number or an exponent. -/
def signs : List (List Char) := [[], ['-'], ['+']]

/-- The characters that begin an exponent. -/
def exponentMarks : List Char := ['e', 'E']

/-- A character of a numeral. -/
def isNumeralLetter (c : Char) : Bool :=
  c.isDigit || ['.', '+', '-', 'e', 'E'].contains c

/-- The sign of a numeral, its digits and points, and its exponent. -/
structure Numeral (lead mantissa exponent : List Char) : Prop where
  signed : lead ∈ signs
  nonempty : mantissa ≠ []
  digits : ∀ c ∈ mantissa, c.isDigit = true ∨ c = '.'
  raised : exponent = [] ∨ ∃ mark ∈ exponentMarks, ∃ sign ∈ signs, ∃ digits, digits ≠ [] ∧
    (∀ c ∈ digits, c.isDigit = true) ∧ exponent = mark :: (sign ++ digits)

/-- A text begins with a sign or with none. -/
theorem exists_sign (text : List Char) :
    ∃ lead ∈ signs, text = lead ++ (Decimal.sign text).2 := by
  unfold Decimal.sign
  split
  · exact ⟨['-'], by decide, rfl⟩
  · exact ⟨['+'], by decide, rfl⟩
  · exact ⟨[], by decide, rfl⟩

/-- A decimal fraction is made of digits and points. -/
theorem exists_fraction (text : List Char) :
    ∃ mantissa, text = mantissa ++ (Decimal.fraction text).2 ∧
      (∀ c ∈ mantissa, c.isDigit = true ∨ c = '.') ∧
        ((Decimal.fraction text).1 ≠ [] → mantissa ≠ []) := by
  unfold Decimal.fraction
  split
  · next rest =>
      refine ⟨'.' :: rest.takeWhile Char.isDigit, ?_, ?_, fun _ => List.cons_ne_nil _ _⟩
      · rw [List.cons_append, List.takeWhile_append_dropWhile]
      · intro c member
        rcases List.mem_cons.mp member with point | digit
        · exact .inr point
        · exact .inl (List.mem_takeWhile_imp digit)
  · exact ⟨[], rfl, nofun, fun part => absurd rfl part⟩

/-- An exponent is missing, or it is a mark, a sign or none, and digits. -/
theorem exponent_cases {text : List Char} (read : (Decimal.exponent? text).isSome = true) :
    text = [] ∨ ∃ mark ∈ exponentMarks, ∃ sign ∈ signs, ∃ digits, digits ≠ [] ∧
      (∀ c ∈ digits, c.isDigit = true) ∧ text = mark :: (sign ++ digits) := by
  cases text with
  | nil => exact .inl rfl
  | cons mark rest =>
      obtain ⟨sign, signed, split⟩ := exists_sign rest
      rw [Decimal.exponent?] at read
      dsimp only at read
      split at read
      · next accepted =>
          obtain ⟨marked, nonempty, digits⟩ := accepted
          refine .inr ⟨mark, by simpa [exponentMarks] using marked, sign, signed, _, nonempty,
            List.all_eq_true.mp digits, congrArg (mark :: ·) split⟩
      · cases read

/-- A text that is read as a decimal number is a numeral. -/
theorem exists_numeral {text : List Char} (read : (Decimal.read? text).isSome = true) :
    ∃ lead mantissa exponent, text = lead ++ mantissa ++ exponent ∧
      Numeral lead mantissa exponent := by
  obtain ⟨lead, signed, split⟩ := exists_sign text
  obtain ⟨fraction, fractional, digits, nonempty⟩ :=
    exists_fraction ((Decimal.sign text).2.dropWhile Char.isDigit)
  rw [Decimal.read?] at read
  dsimp only at read
  split at read
  · cases read
  · next some =>
      rw [Option.isSome_map] at read
      refine ⟨lead, (Decimal.sign text).2.takeWhile Char.isDigit ++ fraction, _, ?_,
        signed, ?_, ?_, exponent_cases read⟩
      · rw [List.append_assoc, List.append_assoc, ← fractional, List.takeWhile_append_dropWhile]
        exact split
      · intro empty
        obtain ⟨whole, part⟩ := List.append_eq_nil_iff.mp empty
        exact some ⟨whole, by_contra fun found => nonempty found part⟩
      · intro c member
        rcases List.mem_append.mp member with whole | part
        · exact .inl (List.mem_takeWhile_imp whole)
        · exact digits c part

namespace Numeral

variable {lead mantissa exponent : List Char}

theorem letters (numeral : Numeral lead mantissa exponent) :
    ∀ c ∈ lead ++ mantissa ++ exponent, isNumeralLetter c = true := by
  have marks : exponentMarks.all isNumeralLetter = true := by decide
  have sign {sign : List Char} (signed : sign ∈ signs) : ∀ c ∈ sign, isNumeralLetter c = true := by
    have all : signs.all (·.all isNumeralLetter) = true := by decide
    exact List.all_eq_true.mp (List.all_eq_true.mp all sign signed)
  have digit {c : Char} (digit : c.isDigit = true) : isNumeralLetter c = true := by
    rw [isNumeralLetter, digit, Bool.true_or]
  intro c member
  rw [List.append_assoc, List.mem_append, List.mem_append] at member
  rcases member with signed | inside | raised
  · exact sign numeral.signed c signed
  · rcases numeral.digits c inside with found | rfl
    · exact digit found
    · decide
  · rcases numeral.raised with rfl | ⟨mark, marked, lead, signed, digits, -, all, rfl⟩
    · cases raised
    · rcases List.mem_cons.mp raised with rfl | rest
      · exact List.all_eq_true.mp marks c marked
      · rcases List.mem_append.mp rest with inside | inside
        · exact sign signed c inside
        · exact digit (all c inside)

/-- A numeral ends in a digit or a point. -/
theorem getLast?_notMem (numeral : Numeral lead mantissa exponent) :
    ∀ c ∈ (lead ++ mantissa ++ exponent).getLast?, c ∉ exponentMarks := by
  have unmarked {c : Char} (digit : c.isDigit = true ∨ c = '.') : c ∉ exponentMarks := by
    rintro marked
    simp only [exponentMarks, List.mem_cons, List.not_mem_nil, or_false] at marked
    rcases marked with rfl | rfl <;> revert digit <;> decide
  intro c last
  rcases numeral.raised with rfl | ⟨mark, marked, sign, signed, digits, nonempty, all, rfl⟩
  · rw [List.append_nil, List.getLast?_append_of_ne_nil _ numeral.nonempty] at last
    exact unmarked (numeral.digits c (List.mem_of_getLast? last))
  · rw [← List.cons_append, ← List.append_assoc, List.getLast?_append_of_ne_nil _ nonempty] at last
    exact unmarked (.inl (all c (List.mem_of_getLast? last)))

/-- A sign before characters that are no minus sign. -/
theorem isChain_sign_append {sign rest : List Char} (signed : sign ∈ signs)
    (plain : ∀ c ∈ rest, c ≠ '-') :
    (sign ++ rest).IsChain fun before c => c = '-' → before ∈ exponentMarks := by
  have alone : sign.IsChain fun before c => c = '-' → before ∈ exponentMarks := by
    simp only [signs, List.mem_cons, List.not_mem_nil, or_false] at signed
    rcases signed with rfl | rfl | rfl
    · exact List.isChain_nil
    · exact List.isChain_singleton _
    · exact List.isChain_singleton _
  have unsigned : rest.Pairwise fun before c => c = '-' → before ∈ exponentMarks :=
    List.pairwise_of_forall_mem_list fun _ _ c member minus => absurd minus (plain c member)
  refine alone.append unsigned.isChain fun _ _ c head minus => ?_
  exact absurd minus (plain c (List.mem_of_head? head))

/-- A minus sign that is not the first character of a numeral stands after the mark of an
exponent. -/
theorem isChain (numeral : Numeral lead mantissa exponent) :
    (lead ++ mantissa ++ exponent).IsChain fun before c => c = '-' → before ∈ exponentMarks := by
  have digit {c : Char} (digit : c.isDigit = true) : c ≠ '-' := by
    rintro rfl
    revert digit
    decide
  have whole := isChain_sign_append numeral.signed fun c member => by
    rcases numeral.digits c member with found | rfl
    · exact digit found
    · decide
  rcases numeral.raised with rfl | ⟨mark, marked, sign, signed, digits, -, all, rfl⟩
  · rw [List.append_nil]
    exact whole
  · have raised := isChain_sign_append signed fun c member => digit (all c member)
    refine whole.append (List.isChain_cons.mpr ⟨fun _ _ _ => marked, raised⟩) ?_
    rintro _ _ c head rfl
    cases head
    exact absurd marked (by decide)

end Numeral

/-! ### Numbers -/

/-- A text that is a number, without blanks around it. -/
structure IsNumber (text : List Char) : Prop where
  unspaced : ∀ c ∈ text, isBlank c = false
  number : (numberOf? text).isSome = true

instance : DecidablePred IsNumber := fun text =>
  decidable_of_iff (text.all (fun c => !isBlank c) = true ∧ (numberOf? text).isSome = true)
    ⟨fun both => ⟨by simpa using both.1, both.2⟩,
      fun shape => ⟨by simpa using shape.unspaced, shape.number⟩⟩

namespace IsNumber

variable {text low high : List Char}

theorem exists_numeral (shape : IsNumber text) : ∃ lead mantissa exponent,
    text = lead ++ mantissa ++ exponent ∧ Numeral lead mantissa exponent := by
  refine Query.exists_numeral ?_
  have number := shape.number
  rw [numberOf?, Binary64.parse?, String.toList_ofList, trim_eq_self shape.unspaced] at number
  cases read : Decimal.read? text with
  | none =>
      rw [read] at number
      cases number
  | some decimal => rfl

theorem ne_nil (shape : IsNumber text) : text ≠ [] :=
  ne_nil_of_numberOf? shape.number

/-- The characters of a number are none that end a word or that tell the form of a value. -/
theorem isNumeralLetter (shape : IsNumber text) : ∀ c ∈ text, isNumeralLetter c = true := by
  obtain ⟨_, _, _, rfl, numeral⟩ := shape.exists_numeral
  exact numeral.letters

/-- What stands before a minus sign in a number is no number. -/
theorem numberOf?_of_append_minus {before rest : List Char}
    (shape : IsNumber (before ++ '-' :: rest)) : numberOf? before = none := by
  by_contra found
  -- The character before the minus sign would end one number and mark the exponent of another.
  have number : IsNumber before :=
    ⟨fun c member => shape.unspaced c (List.mem_append_left _ member),
      Option.isSome_iff_ne_none.mpr found⟩
  obtain ⟨_, _, _, whole, numeral⟩ := shape.exists_numeral
  have chain := numeral.isChain
  rw [← whole] at chain
  obtain ⟨_, _, _, rfl, inner⟩ := number.exists_numeral
  have last := List.getLast?_eq_some_getLast number.ne_nil
  have joint := (List.isChain_append.mp chain).2.2 _ last '-' rfl rfl
  exact inner.getLast?_notMem _ last joint

end IsNumber

/-! ### Ranges -/

/-- A text with a minus is split there, and at each minus before and after. -/
theorem splitsAtMinus_append (low high : List Char) :
    splitsAtMinus (low ++ '-' :: high) =
      (splitsAtMinus low).map (fun (before, after) => (before, after ++ '-' :: high)) ++
        (low, high) :: (splitsAtMinus high).map fun (before, after) =>
          (low ++ '-' :: before, after) := by
  induction low with
  | nil => rfl
  | cons c rest step =>
      rw [List.cons_append, splitsAtMinus, splitsAtMinus, step]
      split <;> simp [Function.comp_def]

/-- Two numbers that are joined by a minus sign are taken apart at the joint. -/
theorem splitRange?_join {low high : List Char} (lower : IsNumber low) (upper : IsNumber high) :
    splitRange? (low ++ '-' :: high) = some (low, high) := by
  rw [splitRange?, splitsAtMinus_append, List.find?_append, List.find?_eq_none.mpr ?earlier,
    Option.none_or, List.find?_cons_of_pos]
  -- A minus sign inside the lower number has no number before it, so the joint is found first.
  case earlier =>
    intro parts member
    obtain ⟨⟨before, after⟩, inside, rfl⟩ := List.mem_map.mp member
    have numeral := eq_of_mem_splitsAtMinus inside ▸ lower
    dsimp only
    rw [numeral.numberOf?_of_append_minus]
    exact Bool.false_ne_true
  dsimp only
  rw [lower.number, upper.number, Bool.and_self]

/-- A word that is a range: behind its first character stands a minus sign with a number on either
side. -/
structure IsRange (word low high : List Char) : Prop where
  joined : word = low ++ '-' :: high
  behind : low ≠ []
  lower : (numberOf? low).isSome = true
  upper : (numberOf? high).isSome = true

section Solid

variable {word low high : List Char} (solid : ∀ c ∈ word, isBlank c = false)
include solid

/-- A word is split exactly into the bounds of a range that it is. -/
theorem splitRange?_eq_some_iff :
    splitRange? word = some (low, high) ↔ IsRange word low high := by
  constructor
  · intro found
    have first : (splitsAtMinus word).find? _ = some (low, high) := found
    have numbers := List.find?_some first
    obtain ⟨lower, upper⟩ := Bool.and_eq_true_iff.mp numbers
    exact ⟨eq_of_splitRange? found, ne_nil_of_numberOf? lower, lower, upper⟩
  · rintro ⟨rfl, -, lower, upper⟩
    refine splitRange?_join ⟨fun c member => ?_, lower⟩ ⟨fun c member => ?_, upper⟩
    · exact solid c (List.mem_append_left _ member)
    · exact solid c (List.mem_append_right _ (List.mem_cons_of_mem _ member))

/-- A word is not split exactly if it is no range. -/
theorem splitRange?_eq_none_iff :
    splitRange? word = none ↔ ∀ low high, ¬ IsRange word low high := by
  simp only [Option.eq_none_iff_forall_ne_some, Prod.forall, ne_eq,
    splitRange?_eq_some_iff solid]

/-- The first minus sign between two numbers is the only one. -/
theorem IsRange.unique {other another : List Char} (range : IsRange word low high)
    (second : IsRange word other another) : low = other ∧ high = another := by
  have first := (splitRange?_eq_some_iff solid).mpr range
  rw [(splitRange?_eq_some_iff solid).mpr second] at first
  cases first
  exact ⟨rfl, rfl⟩

end Solid

/-- **A range is split in one way only.** A word without blanks has at most one minus sign behind
its first character with a number on either side, and is split there, or else not at all. So two
numbers that are joined by a minus sign are found again. -/
theorem splitRange?_unambiguous :
    (∀ word : List Char, (∀ c ∈ word, isBlank c = false) →
      (∀ low high other another, IsRange word low high → IsRange word other another →
        low = other ∧ high = another) ∧
      (∀ low high, splitRange? word = some (low, high) ↔ IsRange word low high) ∧
      (splitRange? word = none ↔ ∀ low high, ¬ IsRange word low high)) ∧
    ∀ low high, IsNumber low → IsNumber high →
      splitRange? (low ++ '-' :: high) = some (low, high) := by
  refine ⟨fun word solid => ⟨?_, ?_, ?_⟩, fun low high lower upper => splitRange?_join lower upper⟩
  · exact fun _ _ _ _ range second => range.unique solid second
  · exact fun _ _ => splitRange?_eq_some_iff solid
  · exact splitRange?_eq_none_iff solid

/-- Of the four minus signs of one word and the three of another the second joins the numbers; a
word of three whole numbers is no range. -/
theorem splitRange?_unambiguous_of_exponents :
    let low := "1e-5".toList
    let high := "-1e-3".toList
    IsNumber low ∧ IsNumber high ∧ splitRange? (low ++ '-' :: high) = some (low, high) ∧
      splitRange? "-5--3".toList = some ("-5".toList, "-3".toList) ∧
      (∀ other another, IsRange "-5--3".toList other another →
        "-5".toList = other ∧ "-3".toList = another) ∧
      ∀ other another, ¬ IsRange "1-2-3".toList other another := by
  intro low high
  have solid {word : List Char} (all : word.all (fun c => !isBlank c) = true) :
      ∀ c ∈ word, isBlank c = false := by simpa using all
  have lower : IsNumber low := by decide +kernel
  have upper : IsNumber high := by decide +kernel
  have range : IsRange "-5--3".toList "-5".toList "-3".toList :=
    ⟨by decide, by decide, by decide +kernel, by decide +kernel⟩
  obtain ⟨unique, found, -⟩ := splitRange?_unambiguous.1 "-5--3".toList (solid (by decide))
  obtain ⟨-, -, refused⟩ := splitRange?_unambiguous.1 "1-2-3".toList (solid (by decide))
  exact ⟨lower, upper, splitRange?_unambiguous.2 low high lower upper, (found _ _).mpr range,
    fun _ _ second => unique _ _ _ _ range second, refused.mp (by decide +kernel)⟩

end AnnexCatalog.Query
