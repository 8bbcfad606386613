import AnnexCatalog.Log.Timestamp
import AnnexCatalog.Proofs.Number.Decimal
import AnnexCatalog.Proofs.Text.Pieces
import Mathlib.Algebra.Order.Floor.Semifield
import Mathlib.Data.Rat.Floor
import Mathlib.Tactic.Positivity
import Mathlib.Tactic.Ring

/-! # Timestamps as they are written

A written timestamp denotes an exact number of seconds, of which the whole seconds are read and the
nanoseconds of the fraction, rounded down. So timestamps are ordered as the numbers, in whole
nanoseconds (`parse?_exact`). Adding up the nanoseconds of a fraction digit by digit, each with its
power of ten, gives the same and never leaves 32 bits (`addUp?_eq`).
-/

namespace AnnexCatalog.Timestamp

open Text

/-- A written timestamp: the digits of the seconds, the digits of a fraction if there is a point,
and whether the sign of the unit stands at the end. The seconds fit in 64 bits. -/
structure Spelling where
  whole : List Char
  part : Option (List Char)
  unit : Bool
  nonempty : whole ≠ []
  wholeDigits : ∀ c ∈ whole, c.isDigit = true
  partDigits : ∀ digits ∈ part, ∀ c ∈ digits, c.isDigit = true
  short : Decimal.ofDigits whole < 2 ^ 64

namespace Spelling

variable (spelling : Spelling)

def fraction : List Char :=
  spelling.part.getD []

/-- The written timestamp without the sign of the unit. -/
def body : List Char :=
  spelling.whole ++ spelling.part.elim [] ('.' :: ·)

def text : List Char :=
  spelling.body ++ if spelling.unit then ['s'] else []

/-- The fraction of a second that is written after the point. -/
def fractionValue : ℚ :=
  Decimal.ofDigits spelling.fraction / 10 ^ spelling.fraction.length

/-- The exact number of seconds. -/
def value : ℚ :=
  Decimal.ofDigits spelling.whole + spelling.fractionValue

/-- The whole seconds, and the fraction in nanoseconds, rounded down. -/
def time : Timestamp :=
  ⟨Decimal.ofDigits spelling.whole, ⌊spelling.fractionValue * 10 ^ 9⌋₊⟩

/-! ### Nanoseconds -/

/-- The fraction of a spelling is made of digits. -/
theorem fractionDigits : ∀ c ∈ spelling.fraction, c.isDigit = true := by
  unfold fraction
  cases part : spelling.part with
  | none => nofun
  | some digits => exact spelling.partDigits digits part

end Spelling

/-- The nanoseconds of a fraction are its digits with zeros behind them, of which nine are kept; the
others only decide what is rounded down. -/
theorem nanosecondsOf_eq_div {fraction : List Char} (digits : ∀ c ∈ fraction, c.isDigit = true) :
    nanosecondsOf fraction = Decimal.ofDigits fraction * 10 ^ 9 / 10 ^ fraction.length := by
  have padded : Decimal.ofDigits (fraction ++ List.replicate 9 '0') =
      Decimal.ofDigits fraction * 10 ^ 9 := by
    rw [ofDigits_append, ofDigits_replicate_zero, List.length_replicate, Nat.add_zero]
  have left : ((fraction ++ List.replicate 9 '0').drop 9).length = fraction.length := by simp
  have small : Decimal.ofDigits ((fraction ++ List.replicate 9 '0').drop 9) <
      10 ^ fraction.length := by
    rw [← left]
    refine ofDigits_lt fun c member => ?_
    rcases List.mem_append.mp (List.mem_of_mem_drop member) with digit | zero
    · exact digits c digit
    · rw [List.eq_of_mem_replicate zero]
      rfl
  rw [← padded, ← List.take_append_drop 9 (fraction ++ List.replicate 9 '0'), ofDigits_append, left,
    Nat.mul_comm, Nat.mul_add_div (by positivity), Nat.div_eq_of_lt small, Nat.add_zero]
  rfl

/-- A fraction is less than a second. -/
theorem nanosecondsOf_lt {fraction : List Char} (digits : ∀ c ∈ fraction, c.isDigit = true) :
    nanosecondsOf fraction < 10 ^ 9 := by
  rw [nanosecondsOf_eq_div digits]
  refine Nat.div_lt_of_lt_mul ?_
  exact Nat.mul_lt_mul_of_pos_right (ofDigits_lt digits) (by decide)

/-- The nanoseconds of a fraction are its value, rounded down. -/
theorem Spelling.nanosecondsOf_fraction (spelling : Spelling) :
    nanosecondsOf spelling.fraction = ⌊spelling.fractionValue * 10 ^ 9⌋₊ := by
  have scaled : spelling.fractionValue * 10 ^ 9 =
      (Decimal.ofDigits spelling.fraction * 10 ^ 9 : ℕ) / (10 ^ spelling.fraction.length : ℕ) := by
    rw [fractionValue]
    push_cast
    ring
  rw [scaled, Nat.floor_div_eq_div, nanosecondsOf_eq_div spelling.fractionDigits]

/-! ### Nanoseconds in 32 bits -/

/-- A number, if it fits in 32 bits. -/
def word? (number : Nat) : Option Nat :=
  if number < 2 ^ 32 then some number else none

/-- Add the digits of a fraction to a total, each times the power of ten of its place, while there
are places left; nothing if a power, a product or a sum does not fit in 32 bits. -/
def addUp? : (places : Nat) → (total : Nat) → List Char → Option Nat
  | 0, total, _ => some total
  | _ + 1, total, [] => some total
  | places + 1, total, digit :: rest => do
      let power ← word? (10 ^ places)
      let addend ← word? ((digit.toNat - '0'.toNat) * power)
      let sum ← word? (total + addend)
      addUp? places sum rest

/-- What is added up stays below a billion: the total leaves room for what its places can hold. -/
theorem addUp?_of_room {places total : Nat} {fraction : List Char}
    (digits : ∀ c ∈ fraction, c.isDigit = true) (few : places ≤ 9)
    (room : total + 10 ^ places ≤ 10 ^ 9) :
    addUp? places total fraction =
      some (total + Decimal.ofDigits ((fraction ++ List.replicate 9 '0').take places)) := by
  have fits {number : Nat} (small : number ≤ 10 ^ 9) : word? number = some number :=
    if_pos (Nat.lt_of_le_of_lt small (by decide))
  induction fraction generalizing places total with
  | nil =>
      rw [List.nil_append, List.take_replicate, ofDigits_replicate_zero, Nat.add_zero]
      cases places <;> rfl
  | cons c rest step =>
      obtain ⟨digit, others⟩ := List.forall_mem_cons.mp digits
      cases places with
      | zero => rfl
      | succ places =>
          have product := Nat.mul_le_mul_right (10 ^ places) (digit_le digit)
          rw [Nat.pow_succ] at room
          have kept : ((rest ++ List.replicate 9 '0').take places).length = places := by
            simp only [List.length_take, List.length_append, List.length_replicate]
            omega
          have power : word? (10 ^ places) = some (10 ^ places) := fits (by omega)
          have addend := fits (show (c.toNat - '0'.toNat) * 10 ^ places ≤ 10 ^ 9 by omega)
          have sum := fits (show total + (c.toNat - '0'.toNat) * 10 ^ places ≤ 10 ^ 9 by omega)
          simp only [addUp?, power, addend, sum, bind, Option.bind_some]
          rw [step others (by omega) (by omega), List.cons_append, List.take_succ_cons,
            ofDigits_cons, kept, Nat.add_assoc]

/-- Nine places are enough for the nanoseconds, and 32 bits for all that is computed on the way. -/
theorem addUp?_eq {fraction : List Char} (digits : ∀ c ∈ fraction, c.isDigit = true) :
    addUp? 9 0 fraction = some (nanosecondsOf fraction) := by
  rw [addUp?_of_room digits (Nat.le_refl 9) (by decide), Nat.zero_add]
  rfl

/-! ### Reading -/

namespace Spelling

variable (spelling : Spelling)

theorem mem_body {c : Char} (member : c ∈ spelling.body) : c.isDigit = true ∨ c = '.' := by
  unfold body at member
  rcases List.mem_append.mp member with whole | behind
  · exact .inl (spelling.wholeDigits c whole)
  · cases part : spelling.part with
    | none =>
        rw [part] at behind
        cases behind
    | some digits =>
        rw [part] at behind
        rcases List.mem_cons.mp behind with point | inside
        · exact .inr point
        · exact .inl (spelling.partDigits digits part c inside)

/-- The sign of seconds is dropped, if there is one. -/
theorem dropTail?_text :
    (dropTail? ['s'] spelling.text).getD spelling.text = spelling.body := by
  unfold text
  cases spelling.unit with
  | true =>
      rw [if_pos rfl, dropTail?_eq_some_iff.mpr rfl]
      rfl
  | false =>
      have unsigned : dropTail? ['s'] spelling.body = none := by
        refine Option.eq_none_iff_forall_ne_some.mpr fun rest ends => ?_
        have member : 's' ∈ spelling.body := by
          rw [dropTail?_eq_some_iff.mp ends]
          exact List.mem_append_right rest List.mem_cons_self
        exact absurd (spelling.mem_body member) (by decide)
      rw [if_neg Bool.false_ne_true, List.append_nil, unsigned]
      rfl

/-- The rest is split at the first point, if there is one. -/
theorem splitFirst?_body :
    (splitFirst? '.' spelling.body).getD (spelling.body, []) =
      (spelling.whole, spelling.fraction) := by
  have pointless : '.' ∉ spelling.whole := fun point =>
    absurd (spelling.wholeDigits '.' point) (by decide)
  unfold body fraction
  cases spelling.part with
  | some digits =>
      rw [Option.elim_some, splitFirst?_eq_some_iff.mpr ⟨rfl, pointless⟩]
      rfl
  | none =>
      rw [Option.elim_none, List.append_nil, splitFirst?_eq_none_iff.mpr pointless]
      rfl

/-- Every spelling is read as its time. -/
theorem parse?_text : parse? spelling.text = some spelling.time := by
  have accepted : spelling.whole ≠ [] ∧ spelling.whole.all Char.isDigit = true ∧
      spelling.fraction.all Char.isDigit = true ∧
      Decimal.ofDigits spelling.whole < Nat.pow 2 64 :=
    ⟨spelling.nonempty, List.all_eq_true.mpr spelling.wholeDigits,
      List.all_eq_true.mpr spelling.fractionDigits, spelling.short⟩
  unfold parse?
  simp only [dropTail?_text, splitFirst?_body]
  rw [if_pos accepted, nanosecondsOf_fraction]
  rfl

end Spelling

/-- What is read is a written timestamp. -/
theorem exists_spelling {token : List Char} {time : Timestamp} (read : parse? token = some time) :
    ∃ spelling : Spelling, spelling.text = token := by
  obtain ⟨unit, ends⟩ : ∃ unit : Bool, (dropTail? ['s'] token).getD token ++
      (if unit then ['s'] else []) = token := by
    cases found : dropTail? ['s'] token with
    | some body => exact ⟨true, (dropTail?_eq_some_iff.mp found).symm⟩
    | none => exact ⟨false, List.append_nil token⟩
  unfold parse? at read
  dsimp only at read
  generalize (dropTail? ['s'] token).getD token = body at ends read
  obtain ⟨part, split, same⟩ : ∃ part : Option (List Char),
      ((splitFirst? '.' body).getD (body, [])).1 ++ part.elim [] ('.' :: ·) = body ∧
        part.getD [] = ((splitFirst? '.' body).getD (body, [])).2 := by
    cases found : splitFirst? '.' body with
    | some halves => exact ⟨some halves.2, (splitFirst?_eq_some_iff.mp found).1.symm, rfl⟩
    | none => exact ⟨none, List.append_nil body, rfl⟩
  generalize (splitFirst? '.' body).getD (body, []) = halves at split same read
  obtain ⟨⟨nonempty, whole, fraction, short⟩, -⟩ := Option.ite_none_right_eq_some.mp read
  have partDigits : ∀ digits ∈ part, ∀ c ∈ digits, c.isDigit = true := by
    rintro digits rfl
    rw [← same] at fraction
    exact List.all_eq_true.mp fraction
  refine ⟨⟨halves.1, part, unit, nonempty, List.all_eq_true.mp whole, partDigits, short⟩, ?_⟩
  rw [← ends, ← split]
  rfl

/-- A time is read exactly from its spellings. -/
theorem parse?_eq_some_iff {token : List Char} {time : Timestamp} :
    parse? token = some time ↔
      ∃ spelling : Spelling, spelling.text = token ∧ spelling.time = time := by
  constructor
  · intro read
    obtain ⟨spelling, rfl⟩ := exists_spelling read
    rw [spelling.parse?_text] at read
    exact ⟨spelling, rfl, Option.some.inj read⟩
  · rintro ⟨spelling, rfl, rfl⟩
    exact spelling.parse?_text

/-! ### Order -/

/-- The exact time in whole nanoseconds, rounded down. -/
def Spelling.ticks (spelling : Spelling) : ℕ :=
  ⌊spelling.value * 10 ^ 9⌋₊

namespace Spelling

variable (spelling : Spelling)

/-- The nanoseconds of a time that is read are less than a second. -/
theorem nanoseconds_time_lt : spelling.time.nanoseconds < 10 ^ 9 := by
  have small := nanosecondsOf_lt spelling.fractionDigits
  rwa [spelling.nanosecondsOf_fraction] at small

/-- The exact time in nanoseconds, rounded down, is that of the seconds and the nanoseconds that are
read. -/
theorem ticks_eq :
    spelling.ticks = spelling.time.seconds * 10 ^ 9 + spelling.time.nanoseconds := by
  have parts : spelling.value * 10 ^ 9 = spelling.fractionValue * 10 ^ 9 +
      (Decimal.ofDigits spelling.whole * 10 ^ 9 : ℕ) := by
    rw [value]
    push_cast
    ring
  have positive : 0 ≤ spelling.fractionValue * 10 ^ 9 := by
    unfold fractionValue
    positivity
  rw [ticks, parts, Nat.floor_add_natCast positive, Nat.add_comm]
  rfl

end Spelling

/-- Times that are read are in the order of the nanoseconds that are spelled. -/
theorem notAfter_iff_ticks_le (first second : Spelling) :
    first.time.notAfter second.time = true ↔ first.ticks ≤ second.ticks := by
  have small := first.nanoseconds_time_lt
  have bound := second.nanoseconds_time_lt
  rw [first.ticks_eq, second.ticks_eq, notAfter]
  simp only [Bool.or_eq_true, decide_eq_true_eq, Bool.and_eq_true, beq_iff_eq]
  omega

/-- Times that are read are the same exactly if these are. -/
theorem time_eq_iff_ticks_eq (first second : Spelling) :
    first.time = second.time ↔ first.ticks = second.ticks := by
  have small := first.nanoseconds_time_lt
  have bound := second.nanoseconds_time_lt
  rw [first.ticks_eq, second.ticks_eq]
  generalize first.time = early at *
  generalize second.time = late at *
  cases early
  cases late
  rw [Timestamp.mk.injEq]
  dsimp only at *
  omega

/-- **Timestamps are read exactly.** What is read is what is written as digits of a number below
2^64, an optional point with digits behind it, and an optional sign of the unit: with the seconds of
the number, and with the nanoseconds of the fraction, rounded down. These are below a billion, and
adding them up digit by digit does not leave 32 bits. The order of two timestamps is that of their
exact times in whole nanoseconds. -/
theorem parse?_exact :
    (∀ token time, parse? token = some time ↔
      ∃ spelling : Spelling, spelling.text = token ∧ spelling.time = time) ∧
    (∀ spelling : Spelling, spelling.time.nanoseconds < 10 ^ 9 ∧
      addUp? 9 0 spelling.fraction = some spelling.time.nanoseconds) ∧
    ∀ first second : Spelling,
      (first.time.notAfter second.time = true ↔ first.ticks ≤ second.ticks) ∧
      (first.time = second.time ↔ first.ticks = second.ticks) := by
  refine ⟨fun _ _ => parse?_eq_some_iff, fun spelling => ⟨?_, ?_⟩, fun first second => ⟨?_, ?_⟩⟩
  · exact spelling.nanoseconds_time_lt
  · rw [addUp?_eq spelling.fractionDigits, spelling.nanosecondsOf_fraction]
    rfl
  · exact notAfter_iff_ticks_le first second
  · exact time_eq_iff_ticks_eq first second

/-- Digits behind the ninth place are cut off, whatever they are. -/
example : parse? "007.0000000019s".toList = some ⟨7, 1⟩ := by decide +kernel

end AnnexCatalog.Timestamp
