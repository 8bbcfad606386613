import AnnexCatalog.Number.Decimal
import AnnexCatalog.Text.Pieces

/-! # Timestamps of log entries

A timestamp is a number of seconds, with an optional fraction and an optional unit sign after it. It
is kept to the nanosecond, rounded down, and timestamps are ordered by their time.
-/

namespace AnnexCatalog

open Text

/-- A point in time with nanosecond resolution. -/
structure Timestamp where
  seconds : Nat
  nanoseconds : Nat
deriving DecidableEq, Repr

namespace Timestamp

/-- Whether a point in time is no later than another. -/
def notAfter (first second : Timestamp) : Bool :=
  first.seconds < second.seconds ||
    (first.seconds == second.seconds && first.nanoseconds ≤ second.nanoseconds)

/-- The nanoseconds that the digits of a fraction of a second denote, rounded down. -/
def nanosecondsOf (fraction : List Char) : Nat :=
  Decimal.ofDigits ((fraction ++ List.replicate 9 '0').take 9)

/-- Read a timestamp such as `1000`, `1000s` or `1507541153.566038914s`. The seconds have to fit in
64 bits. -/
def parse? (token : List Char) : Option Timestamp :=
  let body := (dropTail? ['s'] token).getD token
  let (whole, fraction) := (splitFirst? '.' body).getD (body, [])
  if whole ≠ [] ∧ whole.all Char.isDigit ∧ fraction.all Char.isDigit ∧
      Decimal.ofDigits whole < Nat.pow 2 64 then
    some ⟨Decimal.ofDigits whole, nanosecondsOf fraction⟩
  else none

end Timestamp

end AnnexCatalog
