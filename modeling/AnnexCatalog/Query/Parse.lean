import AnnexCatalog.Query.Progress

/-! # Reading a query

A query text is cut into located pieces: separators, clauses, and in the last place possibly a
fault. The groups are the runs of clauses between separators. A separator has to stand between two
clauses.
-/

namespace AnnexCatalog.Query

open Text

/-- What a part of a query text is. -/
inductive Piece where
  | separator
  | clause (clause : Clause)
  | fault (fault : Fault)
deriving DecidableEq, Repr

/-- A piece and the rest of the text from its first character on. -/
structure Located where
  place : List Char
  piece : Piece
deriving DecidableEq, Repr

/-- Cut a text into its pieces. A fault is the last of them. -/
def scan (text : List Char) : List Located :=
  match _found : trimStart text with
  | [] => []
  | c :: rest =>
      match _separated : afterSeparator? (c :: rest) with
      | some after => ⟨c :: rest, .separator⟩ :: scan after
      | none =>
          match _taken : takeClause (c :: rest) with
          | .error fault => [⟨c :: rest, .fault fault⟩]
          | .ok (clause, after) => ⟨c :: rest, .clause clause⟩ :: scan after
termination_by text.length
decreasing_by
  · have trimmed : (trimStart text).length ≤ text.length :=
      List.IsSuffix.length_le (List.dropWhile_suffix _)
    rw [_found] at trimmed
    exact Nat.lt_of_lt_of_le (length_afterSeparator?_lt _separated) trimmed
  · have trimmed : (trimStart text).length ≤ text.length :=
      List.IsSuffix.length_le (List.dropWhile_suffix _)
    rw [_found] at trimmed
    have inside : atBoundary (c :: rest) = false := by
      cases blank : isBlank c with
      | true =>
          have kept := List.head?_dropWhile_not isBlank text
          rw [← trimStart, _found] at kept
          simp [blank] at kept
      | false =>
          have noBar : c ≠ '|' := by
            rintro rfl
            cases _separated
          simp [atBoundary, endsWord, blank, noBar]
    exact Nat.lt_of_lt_of_le (length_takeClause_lt inside _taken) trimmed

/-- The groups of pieces that follow the clauses `held` of an open group. The group was opened by
the separator at `cut`, if any. -/
def gather (held : List Clause) (cut : Option (List Char)) :
    List Located → Except Fault (List (List Clause))
  | [] =>
      match held, cut with
      | [], some place => .error ⟨place, .separatorLast⟩
      | [], none => .ok []
      | held, _ => .ok [held]
  | ⟨place, .separator⟩ :: rest =>
      if held.isEmpty then .error ⟨place, .separatorFirst⟩
      else (gather [] (some place) rest).map (held :: ·)
  | ⟨_, .clause clause⟩ :: rest => gather (held ++ [clause]) cut rest
  | ⟨_, .fault fault⟩ :: _ => .error fault

def groupsOf (text : List Char) : Except Fault (List (List Clause)) :=
  gather [] none (scan text)

def parse (text : String) : Except Error Query :=
  ((groupsOf text.toList).mapError (Fault.report text.toList)).map Query.mk

end AnnexCatalog.Query
