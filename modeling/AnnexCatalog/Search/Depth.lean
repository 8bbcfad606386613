import AnnexCatalog.Search.Compile

/-! # How deep a condition nests

A database refuses conditions that nest more than a thousand levels deep. The conjunction of clauses
nests to the left, so every further clause adds a level, and so does every further group. A
condition that looks into another table is checked on top of the condition that it is part of.
-/

namespace AnnexCatalog

/-- The levels of a condition, and those of the deepest condition on another table inside it. -/
structure Depth where
  levels : Nat
  inner : Nat
deriving DecidableEq, Repr

namespace Depth

/-- The levels of an expression over a column of a named table. -/
def column : Nat := 2

/-- The deepest nesting that is accepted. -/
def limit : Nat := 1000

/-- The nesting of two conditions that are joined. -/
def join (first second : Depth) : Depth :=
  ⟨max first.levels second.levels + 1, max first.inner second.inner⟩

/-- The nesting of a condition with one more operation on top. -/
def raise (depth : Depth) : Depth :=
  ⟨depth.levels + 1, depth.inner⟩

/-- The nesting of a condition that looks into another table. -/
def lookUp (inner : Nat) : Depth :=
  ⟨inner + 1, inner⟩

/-- The nesting of conditions that are joined from left to right. -/
def joinAll : List Depth → Depth
  | [] => ⟨1, 0⟩
  | first :: rest => rest.foldl join first

end Depth

/-- The levels of a test of a column: a conversion, and a folding or a test for presence. -/
def Test.levels : Test → Nat
  | .contains converted _ => Depth.column + (if converted then 1 else 0) + 3
  | .equals converted _ => Depth.column + (if converted then 1 else 0) + 2
  | .compares _ _ | .within _ _ => Depth.column + 3
  | .never => 1

def Condition.depth : Condition → Depth
  | .always => ⟨1, 0⟩
  | .column _ test => ⟨test.levels, 0⟩
  | .presence _ => ⟨Depth.column + 1, 0⟩
  | .marked _ => .lookUp (Depth.column + 2)
  | .member _ test => .lookUp (max (Depth.column + 2) test.levels + 1)
  | .indexed _ => ⟨Depth.column + 1, 2⟩
  | .either first second => first.depth.join second.depth
  | .settled condition => condition.depth.raise
  | .negation condition => condition.depth.raise

def isTooDeep (groups : List (List Condition)) : Bool :=
  let depth := Depth.joinAll (groups.map fun group => Depth.joinAll (group.map Condition.depth))
  Depth.limit < depth.levels + depth.inner

end AnnexCatalog
