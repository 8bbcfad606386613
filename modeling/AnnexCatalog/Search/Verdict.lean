import AnnexCatalog.Search.Condition

/-! # The order in which conditions are tried

A phrase with a NUL character cannot be looked up in the text index, and a search that comes to try
one fails. Whether it comes to it depends on the order of trial: conditions are tried until their
outcome is settled, and a condition that has to look into another table is put off where a cheaper
one can be tried first.
-/

namespace AnnexCatalog

/-- The outcome of trying a condition on a row; none where the trial fails. -/
abbrev Verdict := Option Bool

namespace Verdict

/-- Whether all of the outcomes are positive; those after the first negative one are not tried. -/
def all : List Verdict → Verdict
  | [] => some true
  | some true :: rest => all rest
  | outcome :: _ => outcome

/-- Whether some of the outcomes is positive; those after it are not tried. -/
def any : List Verdict → Verdict
  | [] => some false
  | some false :: rest => any rest
  | outcome :: _ => outcome

end Verdict

/-- The order of trial of joined conditions: one without a look-up goes before those that stand
before it if there is a look-up among them. -/
def trialOrder {α : Type} (looksUp : α → Bool) (conditions : List α) : List α :=
  conditions.foldl
    (fun order next =>
      if order.any looksUp && !looksUp next then next :: order else order ++ [next]) []

namespace Condition

/-- The order of trial of the conditions of a sole group: those that are the same for all rows come
first, and those that are looked up for each row anew come last. -/
def soleOrder (conditions : List Condition) : List Condition :=
  conditions.filter isConstant ++
    (conditions.filter (fun condition => !condition.isConstant && !condition.isCorrelated) ++
      conditions.filter (fun condition => !condition.isConstant && condition.isCorrelated))

def verdict (catalog : Catalog) (row : Row) (condition : Condition) : Verdict :=
  if condition.isUnreadable then none else some (condition.truth catalog row).settle

/-- The outcome of trying groups of conditions on a row. A group that holds always settles it. -/
def groupsVerdict (catalog : Catalog) (groups : List (List Condition)) (row : Row) : Verdict :=
  if groups.any (· == [always]) then some true
  else match groups with
    | [conditions] => .all ((soleOrder conditions).map (verdict catalog row))
    | groups =>
        .any ((trialOrder (fun group => group.any looksUp) groups).map fun group =>
          .all ((trialOrder looksUp group).map (verdict catalog row)))

end Condition

end AnnexCatalog
