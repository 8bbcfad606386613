import AnnexCatalog.Proofs.Catalog.Contents
import AnnexCatalog.Search.Condition

/-! # Conditions see contents

What a condition says about a row depends on what the catalog says of the item alone, and not on the
number of the row or on anything that belongs to other rows (`truth_eq_of_content_eq`).
-/

namespace AnnexCatalog.Condition

variable {catalog : Catalog} {row : Row}

/-- Whether a field is marked empty is always known. -/
theorem truth_marked (field : Field) :
    (marked field).truth catalog row = some ((catalog.emptiesOf row.id).any (· == field)) := by
  rw [Catalog.emptiesOf, List.any_map, List.any_filter]
  rfl

/-- Whether a value of a field passes a test is always known. -/
theorem truth_member (field : Field) (test : Test) :
    (member field test).truth catalog row =
      some ((catalog.membersOf row.id).any fun entry =>
        entry.1 == field && (test.truth (some (.text entry.2))).settle) := by
  rw [Catalog.membersOf, List.any_map, List.any_filter]
  simp only [truth, Function.comp_apply, Bool.and_assoc]

/-- Whether a phrase stands in the index is always known. -/
theorem truth_indexed (phrase : List Char) :
    (indexed phrase).truth catalog row =
      some ((catalog.tokensOf row.id).any (phraseStands (Text.tokens phrase))) := by
  rw [Catalog.tokensOf, List.any_map, List.any_filter]
  rfl

/-- A condition says the same about rows with the same content. -/
theorem truth_eq_of_content_eq {other : Catalog} {second : Row}
    (same : (catalog.dossier row).content = (other.dossier second).content)
    (condition : Condition) : condition.truth catalog row = condition.truth other second := by
  have path : row.path = second.path := congrArg Content.path same
  have present : row.present = second.present := congrArg Content.present same
  have tokens : catalog.tokensOf row.id = other.tokensOf second.id := congrArg Content.tokens same
  have metadata : catalog.metadataOf row = other.metadataOf second := congrArg Content.metadata same
  have scalars : row.scalars = second.scalars := congrArg Metadata.scalars metadata
  have members : catalog.membersOf row.id = other.membersOf second.id :=
    congrArg Metadata.members metadata
  have empties : catalog.emptiesOf row.id = other.emptiesOf second.id :=
    congrArg Metadata.empties metadata
  induction condition with
  | always => rfl
  | column field test =>
      have columns : row.column? field = second.column? field := by
        unfold Row.column?
        rw [path, present, scalars]
      rw [truth, truth, columns]
  | presence flag => rw [truth, truth, present]
  | marked field => rw [truth_marked, truth_marked, empties]
  | member field test => rw [truth_member, truth_member, members]
  | indexed phrase => rw [truth_indexed, truth_indexed, tokens]
  | either first second firstStep secondStep => rw [truth, truth, firstStep, secondStep]
  | settled condition step => rw [truth, truth, step]
  | negation condition step => rw [truth, truth, step]

end AnnexCatalog.Condition
