import AnnexCatalog.Catalog.Metadata

/-! # Items

An item as it is read from the catalog: a number that it keeps as long as it is in the catalog, the
key of its log, the last path known for it, its presence, the values in its columns, and the values
that are kept one by one, by the names of their fields.
-/

namespace AnnexCatalog

structure Item where
  id : Nat
  key : String
  path : String
  present : Bool
  scalars : List (Field × Scalar)
  memberships : TextMap (List String)
  writtenAt : Nat
deriving DecidableEq

namespace Item

def scalar? (item : Item) (field : Field) : Option Scalar :=
  item.scalars.lookup field

/-- The values of a field that are kept one by one. -/
def members (item : Item) (field : Field) : List String :=
  (item.memberships.get? field.name).getD []

/-- The values of a field as they are shown. -/
def values (item : Item) (field : Field) : List String :=
  match item.memberships.get? field.name with
  | some values => values
  | none =>
      match field with
      | .path => [item.path]
      | .present => [toString item.present]
      | field => ((item.scalar? field).map Scalar.shown).toList

def crates (item : Item) : List String :=
  item.members .crate

end Item

end AnnexCatalog
