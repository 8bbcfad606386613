import AnnexCatalog.Catalog.Item
import AnnexCatalog.Catalog.Membership
import AnnexCatalog.Store.Basic
import AnnexCatalog.Text.Token

/-! # The catalog

The catalog is a few tables: a row for every item in the order of the numbers, the memberships, the
fields that are marked as empty, a text index with the tokens of every item, and the state of the
last build. What belongs to an item besides its row refers to the row by its number. A number is
given anew once its item has been deleted, so whatever belongs to an item goes with it.

An item is written as a whole. A path is replaced only by a known one, so an item that has left the
working tree keeps the path it had.
-/

namespace AnnexCatalog

/-- What the last build left on record. -/
structure BuildState where
  revision : String
  builtAt : Nat
  itemCount : Nat
deriving DecidableEq, Repr

structure Row where
  id : Nat
  key : String
  path : String
  present : Bool
  scalars : List (Field × Scalar)
  writtenAt : Nat
deriving DecidableEq

/-- A field that the log of an item names but leaves without values. -/
structure EmptyMark where
  id : Nat
  field : Field
deriving DecidableEq

/-- The tokens of one item in the text index. -/
structure IndexEntry where
  id : Nat
  tokens : List (List Text.Token)
deriving DecidableEq

/-- The tables and the state of the last build. -/
structure Catalog where
  rows : List Row
  memberships : List Membership
  emptyMarks : List EmptyMark
  index : List IndexEntry
  state : Option BuildState
deriving DecidableEq

namespace Metadata

/-- The text under which a field is indexed: its single value, or all its values joined by
spaces. -/
def indexedText (metadata : Metadata) (field : Field) : String :=
  match metadata.scalars.lookup field with
  | some (.text value) => value
  | _ => " ".intercalate ((metadata.members.filter fun entry => entry.1 = field).map Prod.snd)

def indexedTokens (metadata : Metadata) (path : String) : List (List Text.Token) :=
  (Field.textIndexed.map metadata.indexedText ++ [path]).map fun text => Text.tokens text.toList

end Metadata

/-- What is written for one item. -/
structure Record where
  key : String
  location : Option Location
  metadata : Metadata
  writtenAt : Nat
deriving DecidableEq

/-- The row that a record describes, under a number and with a path to fall back on. -/
def Record.toRow (record : Record) (id : Nat) (fallback : String) : Row where
  id := id
  key := record.key
  path := (record.location.map Location.path).getD fallback
  present := (record.location.map Location.present).getD false
  scalars := record.metadata.scalars
  writtenAt := record.writtenAt

/-- The row as an item, with the values that are kept one by one. -/
def Row.toItem (row : Row) (memberships : TextMap (List String)) : Item where
  id := row.id
  key := row.key
  path := row.path
  present := row.present
  scalars := row.scalars
  memberships := memberships
  writtenAt := row.writtenAt

namespace Catalog

/-- The catalog without items, which has never been built. -/
def empty : Catalog := ⟨[], [], [], [], none⟩

instance : Inhabited Catalog := ⟨empty⟩

def row? (catalog : Catalog) (key : String) : Option Row :=
  catalog.rows.find? (·.key == key)

/-- The keys of the items, in the order of their numbers. -/
def keys (catalog : Catalog) : List String :=
  catalog.rows.map Row.key

def size (catalog : Catalog) : Nat :=
  catalog.rows.length

/-- The rows as items, with the values that are kept one by one. -/
def attach (catalog : Catalog) (rows : List Row) : List Item :=
  let entries := Membership.read catalog.memberships (rows.map Row.id)
  rows.map fun row => row.toItem (Membership.gather entries row.id)

def items (catalog : Catalog) : List Item :=
  catalog.attach catalog.rows

def find? (catalog : Catalog) (key : String) : Option Item :=
  (catalog.row? key).bind fun row => (catalog.attach [row]).head?

/-- The number of the next new item: one more than the largest in use. -/
def nextId (catalog : Catalog) : Nat :=
  (catalog.rows.map Row.id).foldl max 0 + 1

/-- A table with one more entry, if it is not there already. -/
def enter {α : Type} [DecidableEq α] (table : List α) (entry : α) : List α :=
  if entry ∈ table then table else table ++ [entry]

/-- The catalog after what belongs to an item besides its row has been written anew. -/
def renew (catalog : Catalog) (record : Record) (row : Row) : Catalog :=
  { catalog with
    memberships := (record.metadata.members.map fun (field, value) => ⟨row.id, field, value⟩).foldl
      enter (catalog.memberships.filter (·.id != row.id))
    emptyMarks := (record.metadata.empties.map fun field => ⟨row.id, field⟩).foldl
      enter (catalog.emptyMarks.filter (·.id != row.id))
    index := catalog.index.filter (·.id != row.id) ++
      [⟨row.id, record.metadata.indexedTokens row.path⟩] }

/-- The catalog after an item has been written. An item with the same key keeps its number, and its
path where the record has none; a new item is put last. -/
def upsert (catalog : Catalog) (record : Record) : Catalog :=
  match catalog.row? record.key with
  | some held =>
      let row := record.toRow held.id held.path
      let rows := catalog.rows.map fun other => if other.key = record.key then row else other
      { catalog with rows }.renew record row
  | none =>
      let row := record.toRow catalog.nextId record.key
      { catalog with rows := catalog.rows ++ [row] }.renew record row

/-- The catalog after an item has been deleted with all that belongs to it. -/
def delete (catalog : Catalog) (key : String) : Catalog :=
  match catalog.row? key with
  | some held =>
      { catalog with
        rows := catalog.rows.filter (·.id != held.id)
        memberships := catalog.memberships.filter (·.id != held.id)
        emptyMarks := catalog.emptyMarks.filter (·.id != held.id)
        index := catalog.index.filter (·.id != held.id) }
  | none => catalog

def clear (_ : Catalog) : Catalog := empty

end Catalog

end AnnexCatalog
