/-! # Values of TOML documents

A document is a table of named values. Of numbers with a fraction, truth values and points in time
only the kind is kept, as no setting is of these kinds. A table remembers how it came about, because
that decides what may be added to it later in the document.
-/

namespace AnnexCatalog.Toml

/-- How a table came about. -/
inductive Origin where
  /-- Under a header of its own; the whole document counts as such a table. -/
  | header
  /-- As a parent of a table with a header. -/
  | implied
  /-- By a dotted key. -/
  | dotted
  /-- Between braces, which makes it complete. -/
  | braces
deriving DecidableEq, Repr

inductive Value where
  | text (value : String)
  | integer (value : Int)
  | real
  | boolean
  | moment
  | array (elements : List Value)
  | table (origin : Origin) (entries : List (String × Value))
  /-- Tables under repeated headers. -/
  | tables (elements : List (List (String × Value)))

/-- The named values of a table, in the order in which they were added. -/
abbrev Entries := List (String × Value)

end AnnexCatalog.Toml
