import AnnexCatalog.Text.Pieces

/-! # Fields of the catalog

A field is something an item can be searched by. Most fields are read from metadata logs; the path
and the presence of an item come from the working tree. Every field has one canonical name, a few
have aliases, and names are read without regard to ASCII case.
-/

namespace AnnexCatalog

/-- Everything that the catalog stores for an item, in the order of its columns. -/
inductive Field where
  | artist
  | title
  | album
  | genre
  | comment
  | musicalKey
  | color
  | bpm
  | rating
  | year
  | trackNumber
  | crate
  | path
  | present
deriving DecidableEq, Repr

namespace Field

/-- How the values of a field are stored and compared. -/
inductive Kind where
  | text
  | real
  | integer
  /-- Membership in groups: one row for every value, even a single one. -/
  | group
  | path
  | presence
deriving DecidableEq, Repr

/-- The fields that are read from metadata logs. -/
def metadata : List Field :=
  [.artist, .title, .album, .genre, .comment, .musicalKey, .color, .bpm, .rating, .year,
    .trackNumber, .crate]

/-- The metadata fields whose values the text index covers, besides the path. -/
def textIndexed : List Field :=
  [.artist, .title, .album, .genre]

def all : List Field :=
  metadata ++ [.path, .present]

theorem mem_all (field : Field) : field ∈ all := by
  cases field <;> decide

def name : Field → String
  | .artist => "artist"
  | .title => "title"
  | .album => "album"
  | .genre => "genre"
  | .comment => "comment"
  | .musicalKey => "key"
  | .color => "color"
  | .bpm => "bpm"
  | .rating => "rating"
  | .year => "year"
  | .trackNumber => "track"
  | .crate => "crate"
  | .path => "path"
  | .present => "present"

/-- The column that holds the value of a field; memberships in crates have none. -/
def column : Field → Option String
  | .musicalKey => some "musical_key"
  | .trackNumber => some "track_number"
  | .crate => none
  | field => some field.name

/-- How the values of a field are stored and compared. -/
def kind : Field → Kind
  | .bpm => .real
  | .rating | .year | .trackNumber => .integer
  | .crate => .group
  | .path => .path
  | .present => .presence
  | _ => .text

def isNumeric (field : Field) : Bool :=
  field.kind == .real || field.kind == .integer

/-- The numeric fields are those of whole and of real numbers. -/
theorem isNumeric_iff {field : Field} :
    field.isNumeric = true ↔ field.kind = .real ∨ field.kind = .integer := by
  rw [isNumeric, Bool.or_eq_true, beq_iff_eq, beq_iff_eq]

/-- The other names of a field. -/
def aliases : Field → List String
  | .musicalKey => ["initialkey"]
  | .color => ["colour"]
  | .trackNumber => ["tracknumber"]
  | .crate => ["crates"]
  | .path => ["file"]
  | _ => []

/-- The field that a name means, in any mixture of ASCII capitals and small letters. -/
def ofName? (name : String) : Option Field :=
  let plain := String.ofList (Text.asciiLower name.toList)
  all.find? fun field => field.name == plain || field.aliases.contains plain

/-- The canonical name means the field. -/
theorem ofName?_name (field : Field) : ofName? field.name = some field := by
  cases field <;> decide +kernel

/-- An alias means the field, too. -/
theorem ofName?_of_mem_aliases {field : Field} {other : String} (member : other ∈ field.aliases) :
    ofName? other = some field := by
  cases field <;> simp [aliases] at member <;> subst member <;> decide +kernel

end Field

end AnnexCatalog
