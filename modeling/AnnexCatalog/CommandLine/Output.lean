import AnnexCatalog.Catalog.Build
import AnnexCatalog.CommandLine.Json
import AnnexCatalog.CommandLine.Moment

/-! # What is printed

An item is printed as one line for readers or as an object for programs. Counts, durations and
revisions are printed in lines of their own. Revisions are shortened to ten characters.
-/

namespace AnnexCatalog.CommandLine

def lines (texts : List String) : String :=
  String.join (texts.map (· ++ "\n"))

/-- The artist and the title in brackets, as far as they are known. -/
def credit (artist title : String) : String :=
  if artist.isEmpty ∧ title.isEmpty then ""
  else if title.isEmpty then "  [" ++ artist ++ "]"
  else if artist.isEmpty then "  [" ++ title ++ "]"
  else "  [" ++ artist ++ " - " ++ title ++ "]"

/-- The line for an item: the path, the artist and the title, and a remark if it is not present. -/
def itemLine (item : Item) : String :=
  item.path ++
    credit (", ".intercalate (item.values .artist)) (", ".intercalate (item.values .title)) ++
    if item.present then "" else "  (not present)"

/-- A value in a column, for programs. -/
def scalarJson : Scalar → Json
  | .text value => .text value
  | .real value => .number value.toDocumentText
  | .integer value => .number (toString value)

def columnsJson (item : Item) : List (String × Json) :=
  Field.metadata.filterMap fun field =>
    field.column.map fun column =>
      (column, ((item.scalar? field).map scalarJson).getD .null)

/-- The fields of an item that are kept as sets, by their names. -/
def membershipsJson (item : Item) : Json :=
  let sets := TextMap.ofList (Field.metadata.filterMap fun field =>
    match item.members field with
    | [] => none
    | values => some (field.name, values))
  .object (sets.entries.map fun (name, values) => (name, .array (values.map .text)))

def itemJson (item : Item) : Json :=
  .object ([("id", .number (toString item.id)), ("key", .text item.key),
      ("path", .text item.path), ("present", .bool item.present)] ++
    columnsJson item ++
    [("memberships", membershipsJson item),
      ("updated_at", .text (Moment.ofMilliseconds item.writtenAt).stamp)])

def short (revision : String) : String :=
  String.ofList (revision.toList.take 10)

/-- A duration in milliseconds with three places, from microseconds. -/
def milliseconds (microseconds : Nat) : String :=
  toString (microseconds / 1000) ++ "." ++ Moment.padded 3 (microseconds % 1000) ++ "ms"

/-- A duration in seconds with two places, from microseconds. -/
def seconds (microseconds : Nat) : String :=
  let hundredths := (microseconds + 5000) / 10000
  toString (hundredths / 100) ++ "." ++ Moment.padded 2 (hundredths % 100) ++ "s"

def resultsLine (shown total elapsed : Nat) : String :=
  if shown < total then
    "Showing " ++ toString shown ++ " of " ++ toString total ++ " results (" ++
      milliseconds elapsed ++ ")"
  else "Found " ++ toString shown ++ " results in " ++ milliseconds elapsed

def refreshLines (elapsed : Nat) (summary : RefreshSummary) : List String :=
  let counts := match summary.previous with
    | some previous =>
        ["Refreshed " ++ short previous ++ " -> " ++ short summary.revision,
          "  Changed:   " ++ toString summary.changed,
          "  Updated:   " ++ toString summary.updated,
          "  Removed:   " ++ toString summary.removed]
    | none =>
        ["Built cache at " ++ short summary.revision,
          "  Items:     " ++ toString summary.updated]
  counts ++
    ["  Warnings:  " ++ toString summary.warnings, "  Time:      " ++ seconds elapsed]

def buildLines (elapsed : Nat) (summary : BuildSummary) : List String :=
  ["", "Build complete!",
    "  Items:     " ++ toString summary.itemCount,
    "  Revision:  " ++ summary.revision,
    "  Warnings:  " ++ toString summary.warnings,
    "  Time:      " ++ seconds elapsed]

end AnnexCatalog.CommandLine
