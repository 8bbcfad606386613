import AnnexCatalog.Toml.Value

/-! # Putting a table together

A name is defined once. A dotted key reaches into tables that dotted keys have made, and makes those
that are missing; a header reaches into any table that is not complete, and into the last of tables
under repeated headers. A table that was only implied may still get a header of its own.
-/

namespace AnnexCatalog.Toml

/-- The entries with the value of a name changed, or with a new name at the end. -/
def setEntry (name : String) (value : Value) : Entries → Entries
  | [] => [(name, value)]
  | (other, held) :: rest =>
      if other = name then (name, value) :: rest else (other, held) :: setEntry name value rest

/-- Change the table at the end of a path, making the tables on the way that are missing. The path
belongs to a dotted key or to a header. -/
def modify (dotted : Bool) (path : List String) (change : Origin → Entries → Option Entries)
    (origin : Origin) (entries : Entries) : Option Entries :=
  match path with
  | [] => change origin entries
  | name :: rest =>
      match entries.lookup name with
      | none =>
          let made := if dotted then .dotted else .implied
          (modify dotted rest change made []).map fun inner =>
            entries ++ [(name, .table made inner)]
      | some (.table held inner) =>
          if held = .braces ∨ (dotted ∧ held = .header) then none
          else (modify dotted rest change held inner).map fun inner =>
            setEntry name (.table held inner) entries
      | some (.tables elements) =>
          match elements.getLast? with
          | none => none
          | some last =>
              (modify dotted rest change .header last).map fun inner =>
                setEntry name (.tables (elements.dropLast ++ [inner])) entries
      | some _ => none

/-- Define a name in the table that a key reaches. Only a table made by dotted keys may be extended
through one. -/
def define (path : List String) (name : String) (value : Value) (origin : Origin)
    (entries : Entries) : Option Entries :=
  modify true path
    (fun reached entries =>
      if (reached = .dotted) = (path ≠ []) ∧ (entries.lookup name).isNone then
        some (entries ++ [(name, value)])
      else none)
    origin entries

/-- Open a table with a header: a new one, or one that was only implied. -/
def openTable (path : List String) (name : String) (entries : Entries) : Option Entries :=
  modify false path
    (fun _ entries =>
      match entries.lookup name with
      | none => some (entries ++ [(name, .table .header [])])
      | some (.table .implied inner) => some (setEntry name (.table .header inner) entries)
      | some _ => none)
    .header entries

/-- Open one more table under a repeated header. -/
def openElement (path : List String) (name : String) (entries : Entries) : Option Entries :=
  modify false path
    (fun _ entries =>
      match entries.lookup name with
      | none => some (entries ++ [(name, .tables [[]])])
      | some (.tables elements) => some (setEntry name (.tables (elements ++ [[]])) entries)
      | some _ => none)
    .header entries

/-- A key: the names before the last, and the last one. -/
structure Key where
  path : List String
  name : String
deriving DecidableEq, Repr

def Key.names (key : Key) : List String := key.path ++ [key.name]

/-- What a line of a document says. -/
inductive Statement where
  | header (key : Key)
  | element (key : Key)
  | entry (key : Key) (value : Value)

/-- The document after one more statement, where `current` names the table that the last header
opened. -/
def Statement.apply (current : List String) (entries : Entries) :
    Statement → Option (List String × Entries)
  | .header key => (openTable key.path key.name entries).map fun entries => (key.names, entries)
  | .element key => (openElement key.path key.name entries).map fun entries => (key.names, entries)
  | .entry key value =>
      (modify false current (define key.path key.name value) .header entries).map fun entries =>
        (current, entries)

/-- The document that statements make up. -/
def assemble (statements : List Statement) : Option Entries :=
  (statements.foldlM
    (fun (current, entries) statement => Statement.apply current entries statement) ([], [])).map
    Prod.snd

/-- The table that pairs between braces make up. -/
def assembleBraces (pairs : List (Key × Value)) : Option Entries :=
  pairs.foldlM (fun entries (key, value) => define key.path key.name value .braces entries) []

end AnnexCatalog.Toml
