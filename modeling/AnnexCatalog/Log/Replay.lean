import AnnexCatalog.Collection.TextMap
import AnnexCatalog.Log.Entry

/-! # Replaying a metadata log

The entries of a log are put in the order of their timestamps, entries of one time in the order of
their lines, and their operations are applied one after another to the values of the fields. What a
log says does not depend on the order in which lines of different times were written down.
-/

namespace AnnexCatalog.Log

open Text

/-- The values of every field that a log names; a field without values is named and empty. -/
abbrev Fields := TextMap TextSet

def Operation.apply (fields : Fields) : Operation → Fields
  | .mention field => fields.insert field ((fields.get? field).getD TextMap.empty)
  | .add field value =>
      fields.insert field (TextSet.add ((fields.get? field).getD TextMap.empty) value)
  | .remove field value =>
      fields.insert field (TextSet.remove ((fields.get? field).getD TextMap.empty) value)

def Entry.apply (fields : Fields) (entry : Entry) : Fields :=
  entry.operations.foldl Operation.apply fields

/-- The lines of a log that are not blank, with their numbers from one on. -/
def numberedLines (content : String) : List (List Char × Nat) :=
  ((lines content.toList).zipIdx 1).filter fun (line, _) => !(trim line).isEmpty

/-- What each line that is not blank holds, in line order. -/
def readings (content : String) : List (Except Warning Entry) :=
  (numberedLines content).map fun (line, number) =>
    (Entry.read line).mapError fun (token, problem) => ⟨number, String.ofList token, problem⟩

/-- The well-formed entries, in line order. -/
def entries (content : String) : List Entry :=
  (readings content).filterMap Except.toOption

/-- The reports on skipped lines, in line order. -/
def warnings (content : String) : List Warning :=
  (readings content).filterMap fun
    | .error warning => some warning
    | .ok _ => none

/-- The state after entries in any order: they are replayed in the order of their timestamps, and
entries of one time in the given order. -/
def replay (entries : List Entry) : Fields :=
  (entries.mergeSort fun first second => first.timestamp.notAfter second.timestamp).foldl
    Entry.apply TextMap.empty

/-- What a log says now. -/
structure Decoded where
  fields : Fields
  warnings : List Warning

def decode (content : String) : Decoded where
  fields := replay (entries content)
  warnings := warnings content

end AnnexCatalog.Log
