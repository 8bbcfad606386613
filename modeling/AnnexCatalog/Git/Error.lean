import AnnexCatalog.Text.Quoted

/-! # Git faults

What can go wrong when git is asked for something: it cannot be started, it reports failure, a
reference does not exist, or its answer does not have the expected form.
-/

namespace AnnexCatalog.Git

open Text

/-- What is wrong with an answer of git. -/
inductive Malformation where
  /-- A record of a listing without a tab before the path. -/
  | noPath (record : String)
  /-- A record of a listing with more or fewer columns than it should have. -/
  | badEntry (record : String)
  /-- There are fewer replies than requests. -/
  | endedEarly
  | badHeader (line : String)
  | badSize (size : String)
  | truncated
  | noTerminator
deriving DecidableEq, Repr

def Malformation.message : Malformation → String
  | .noPath record => "no path in " ++ quoted record
  | .badEntry record => "bad entry " ++ quoted record
  | .endedEarly => "output ended early"
  | .badHeader line => "bad header " ++ quoted line
  | .badSize size => "bad object size " ++ quoted size
  | .truncated => "object content truncated"
  | .noTerminator => "missing object terminator"

/-- Why git gave no answer. -/
inductive Fault where
  /-- The program could not be started. -/
  | spawn (command : String)
  /-- The program ended with a status other than zero. -/
  | failed (command : String) (status : Nat)
  | missingRef (reference : String)
  | malformed (command : String) (malformation : Malformation)
  /-- The answer could not be read to its end. -/
  | io
deriving DecidableEq, Repr

def Fault.message : Fault → String
  | .spawn command => "failed to run " ++ command
  | .failed command status => command ++ " failed (exit code " ++ toString status ++ ")"
  | .missingRef reference =>
      "reference " ++ reference ++ " not found (is this a git-annex repository?)"
  | .malformed command malformation =>
      "unexpected output from " ++ command ++ ": " ++ malformation.message
  | .io => "I/O error"

end AnnexCatalog.Git
