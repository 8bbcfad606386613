import AnnexCatalog.Number.Decimal
import AnnexCatalog.Text.LowerCase
import AnnexCatalog.Text.Pieces

/-! # Arguments

A command line is a verb with switches before and after it. A few switches are known everywhere, the
others belong to one verb. A switch has a long name, and most have a letter; letters may stand
together after one dash, and a value may follow a switch in the same argument or in the next one. A
switch is given at most once on each side of the verb, and after the verb counts. The terms of a
query may begin with a dash: what is no switch there is a term, and from the first term on all is.
-/

namespace AnnexCatalog.CommandLine

open Text

inductive Verb where
  | build
  | refresh
  | query
  | status
  | clear
deriving DecidableEq, Repr

def Verb.ofName? : String → Option Verb
  | "build" => some .build
  | "refresh" => some .refresh
  | "query" | "q" => some .query
  | "status" => some .status
  | "clear" => some .clear
  | _ => none

inductive Switch where
  | config
  | repository
  | cache
  | verbose
  | quiet
  | help
  | version
  | force
  | limit
  | presentOnly
  | noRefresh
  | output
  | yes
deriving DecidableEq, Repr

namespace Switch

def name : Switch → String
  | .config => "config"
  | .repository => "repository"
  | .cache => "cache"
  | .verbose => "verbose"
  | .quiet => "quiet"
  | .help => "help"
  | .version => "version"
  | .force => "force"
  | .limit => "limit"
  | .presentOnly => "present-only"
  | .noRefresh => "no-refresh"
  | .output => "output"
  | .yes => "yes"

def letter? : Switch → Option Char
  | .config => some 'c'
  | .repository => some 'C'
  | .cache => none
  | .verbose => some 'v'
  | .quiet => some 'q'
  | .help => some 'h'
  | .version => some 'V'
  | .force => some 'f'
  | .limit => some 'l'
  | .presentOnly => some 'p'
  | .noRefresh => none
  | .output => some 'o'
  | .yes => some 'y'

def takesValue : Switch → Bool
  | .config | .repository | .cache | .limit | .output => true
  | _ => false

def everywhere : List Switch :=
  [.config, .repository, .cache, .verbose, .quiet, .help]

def known : Option Verb → List Switch
  | none => everywhere ++ [.version]
  | some .build => everywhere ++ [.force]
  | some .query => everywhere ++ [.limit, .presentOnly, .noRefresh, .output]
  | some .clear => everywhere ++ [.yes]
  | some .refresh | some .status => everywhere

def ofName? (verb : Option Verb) (name : List Char) : Option Switch :=
  (known verb).find? fun switch => switch.name.toList = name

def ofLetter? (verb : Option Verb) (letter : Char) : Option Switch :=
  (known verb).find? fun switch => switch.letter? = some letter

end Switch

/-- The forms in which results are printed. -/
inductive Format where
  | text
  | json
deriving DecidableEq, Repr

/-- The form that a word means, in capitals or not. -/
def Format.ofName? (name : String) : Option Format :=
  match lower name with
  | "text" => some .text
  | "json" => some .json
  | _ => none

def Switch.accepts (switch : Switch) (value : String) : Bool :=
  match switch with
  | .limit => (parseNat64? value.toList).isSome
  | .output => (Format.ofName? value).isSome
  | _ => value ≠ ""

/-- Why the arguments ask for nothing that can be done. -/
inductive Interruption where
  /-- The arguments do not follow the rules. -/
  | usage
  /-- Help is asked for. -/
  | help
  /-- The version is asked for. -/
  | version
deriving DecidableEq, Repr

/-- What has been read on one side of the verb. -/
structure Side where
  /-- The switches with their values, the last one first. -/
  given : List (Switch × String) := []
  /-- The switch that waits for its value. -/
  pending : Option Switch := none
  /-- The terms, the last one first. -/
  terms : List String := []
  /-- Whether two dashes have ended the switches. -/
  ended : Bool := false

namespace Side

/-- No more switches may wait for a value. -/
def settled (side : Side) : Except Interruption Side :=
  if side.pending.isSome then .error .usage else .ok side

def give (side : Side) (switch : Switch) (value : String) : Except Interruption Side :=
  if switch = .help then .error .help
  else if switch = .version then .error .version
  else if switch ≠ .verbose ∧ (side.given.lookup switch).isSome then .error .usage
  else if switch.takesValue ∧ !switch.accepts value then .error .usage
  else .ok { side with given := (switch, value) :: side.given, pending := none }

/-- The side after a switch, with the value in the same argument if there is one. -/
def take (side : Side) (switch : Switch) (value : Option (List Char)) :
    Except Interruption Side := do
  let side ← side.settled
  if switch.takesValue then
    match value with
    | some value => side.give switch (String.ofList value)
    | none => return { side with pending := some switch }
  else if value.isSome then throw .usage
  else side.give switch ""

/-- The side after letters that stand together. What follows the letter of a switch with a value is
that value. -/
def takeLetters (verb : Option Verb) (side : Side) : List Char → Except Interruption Side
  | [] => .ok side
  | letter :: rest =>
      match Switch.ofLetter? verb letter with
      | none => .error .usage
      | some switch =>
          if switch.takesValue then
            match rest with
            | [] => side.take switch none
            | '=' :: value => side.take switch (some value)
            | value => side.take switch (some value)
          else do
            let side ← side.take switch none
            takeLetters verb side rest

/-- The side after an argument that is no switch: the value of the switch that waits for one, or a
term. -/
def takePlain (verb : Option Verb) (side : Side) (argument : String) :
    Except Interruption Side :=
  match side.pending with
  | some switch => if side.ended then .error .usage else side.give switch argument
  | none =>
      if verb = some .query then .ok { side with terms := argument :: side.terms }
      else .error .usage

def read (verb : Option Verb) (side : Side) (argument : String) : Except Interruption Side :=
  if side.ended ∨ side.terms ≠ [] then side.takePlain verb argument
  else match argument.toList with
    | ['-', '-'] => .ok { side with ended := true }
    | '-' :: '-' :: body =>
        let (name, value) := match splitFirst? '=' body with
          | some (name, value) => (name, some value)
          | none => (body, none)
        match Switch.ofName? verb name with
        | some switch => side.take switch value
        | none => if verb = some .query then side.takePlain verb argument else .error .usage
    | '-' :: letter :: rest =>
        let letters := letter :: rest
        if verb = some .query ∧ letters.any fun letter => (Switch.ofLetter? verb letter).isNone then
          side.takePlain verb argument
        else side.takeLetters verb letters
    | _ => side.takePlain verb argument

def readAll (verb : Option Verb) (side : Side) (arguments : List String) :
    Except Interruption Side := do
  (← arguments.foldlM (read verb) side).settled

end Side

inductive Command where
  | build (force : Bool)
  | refresh
  | query (text : String) (limit : Option Nat) (presentOnly refresh : Bool) (format : Format)
  | status
  | clear (confirmed : Bool)
deriving DecidableEq, Repr

/-- A command with the settings that come before those in a file. Switches that only set how much is
logged are read and have no effect. -/
structure Invocation where
  config : Option String
  repository : Option String
  cache : Option String
  command : Command
deriving DecidableEq, Repr

/-- The arguments before the verb, the verb and the arguments after it. The verb is the first word
that is neither a switch nor the value of one. -/
def splitVerb (side : Side) :
    (arguments : List String) → Except Interruption (Side × Verb × List String)
  | [] => .error .usage
  | argument :: rest => do
      let word := side.pending.isNone && !side.ended
      match Verb.ofName? argument with
      | some verb =>
          if word then return (side, verb, rest)
      | none => pure ()
      if word && argument = "help" then
        throw (if rest.length = 0 ∨
          (rest.length = 1 ∧ rest.all fun name => name = "help" ∨ (Verb.ofName? name).isSome) then
          .help else .usage)
      splitVerb (← side.read none argument) rest

def commandOf (verb : Verb) (side : Side) : Except Interruption Command :=
  let has (switch : Switch) := (side.given.lookup switch).isSome
  match verb with
  | .build => .ok (.build (has .force))
  | .refresh => .ok .refresh
  | .query =>
      if side.terms = [] then .error .usage
      else
        let limit := (side.given.lookup .limit).bind fun value => parseNat64? value.toList
        let format := (side.given.lookup .output).bind Format.ofName?
        .ok (.query (" ".intercalate side.terms.reverse) limit (has .presentOnly)
          (!has .noRefresh) (format.getD .text))
  | .status => .ok .status
  | .clear => .ok (.clear (has .yes))

def Invocation.parse (arguments : List String) : Except Interruption Invocation := do
  let (before, verb, rest) ← splitVerb {} arguments
  let after ← Side.readAll (some verb) {} rest
  let value (switch : Switch) := (after.given.lookup switch).or (before.given.lookup switch)
  return {
    config := value .config
    repository := value .repository
    cache := value .cache
    command := ← commandOf verb after }

end AnnexCatalog.CommandLine
