import AnnexCatalog.Query.Lexeme
import AnnexCatalog.Query.Number

/-! # Reading a clause

A clause is a quotation, a filter or a word, with a minus sign before it where it is negated. A
filter is the name of a field, a colon and a value. What the value means is told by its first
character: an equality, a comparison with a number, a quotation, or else a word, which on a numeric
field may be a range. The readers return the clause and the rest of the text.
-/

namespace AnnexCatalog.Query

open Text

/-- The value of a quotation after the colon: an empty one asks for a field without values. -/
def quotationFilter (field : Field) (value : List Char) : Filter :=
  if value.isEmpty then { field, operator := .empty, value := "" }
  else { field, operator := .contains, value := String.ofList value }

/-- The filter that a bare word after the colon stands for. -/
def wordFilter (field : Field) (place word : List Char) : Except Fault Filter :=
  match if field.isNumeric then splitRange? word else none with
  | none => .ok { field, operator := .contains, value := String.ofList word }
  | some (low, high) =>
      if isAbove low high then
        .error ⟨place, .reversedRange (String.ofList low) (String.ofList high)⟩
      else
        .ok { field, operator := .range, value := String.ofList low,
              valueEnd := some (String.ofList high) }

/-- The filter after the colon that follows a field name, and the rest. The name belongs to the
clause that begins at `clause`. -/
def takeFilter (field : Field) (clause text : List Char) : Except Fault (Filter × List Char) :=
  match takeComparison? text with
  | some (operator, after) =>
      if !field.isNumeric then .error ⟨clause, .notNumeric field⟩
      else do
        let (value, rest) ← takeValue ⟨clause, .missingNumber⟩ after
        if (numberOf? value).isSome then
          return ({ field, operator, value := String.ofList value }, rest)
        else throw ⟨text, .notNumber (String.ofList value)⟩
  | none =>
      match text with
      | '=' :: after => do
          let (value, rest) ← takeValue ⟨clause, .missingExactValue⟩ after
          return ({ field, operator := .exact, value := String.ofList value }, rest)
      | '"' :: body => do
          let (value, rest) ← takeQuotation body
          return (quotationFilter field value, rest)
      | text =>
          if atBoundary text then .error ⟨clause, .missingValue field⟩
          else do
            let (word, rest) := takeWord text
            return (← wordFilter field text word, rest)

/-- The truth value that a word spells, in any case of ASCII letters. -/
def flag? (value : String) : Option Bool :=
  let plain := String.ofList (asciiLower value.toList)
  if plain ∈ ["true", "yes", "1"] then some true
  else if plain ∈ ["false", "no", "0"] then some false
  else none

/-- A filter on presence reduced to its one form, the equality with `true` or `false`. The value
stands at `value` in the clause at `clause`. -/
def settlePresence (clause value : List Char) (filter : Filter) : Except Fault Filter :=
  if filter.field ≠ .present then .ok filter
  else if filter.operator = .empty then .error ⟨clause, .emptyPresence⟩
  else match flag? filter.value with
    | some flag => .ok { filter with operator := .exact, value := toString flag }
    | none => .error ⟨value, .notPresence⟩

/-- The clause that begins here, its sign apart, and the rest. The sign belongs to the clause at
`clause`. -/
def takeCondition (clause text : List Char) : Except Fault (Clause × List Char) :=
  match text with
  | '"' :: body => do
      let (value, rest) ← takeQuotation body
      return (.text (String.ofList value) false, rest)
  | text =>
      match takeName? text with
      | none =>
          let (word, rest) := takeWord text
          .ok (.text (String.ofList word) false, rest)
      | some (name, after) =>
          match Field.ofName? (String.ofList name) with
          | none => .error ⟨text, .unknownField (String.ofList name)⟩
          | some field => do
              let (filter, rest) ← takeFilter field clause after
              return (.filter (← settlePresence clause after filter), rest)

/-- The clause that begins here, and the rest. -/
def takeClause (text : List Char) : Except Fault (Clause × List Char) :=
  match text with
  | '-' :: after =>
      if atBoundary after then .error ⟨text, .bareNegation⟩
      else (takeCondition text after).map fun (clause, rest) => (clause.withSign true, rest)
  | text => takeCondition text text

end AnnexCatalog.Query
