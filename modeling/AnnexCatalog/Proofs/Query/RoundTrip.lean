import AnnexCatalog.Proofs.Query.Pieces
import AnnexCatalog.Query.Render

/-! # Written queries are read again

A query that was read from a text can be written, and the written form read again. That gives the
same query exactly if each of its clauses is faithful to its written form: a value that needs quotes
holds none, a quoted value that looks like a range still needs its quotes, and the number of a
comparison is one word (`parse_render_iff`).
-/

namespace AnnexCatalog.Query

open Text

/-! ### Faithful clauses -/

/-- Whether a value between quotes ends at the right one of them. -/
def Quotable (value : List Char) : Prop :=
  needsQuotes value = true → '"' ∉ value

instance (value : List Char) : Decidable (Quotable value) :=
  inferInstanceAs (Decidable (_ → _))

/-- A filter that its written form is read as. -/
def Filter.Faithful (filter : Filter) : Prop :=
  let value := filter.value.toList
  match filter.operator with
  | .contains => Quotable value ∧
      (filter.field.isNumeric = true → needsQuotes value = false → splitRange? value = none)
  | .exact => Quotable value
  | .above | .below | .atLeast | .atMost => ∀ c ∈ value, endsWord c = false
  | .range | .empty => True

instance (filter : Filter) : Decidable filter.Faithful :=
  match filter with
  | { operator := .contains, .. } => inferInstanceAs (Decidable (Quotable _ ∧ (_ → _ → _)))
  | { operator := .exact, .. } => inferInstanceAs (Decidable (Quotable _))
  | { operator := .above, .. } | { operator := .below, .. }
  | { operator := .atLeast, .. } | { operator := .atMost, .. } => List.decidableBAll _ _
  | { operator := .range, .. } | { operator := .empty, .. } => .isTrue trivial

/-- A clause that its written form is read as. -/
def Clause.Faithful : Clause → Prop
  | .text value _ => Quotable value.toList
  | .filter condition => condition.Faithful

instance : DecidablePred Clause.Faithful
  | .text value _ => inferInstanceAs (Decidable (Quotable value.toList))
  | .filter condition => inferInstanceAs (Decidable condition.Faithful)

/-- Whether a clause can be read back does not depend on its sign. -/
theorem Clause.faithful_withSign (clause : Clause) (negated : Bool) :
    (clause.withSign negated).Faithful ↔ clause.Faithful := by
  cases clause <;> exact Iff.rfl

/-! ### Values -/

/-- What is known of a value that is written without quotes. -/
structure Plain (value : List Char) : Prop where
  nonempty : value ≠ []
  letters : ∀ c ∈ value, endsWord c = false
  noColon : ':' ∉ value
  unmarked : ∀ c ∈ ['-', '=', '<', '>'], value.head? ≠ some c
  noSeparator : value ≠ ['O', 'R']

/-- A value that is printed without quotes has no character that needs them. -/
theorem plain_of_needsQuotes {value : List Char} (bare : needsQuotes value = false) :
    Plain value := by
  cases value with
  | nil => cases bare
  | cons first others =>
      simp only [needsQuotes, Bool.or_eq_false_iff, List.any_eq_false, beq_eq_false_iff_ne] at bare
      obtain ⟨⟨unmarked, letters⟩, noSeparator⟩ := bare
      refine ⟨List.cons_ne_nil _ _, fun c member => ?_, fun member => ?_, ?_, noSeparator⟩
      · have letter := letters c member
        simp only [Bool.or_eq_true, not_or, Bool.not_eq_true] at letter
        exact Bool.or_eq_false_iff.mpr letter.1
      · exact letters ':' member rfl
      · intro c marked head
        cases head
        rw [List.contains_iff_mem.mpr marked] at unmarked
        cases unmarked

/-- A value that is read from a word or from quotes does not begin with a quote. -/
theorem Written.head?_ne {written value following : List Char}
    (shape : Written written value following) : value.head? ≠ some '"' := by
  cases shape with
  | quotation closed =>
      intro head
      exact closed (List.mem_of_head? head)
  | word shape => exact shape.unquoted

/-- A plain value that does not begin with a quote is read as a word where the text may end. -/
theorem Plain.isWord {value following : List Char} (plain : Plain value)
    (unquoted : value.head? ≠ some '"') (ends : atBoundary following = true) :
    IsWord value following :=
  ⟨plain.nonempty, plain.letters, ends, unquoted⟩

/-- A written value is read as the value. -/
theorem written_renderValue {value : List Char} {following : List Char} (quotable : Quotable value)
    (unquoted : value.head? ≠ some '"') (ends : atBoundary following = true) :
    Written (renderValue (String.ofList value)) value following := by
  rw [renderValue, String.toList_ofList]
  split
  · next quoted => exact .quotation (quotable quoted)
  · next bare =>
      exact .word ((plain_of_needsQuotes (Bool.eq_false_iff.mpr bare)).isWord unquoted ends)

/-- A value that is read back from between its quotes holds no quote. -/
theorem quotable_of_same {value left rest : List Char} (unquoted : value.head? ≠ some '"')
    (nonempty : value ≠ [])
    (same : value ++ left = renderValue (String.ofList value) ++ rest) : Quotable value := by
  rw [renderValue, String.toList_ofList] at same
  intro quoted
  rw [if_pos quoted] at same
  cases value with
  | nil => exact absurd rfl nonempty
  | cons c others =>
      obtain ⟨rfl, -⟩ := List.cons.inj same
      exact absurd rfl unquoted

/-! ### Filters -/

/-- The two parts of a word that is split at a minus are the word again with the minus between them.
-/
theorem eq_of_mem_splitsAtMinus {word low high : List Char}
    (member : (low, high) ∈ splitsAtMinus word) : word = low ++ '-' :: high := by
  induction word generalizing low with
  | nil => cases member
  | cons c rest step =>
      have later (found : (low, high) ∈ (splitsAtMinus rest).map fun parts =>
          (c :: parts.1, parts.2)) : c :: rest = low ++ '-' :: high := by
        obtain ⟨parts, inside, same⟩ := List.mem_map.mp found
        cases same
        exact congrArg (c :: ·) (step inside)
      rw [splitsAtMinus] at member
      split at member
      · next minus =>
          rcases List.mem_cons.mp member with first | found
          · cases first
            exact congrArg (· :: _) minus
          · exact later found
      · exact later member

/-- The bounds of a range are the word again with the minus between them. -/
theorem eq_of_splitRange? {word low high : List Char}
    (found : splitRange? word = some (low, high)) : word = low ++ '-' :: high :=
  eq_of_mem_splitsAtMinus (List.mem_of_find?_eq_some found)

theorem ne_nil_of_numberOf? {value : List Char} (number : (numberOf? value).isSome = true) :
    value ≠ [] := by
  rintro rfl
  exact absurd number (by decide +kernel)

section Comparison

variable {mark : List Char} {operator : Operator} {field : Field} {value : String}

/-- A comparison is printed as its mark and its value. -/
theorem renderTest_comparison (marked : (mark, operator) ∈ comparisons) :
    ({ field, operator, value } : Filter).renderTest = mark ++ value.toList := by
  simp only [comparisons, List.mem_cons, Prod.mk.injEq, List.not_mem_nil, or_false] at marked
  rcases marked with ⟨rfl, rfl⟩ | ⟨rfl, rfl⟩ | ⟨rfl, rfl⟩ | ⟨rfl, rfl⟩ <;> rfl

/-- A comparison can be read back if no character of its value ends a word. -/
theorem faithful_comparison (marked : (mark, operator) ∈ comparisons) :
    ({ field, operator, value } : Filter).Faithful ↔ ∀ c ∈ value.toList, endsWord c = false := by
  simp only [comparisons, List.mem_cons, Prod.mk.injEq, List.not_mem_nil, or_false] at marked
  rcases marked with ⟨rfl, rfl⟩ | ⟨rfl, rfl⟩ | ⟨rfl, rfl⟩ | ⟨rfl, rfl⟩ <;> exact Iff.rfl

end Comparison

/-- A quoted value that is not empty asks for the fields that contain it. -/
theorem quotationFilter_of_ne_nil {field : Field} {value : List Char} (nonempty : value ≠ []) :
    quotationFilter field value =
      { field, operator := .contains, value := String.ofList value } := by
  rw [quotationFilter, if_neg (by simpa using nonempty)]

/-- A faithful filter on an inner text is read from its written form. -/
theorem filterText_contains {field : Field} {value following : List Char} (nonempty : value ≠ [])
    (unquoted : value.head? ≠ some '"')
    (faithful :
      ({ field, operator := .contains, value := String.ofList value } : Filter).Faithful)
    (ends : atBoundary following = true) :
    FilterText field (renderValue (String.ofList value)) following
      { field, operator := .contains, value := String.ofList value } := by
  obtain ⟨quotable, range⟩ := faithful
  rw [String.toList_ofList] at quotable range
  rw [renderValue, String.toList_ofList]
  split
  · next quoted =>
      rw [← quotationFilter_of_ne_nil nonempty]
      exact .quotation (quotable quoted)
  · next bare =>
      have plain := plain_of_needsQuotes (Bool.eq_false_iff.mpr bare)
      refine .word (plain.isWord unquoted ends) ?_ ?_
      · have unmarked := plain.unmarked
        simp only [List.forall_mem_cons] at unmarked
        simp only [leads, List.forall_mem_cons]
        exact ⟨unmarked.2.1, unmarked.2.2.2.1, unmarked.2.2.1, unquoted, List.forall_mem_nil _⟩
      · have noRange : (if field.isNumeric then splitRange? value else none) = none := by
          split
          · next numeric => exact range numeric (Bool.eq_false_iff.mpr bare)
          · rfl
        rw [wordFilter, noRange]

/-- A faithful filter is read from its written form. -/
theorem FilterText.render {field : Field} {written before following : List Char} {filter : Filter}
    (origin : FilterText field written before filter) (faithful : filter.Faithful)
    (ends : atBoundary following = true) : FilterText field filter.renderTest following filter := by
  cases origin with
  | @comparison mark _ value _ operator marked numeric shape number =>
      rw [faithful_comparison marked, String.toList_ofList] at faithful
      rw [renderTest_comparison marked, String.toList_ofList]
      have word := IsWord.mk (ne_nil_of_numberOf? number) faithful ends shape.head?_ne
      exact .comparison marked numeric (.word word) number
  | @exact _ value _ shape =>
      have quotable : Quotable value := by
        rw [← String.toList_ofList (l := value)]
        exact faithful
      exact .exact (written_renderValue quotable shape.head?_ne ends)
  | @quotation body _ closed =>
      cases body with
      | nil => exact .quotation closed
      | cons c others =>
          have unquoted : (c :: others).head? ≠ some '"' := fun head =>
            closed (List.mem_of_head? head)
          rw [quotationFilter_of_ne_nil (List.cons_ne_nil _ _)] at faithful ⊢
          exact filterText_contains (List.cons_ne_nil _ _) unquoted faithful ends
  | word shape plain meaning =>
      have range := meaning
      rw [wordFilter] at meaning
      split at meaning
      · cases meaning
        exact filterText_contains shape.nonempty shape.unquoted faithful ends
      · next low high found =>
          split at meaning
          · cases meaning
          · cases meaning
            have whole : written = low ++ '-' :: high := by
              split at found
              · exact eq_of_splitRange? found
              · cases found
            rw [Filter.renderTest, Option.getD_some, String.toList_ofList, String.toList_ofList,
              ← whole]
            exact .word (shape.of_atBoundary fun _ => ends) plain range

/-- What a text begins with is what its first part begins with, if there is any. -/
theorem head?_of_append {value left rest : List Char} {c : Char} (nonempty : value ≠ [])
    (same : value ++ left = c :: rest) : value.head? = some c := by
  cases value with
  | nil => exact absurd rfl nonempty
  | cons first others => exact congrArg some (List.cons.inj same).1

/-- A filter that is read from its written form is faithful. -/
theorem FilterText.faithful {field : Field} {text left rest : List Char} {filter : Filter}
    (shape : FilterText field text left filter)
    (same : text ++ left = filter.renderTest ++ rest) : filter.Faithful := by
  cases shape with
  | @comparison mark written value _ operator marked numeric shape number =>
      rw [renderTest_comparison marked, String.toList_ofList, List.append_assoc,
        List.append_assoc] at same
      have values := List.append_cancel_left same
      rw [faithful_comparison marked, String.toList_ofList]
      cases shape with
      | word shape => exact shape.letters
      | quotation closed =>
          have head := head?_of_append (ne_nil_of_numberOf? number) values.symm
          exact absurd (List.mem_of_head? head) closed
  | @exact written value _ shape =>
      have quotable : Quotable value := by
        cases shape with
        | quotation closed => exact fun _ => closed
        | word shape =>
            exact quotable_of_same shape.unquoted shape.nonempty (List.cons.inj same).2
      rw [← String.toList_ofList (l := value)] at quotable
      exact quotable
  | @quotation body _ closed =>
      cases body with
      | nil => exact trivial
      | cons c others =>
          rw [quotationFilter_of_ne_nil (List.cons_ne_nil _ _)] at same ⊢
          have unquoted : (c :: others).head? ≠ some '"' := fun head =>
            closed (List.mem_of_head? head)
          constructor
          · rw [String.toList_ofList]
            exact fun _ => closed
          · rw [String.toList_ofList]
            intro _ bare
            rw [Filter.renderTest, renderValue, String.toList_ofList, bare] at same
            exact absurd (congrArg List.head? same).symm unquoted
  | word shape plain meaning =>
      rw [wordFilter] at meaning
      split at meaning
      · next noRange =>
          cases meaning
          constructor
          · rw [String.toList_ofList]
            exact quotable_of_same shape.unquoted shape.nonempty same
          · rw [String.toList_ofList]
            intro numeric _
            exact (if_pos numeric).symm.trans noRange
      · split at meaning
        · cases meaning
        · cases meaning
          exact trivial

/-! ### Clauses -/

/-- A filter that is read after its field is about that field, has no sign yet, and has a second
value only if the field is numeric. -/
theorem FilterText.signless {field : Field} {text following : List Char} {filter : Filter}
    (shape : FilterText field text following filter) :
    filter.field = field ∧ filter.negated = false ∧
      (field.isNumeric = false → filter.valueEnd = none) := by
  cases shape with
  | comparison => exact ⟨rfl, rfl, fun _ => rfl⟩
  | exact => exact ⟨rfl, rfl, fun _ => rfl⟩
  | quotation =>
      rw [quotationFilter]
      split <;> exact ⟨rfl, rfl, fun _ => rfl⟩
  | word shape plain meaning =>
      rw [wordFilter] at meaning
      split at meaning
      · cases meaning
        exact ⟨rfl, rfl, fun _ => rfl⟩
      · next range =>
          split at meaning
          · cases meaning
          · cases meaning
            refine ⟨rfl, rfl, fun textual => ?_⟩
            rw [textual] at range
            cases range

/-- A filter on presence is settled as an equality; other filters stay as they are. -/
theorem FilterText.settled {field : Field} {text following : List Char} {filter settled : Filter}
    (shape : FilterText field text following filter)
    (meaning : settlePresence [] [] filter = .ok settled) :
    (field ≠ .present ∧ settled = filter) ∨ (field = .present ∧ ∃ flag : Bool,
      settled = { field := .present, operator := .exact, value := toString flag }) := by
  obtain ⟨rfl, unnegated, single⟩ := shape.signless
  rw [settlePresence] at meaning
  split at meaning
  · next other =>
      cases meaning
      exact .inl ⟨other, rfl⟩
  · next presence =>
      rw [ne_eq, not_not] at presence
      split at meaning
      · cases meaning
      · split at meaning
        · next flag _ =>
            cases meaning
            rw [presence, unnegated, single (by rw [presence]; rfl)]
            exact .inr ⟨rfl, flag, rfl⟩
        · cases meaning

/-- A field is found by its name. -/
theorem ofName?_toList_name (field : Field) :
    Field.ofName? (String.ofList field.name.toList) = some field := by
  rw [String.ofList_toList, Field.ofName?_name]

/-- A text that does not begin with a quote can be printed and read back, in quotes or without. -/
theorem conditionText_text {value following : List Char} (unquoted : value.head? ≠ some '"')
    (quotable : Quotable value) (ends : atBoundary following = true) :
    ConditionText (renderValue (String.ofList value)) following
      (.text (String.ofList value) false) := by
  rw [renderValue, String.toList_ofList]
  split
  · next quoted => exact .quotation (quotable quoted)
  · next bare =>
      have plain := plain_of_needsQuotes (Bool.eq_false_iff.mpr bare)
      refine .word (plain.isWord unquoted ends) ?_
      rintro ⟨name, rest, -, rfl⟩
      exact plain.noColon (by simp)

/-- A truth value that is printed can be quoted. -/
theorem quotable_toString (flag : Bool) : Quotable (toString flag).toList := by
  cases flag <;> decide

/-- A truth value that is printed settles a presence clause as it is. -/
theorem settlePresence_toString (flag : Bool) :
    settlePresence [] [] { field := .present, operator := .exact, value := toString flag } =
      .ok { field := .present, operator := .exact, value := toString flag } := by
  cases flag <;> decide

/-- A presence clause that is printed is read as one. -/
theorem filterText_toString {following : List Char} (flag : Bool)
    (ends : atBoundary following = true) :
    FilterText .present ('=' :: renderValue (toString flag)) following
      { field := .present, operator := .exact, value := toString flag } := by
  have unquoted : (toString flag).toList.head? ≠ some '"' := by cases flag <;> decide
  have value := written_renderValue (quotable_toString flag) unquoted ends
  rw [← String.ofList_toList (s := toString flag)]
  exact .exact value

/-- A filter that is read after its field, and is settled, is read from its printed form. -/
theorem conditionText_filter {filter settled : Filter} {following : List Char}
    (unnegated : settled.negated = false)
    (shape : FilterText settled.field settled.renderTest following filter)
    (meaning : settlePresence [] [] filter = .ok settled) :
    ConditionText (Clause.filter settled).render following (.filter settled) := by
  rw [Clause.render, unnegated]
  exact .filter (ofName?_toList_name settled.field) shape meaning

/-- The printed form of a condition that was once read is read as that condition, if it can be read
back. -/
theorem ConditionText.render {written before following : List Char} {clause : Clause}
    (origin : ConditionText written before clause) (faithful : clause.Faithful)
    (ends : atBoundary following = true) : ConditionText clause.render following clause := by
  cases origin with
  | @quotation body _ closed =>
      have unquoted : body.head? ≠ some '"' := fun head => closed (List.mem_of_head? head)
      exact conditionText_text unquoted (fun _ => closed) ends
  | word shape unnamed =>
      rw [Clause.Faithful, String.toList_ofList] at faithful
      exact conditionText_text shape.unquoted faithful ends
  | @filter name _ _ field filter settled known shape meaning =>
      rcases shape.settled meaning with ⟨_, rfl⟩ | ⟨rfl, flag, rfl⟩
      · obtain ⟨rfl, unnegated, -⟩ := shape.signless
        exact conditionText_filter unnegated (shape.render faithful ends) meaning
      · exact conditionText_filter rfl (filterText_toString flag ends) (settlePresence_toString flag)

/-- A clause that is read from its written form is faithful. -/
theorem ConditionText.faithful {written left rest : List Char} {clause : Clause}
    (shape : ConditionText written left clause) (same : written ++ left = clause.render ++ rest) :
    clause.Faithful := by
  cases shape with
  | quotation closed =>
      rw [Clause.Faithful, String.toList_ofList]
      exact fun _ => closed
  | word shape unnamed =>
      rw [Clause.Faithful, String.toList_ofList]
      exact quotable_of_same shape.unquoted shape.nonempty same
  | @filter name text _ field filter settled known shape meaning =>
      rcases shape.settled meaning with ⟨_, rfl⟩ | ⟨_, flag, rfl⟩
      · obtain ⟨rfl, unnegated, -⟩ := shape.signless
        rw [Clause.render, unnegated] at same
        have read : takeName? (name ++ ':' :: text ++ left) = some (name, text ++ left) :=
          takeName?_eq_some_iff.mpr ⟨by simp, isName_of_ofName?_eq_some known⟩
        have written : takeName? (name ++ ':' :: text ++ left) =
            some (settled.field.name.toList, settled.renderTest ++ rest) := by
          refine takeName?_eq_some_iff.mpr ⟨?_, isName_of_ofName?_eq_some (ofName?_toList_name _)⟩
          rw [same]
          simp [renderSign]
        have parts := Prod.mk.inj (Option.some.inj (read.symm.trans written))
        exact shape.faithful parts.2
      · exact quotable_toString flag

/-! ### Signs -/

theorem ConditionText.unnegated {written following : List Char} {clause : Clause}
    (shape : ConditionText written following clause) : clause.negated = false := by
  cases shape with
  | quotation => rfl
  | word => rfl
  | filter known shape meaning =>
      rcases shape.settled meaning with ⟨_, rfl⟩ | ⟨_, flag, rfl⟩
      · exact shape.signless.2.1
      · rfl

/-- A negated clause is printed with a minus before it. -/
theorem Clause.render_negated {clause : Clause} (unnegated : clause.negated = false) :
    (clause.withSign true).render = '-' :: clause.render := by
  cases clause with
  | text value negated =>
      cases unnegated
      rfl
  | filter condition =>
      have plain : condition.negated = false := unnegated
      rw [withSign, render, render, plain]
      rfl

theorem head?_name (field : Field) : ∃ c, field.name.toList.head? = some c ∧ c.isLower = true := by
  obtain ⟨nonempty, lower⟩ := isLower_of_known field (Field.mem_all field) field.name
    List.mem_cons_self
  cases same : field.name.toList with
  | nil => exact absurd same nonempty
  | cons c others => exact ⟨c, rfl, lower c (by rw [same]; exact List.mem_cons_self)⟩

/-- A plain value begins neither with a blank nor with a separator. -/
theorem Plain.begins {value rest : List Char} (plain : Plain value)
    (ends : atBoundary rest = true) :
    atBoundary (value ++ rest) = false ∧ afterSeparator? (value ++ rest) = none := by
  rw [afterSeparator?_eq_none_iff]
  obtain ⟨nonempty, letters, -, -, noSeparator⟩ := plain
  match value with
  | [] => exact absurd rfl nonempty
  | [c] =>
      have letter := letters c List.mem_cons_self
      refine ⟨letter, fun head => ?_, fun tail split => ?_⟩
      · cases head
        cases letter
      · cases split
        cases ends
  | c :: d :: others =>
      have letter := letters c List.mem_cons_self
      refine ⟨letter, fun head => ?_, fun tail split => ?_⟩
      · cases head
        cases letter
      · cases split
        cases others with
        | nil => exact absurd rfl noSeparator
        | cons e others => exact letters e (by simp)

/-- Where the written form of a clause begins, no blank and no separator stands. -/
theorem Clause.render_begins (clause : Clause) {rest : List Char} (ends : atBoundary rest = true) :
    atBoundary (clause.render ++ rest) = false ∧ afterSeparator? (clause.render ++ rest) = none ∧
      (clause.negated = false → clause.render.head? ≠ some '-') := by
  cases clause with
  | text value negated =>
      cases negated with
      | true => exact ⟨rfl, rfl, nofun⟩
      | false =>
          have written : (Clause.text value false).render = renderValue value := rfl
          rw [written, renderValue]
          split
          · exact ⟨rfl, rfl, fun _ => nofun⟩
          · next bare =>
              have plain := plain_of_needsQuotes (Bool.eq_false_iff.mpr bare)
              obtain ⟨inside, unseparated⟩ := plain.begins ends
              exact ⟨inside, unseparated, fun _ => plain.unmarked '-' (by decide)⟩
  | filter condition =>
      cases sign : condition.negated with
      | true =>
          rw [render, sign]
          exact ⟨rfl, rfl, fun unnegated => absurd (sign.symm.trans unnegated) nofun⟩
      | false =>
          obtain ⟨c, head, lower⟩ := head?_name condition.field
          obtain ⟨others, same⟩ := List.head?_eq_some_iff.mp head
          have alphabetic : c.isAlpha = true := Bool.or_eq_true_iff.mpr (.inr lower)
          have letter : isNameLetter c = true := by
            rw [isNameLetter, Char.isAlphanum, alphabetic, Bool.true_or, Bool.true_or]
          have differs (d : Char) (other : d.isLower = false) : some c ≠ some d := by
            intro same
            cases same
            exact absurd (lower.symm.trans other) nofun
          rw [render, sign, same, afterSeparator?_eq_none_iff]
          refine ⟨endsWord_of_isNameLetter letter, ⟨differs '|' (by decide), ?_⟩,
            fun _ => differs '-' (by decide)⟩
          intro tail split
          exact absurd (congrArg List.head? split) (differs 'O' (by decide))

/-- The printed form of a clause that was once read is read as that clause, if it can be read back.
-/
theorem ClauseText.render {written before following : List Char} {clause : Clause}
    (origin : ClauseText written before clause) (faithful : clause.Faithful)
    (ends : atBoundary following = true) : ClauseText clause.render following clause := by
  cases origin with
  | plain _ shape =>
      exact .plain ((clause.render_begins ends).2.2 shape.unnegated) (shape.render faithful ends)
  | @negated _ _ clause shape =>
      rw [Clause.faithful_withSign] at faithful
      rw [Clause.render_negated shape.unnegated]
      exact .negated (shape.render faithful ends)

/-- A clause that is read from its own printed form can be read back. -/
theorem ClauseText.faithful {written left rest : List Char} {clause : Clause}
    (shape : ClauseText written left clause) (same : written ++ left = clause.render ++ rest) :
    clause.Faithful := by
  cases shape with
  | plain _ shape => exact shape.faithful same
  | negated shape =>
      rw [Clause.render_negated shape.unnegated] at same
      exact (Clause.faithful_withSign _ _).mpr (shape.faithful (List.cons.inj same).2)

/-! ### Queries -/

/-- The pieces of a query, with separators between its groups. -/
def joined (groups : List (List Clause)) : List Piece :=
  [.separator].intercalate (groups.map (List.map Piece.clause))

/-- Groups are formed from pieces exactly if the pieces are the groups with separators between them.
-/
theorem forms_iff_joined {pieces : List Piece} {groups : List (List Clause)}
    (nonempty : [] ∉ groups) : Forms pieces groups ↔ pieces = joined groups := by
  constructor
  · intro formed
    cases formed with
    | none => rfl
    | some _ _ runs => rw [joined, ← runs, List.intercalate_splitOn]
  · rintro rfl
    cases groups with
    | nil => exact .none
    | cons group later =>
        refine .some ?_ nonempty (List.splitOn_intercalate _ ?_ (by simp))
        · have found : group ≠ [] := fun same => nonempty (by simp [same])
          cases later <;> simp [joined, List.intercalate_cons_cons, found]
        · simp only [List.forall_mem_map]
          exact fun clauses _ => separator_notMem_map clauses

/-- Every clause that a text is cut into is read from some part of it. -/
theorem CutInto.exists_clauseText {text : List Char} {pieces : List Piece} {clause : Clause}
    (cut : CutInto text pieces) (member : .clause clause ∈ pieces) :
    ∃ written following, ClauseText written following clause := by
  induction cut with
  | nil => cases member
  | blank blank later step => exact step member
  | separator separated later step => exact step (by simpa using member)
  | clause unseparated shape later step =>
      rcases List.mem_cons.mp member with same | member
      · cases same
        exact ⟨_, _, shape⟩
      · exact step member

/-- A space does not matter for the pieces of the text after it. -/
theorem cutInto_blank_iff {rest : List Char} {pieces : List Piece} :
    CutInto (' ' :: rest) pieces ↔ CutInto rest pieces := by
  rw [cutInto_iff, cutInto_iff, scan_blank rest (by decide)]

/-- A bar is a separator before the pieces of the text after it. -/
theorem cutInto_bar_iff {rest : List Char} {pieces : List Piece} :
    CutInto ('|' :: rest) (.separator :: pieces) ↔ CutInto rest pieces := by
  have separated : afterSeparator? ('|' :: rest) = some rest := rfl
  rw [cutInto_iff, cutInto_iff, scan_separator separated]
  simp

/-- The written form of a clause is read as the clause if that is faithful. -/
theorem cutInto_render_iff {written before rest : List Char} {clause : Clause}
    {pieces : List Piece} (origin : ClauseText written before clause)
    (ends : atBoundary rest = true) :
    CutInto (clause.render ++ rest) (.clause clause :: pieces) ↔
      clause.Faithful ∧ CutInto rest pieces := by
  obtain ⟨inside, unseparated, -⟩ := clause.render_begins ends
  constructor
  · intro cut
    generalize same : clause.render ++ rest = text at cut
    cases cut with
    | blank blank later => simp [atBoundary, endsWord, blank, same] at inside
    | @clause taken left _ _ _ shape later =>
        have faithful := shape.faithful same.symm
        refine ⟨faithful, ?_⟩
        have first := (takeClause_eq_ok_iff inside).mpr ⟨_, rfl, origin.render faithful ends⟩
        have second := (takeClause_eq_ok_iff inside).mpr ⟨_, same, shape⟩
        cases first.symm.trans second
        exact later
  · rintro ⟨faithful, later⟩
    exact .clause unseparated (origin.render faithful ends) later

/-- A printed group is cut into its own clauses exactly if all of them can be read back. -/
theorem cutInto_renderGroup_iff {clauses : List Clause} {rest : List Char} {pieces : List Piece}
    (origins : ∀ clause ∈ clauses, ∃ written before, ClauseText written before clause)
    (nonempty : clauses ≠ []) (ends : atBoundary rest = true) :
    CutInto (renderGroup clauses ++ rest) (clauses.map Piece.clause ++ pieces) ↔
      (∀ clause ∈ clauses, clause.Faithful) ∧ CutInto rest pieces := by
  induction clauses with
  | nil => exact absurd rfl nonempty
  | cons clause others step =>
      rw [List.forall_mem_cons] at origins ⊢
      obtain ⟨⟨written, before, origin⟩, origins⟩ := origins
      cases others with
      | nil =>
          rw [renderGroup, List.map_singleton, List.map_singleton, List.intercalate_singleton]
          simpa using cutInto_render_iff origin ends
      | cons next others =>
          have whole : renderGroup (clause :: next :: others) ++ rest =
              clause.render ++ ' ' :: (renderGroup (next :: others) ++ rest) := by
            simp [renderGroup, List.intercalate_cons_cons]
          rw [whole, List.map_cons, List.cons_append, cutInto_render_iff origin (by rfl),
            cutInto_blank_iff, step origins (List.cons_ne_nil _ _), and_assoc]

/-- The written form of a query is cut into the pieces of the query if all clauses are faithful. -/
theorem cutInto_joined_iff {groups : List (List Clause)}
    (origins : ∀ group ∈ groups, ∀ clause ∈ group,
      ∃ written before, ClauseText written before clause)
    (nonempty : [] ∉ groups) :
    CutInto ([' ', '|', ' '].intercalate (groups.map renderGroup)) (joined groups) ↔
      ∀ group ∈ groups, ∀ clause ∈ group, clause.Faithful := by
  induction groups with
  | nil => exact ⟨fun _ => nofun, fun _ => .nil⟩
  | cons group others step =>
      rw [List.forall_mem_cons] at origins ⊢
      rw [List.mem_cons, not_or] at nonempty
      have found : group ≠ [] := Ne.symm nonempty.1
      cases others with
      | nil =>
          have alone : CutInto (renderGroup group ++ []) (group.map Piece.clause ++ []) ↔ _ :=
            cutInto_renderGroup_iff origins.1 found rfl
          simpa [joined, CutInto.nil] using alone
      | cons next others =>
          rw [List.map_cons, List.map_cons, joined, List.map_cons, List.map_cons,
            List.intercalate_cons_cons, List.intercalate_cons_cons, List.append_assoc,
            List.append_assoc, cutInto_renderGroup_iff origins.1 found rfl]
          refine and_congr_right fun _ => ?_
          rw [← step origins.2 nonempty.2]
          exact cutInto_blank_iff.trans (cutInto_bar_iff.trans cutInto_blank_iff)

theorem Forms.nil_notMem {pieces : List Piece} {groups : List (List Clause)}
    (formed : Forms pieces groups) : [] ∉ groups := by
  cases formed with
  | none => exact List.not_mem_nil
  | some _ nonempty _ => exact nonempty

theorem Forms.clause_mem {pieces : List Piece} {groups : List (List Clause)} {group : List Clause}
    {clause : Clause} (formed : Forms pieces groups) (among : group ∈ groups)
    (member : clause ∈ group) : .clause clause ∈ pieces := by
  cases formed with
  | none => cases among
  | some _ _ runs =>
      exact (mem_pieces_iff runs Piece.noConfusion).mpr ⟨group, among, List.mem_map_of_mem member⟩

/-- **A written query is read again.** A query that was read from a text is read from its written
form exactly if all its clauses are faithful. -/
theorem parse_render_iff {text : String} {query : Query} (accepted : parse text = .ok query) :
    parse (render query) = .ok query ↔
      ∀ group ∈ query.groups, ∀ clause ∈ group, clause.Faithful := by
  obtain ⟨pieces, cut, formed⟩ := parse_eq_ok_iff.mp accepted
  have origins : ∀ group ∈ query.groups, ∀ clause ∈ group,
      ∃ written before, ClauseText written before clause := fun group among clause member =>
    cut.exists_clauseText (formed.clause_mem among member)
  rw [parse_eq_ok_iff, render, String.toList_ofList, ← cutInto_joined_iff origins formed.nil_notMem]
  simp only [forms_iff_joined formed.nil_notMem, exists_eq_right]

/-- A comparison, a quotation with a blank inside and a negated word are read again. -/
theorem parse_render_of_faithful :
    let query : Query :=
      ⟨[[.filter { field := .bpm, operator := .atLeast, value := "120" },
        .filter { field := .artist, operator := .contains, value := "A B" }],
        [.text "live" true]]⟩
    parse "bpm:>=120 artist:\"A B\" | -live" = .ok query ∧ parse (render query) = .ok query := by
  intro query
  have accepted : parse "bpm:>=120 artist:\"A B\" | -live" = .ok query := by decide +kernel
  exact ⟨accepted, (parse_render_iff accepted).mpr (by decide +kernel)⟩

/-- A quoted value that looks like a range loses its quotes and is read as the range. -/
theorem parse_render_ne_of_range :
    let query : Query :=
      ⟨[[.filter { field := .bpm, operator := .contains, value := "140-160" }]]⟩
    parse "bpm:\"140-160\"" = .ok query ∧ parse (render query) ≠ .ok query := by
  decide +kernel

end AnnexCatalog.Query
