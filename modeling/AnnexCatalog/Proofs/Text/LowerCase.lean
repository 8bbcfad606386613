import AnnexCatalog.Proofs.Text.Tokens
import AnnexCatalog.Text.LowerCase

/-! # Lower case and parts of texts

Making a text small acts on each character alone but for the capital sigma, which looks at what stands
around it. So a part of a text is made small as it is in the text if its sigmas are
(`KeepsSigmas.lower_isInfix`). That is so where the part has no capital sigma, and where it is not
joined to letters on either side.
-/

namespace AnnexCatalog.Text

/-- Every capital sigma of a part becomes the same letter in the part alone as between what stands
around the part. -/
def KeepsSigmas (before part after : List Char) : Prop :=
  ∀ left right, part = left ++ 'Σ' :: right →
    smallSigma (left.reverse ++ before.reverse) (right ++ after) = smallSigma left.reverse right

/-- A text is made small from its front on. -/
theorem exists_lowerFrom_append (context before rest : List Char) :
    ∃ small, lowerFrom context (before ++ rest) =
      small ++ lowerFrom (before.reverse ++ context) rest := by
  induction before generalizing context with
  | nil => exact ⟨[], rfl⟩
  | cons c before step =>
      obtain ⟨small, made⟩ := step (c :: context)
      rw [List.cons_append, lowerFrom, made, ← List.append_assoc, List.reverse_cons,
        List.append_assoc before.reverse]
      exact ⟨_, rfl⟩

/-- A part is made small as in the part alone if its sigmas are; of the part, `near` has been passed
already, and `far` stands before the part. -/
theorem lowerFrom_append {near far part after : List Char}
    (keeps : ∀ left right, part = left ++ 'Σ' :: right →
      smallSigma (left.reverse ++ (near ++ far)) (right ++ after) =
        smallSigma (left.reverse ++ near) right) :
    lowerFrom (near ++ far) (part ++ after) =
      lowerFrom near part ++ lowerFrom (part.reverse ++ (near ++ far)) after := by
  induction part generalizing near with
  | nil => rfl
  | cons c part step =>
      have tail : lowerFrom (c :: near ++ far) (part ++ after) =
          lowerFrom (c :: near) part ++ lowerFrom (part.reverse ++ (c :: near ++ far)) after := by
        apply step
        intro left right split
        have shifted := keeps (c :: left) right (by rw [split, List.cons_append])
        rwa [List.reverse_cons, List.append_assoc, List.append_assoc] at shifted
      have head : (if c = 'Σ' then [smallSigma (near ++ far) (part ++ after)] else lowerChar c) =
          if c = 'Σ' then [smallSigma near part] else lowerChar c := by
        split
        · next sigma =>
            have here := keeps [] part (by rw [sigma, List.nil_append])
            rw [List.reverse_nil, List.nil_append, List.nil_append] at here
            rw [here]
        · rfl
      rw [List.cons_append, lowerFrom, lowerFrom, head, List.append_assoc, List.reverse_cons,
        List.append_assoc part.reverse]
      exact congrArg _ tail

namespace KeepsSigmas

variable {before part after : List Char}

/-- A part whose sigmas are kept is found in the text without regard to case. -/
theorem lower_isInfix (keeps : KeepsSigmas before part after) :
    lowerFrom [] part <:+: lowerFrom [] (before ++ (part ++ after)) := by
  obtain ⟨small, made⟩ := exists_lowerFrom_append [] before (part ++ after)
  have inside : lowerFrom ([] ++ before.reverse) (part ++ after) =
      lowerFrom [] part ++ lowerFrom (part.reverse ++ ([] ++ before.reverse)) after := by
    apply lowerFrom_append
    intro left right split
    rw [List.nil_append, List.append_nil]
    exact keeps left right split
  rw [made, List.append_nil, ← List.nil_append before.reverse, inside]
  exact ⟨small, _, List.append_assoc _ _ _⟩

/-- A part without a capital sigma keeps its sigmas anywhere. -/
theorem of_notMem (plain : 'Σ' ∉ part) : KeepsSigmas before part after := by
  intro left right split
  rw [split] at plain
  exact absurd (List.mem_append_right _ List.mem_cons_self) plain

end KeepsSigmas

/-- Characters that do not matter for the case are passed over in the search for a cased one. -/
theorem meetsCased_cons (c : Char) (rest : List Char) :
    meetsCased (c :: rest) =
      if caseIgnorableRanges.covers c.toNat then meetsCased rest
      else casedRanges.covers c.toNat := by
  rw [meetsCased, List.dropWhile_cons]
  by_cases passed : caseIgnorableRanges.covers c.toNat = true
  · rw [if_pos passed, if_pos passed]
    rfl
  · rw [if_neg passed, if_neg passed]

/-- Where no cased letter is met, none is met behind other characters either. -/
theorem meetsCased_append {inner outer : List Char} (apart : meetsCased outer = false) :
    meetsCased (inner ++ outer) = meetsCased inner := by
  induction inner with
  | nil => exact apart
  | cons c inner step => rw [List.cons_append, meetsCased_cons, meetsCased_cons, step]

/-- A part that is not joined to letters on either side keeps its sigmas. -/
theorem KeepsSigmas.of_apart {before part after : List Char}
    (front : meetsCased before.reverse = false) (back : meetsCased after = false) :
    KeepsSigmas before part after := by
  intro left right _
  rw [smallSigma, meetsCased_append front, meetsCased_append back, ← smallSigma]

end AnnexCatalog.Text
