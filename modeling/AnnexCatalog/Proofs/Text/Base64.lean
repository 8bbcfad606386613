import AnnexCatalog.Proofs.Text.Utf8
import AnnexCatalog.Text.Base64

/-! # Reading what was written in base64

Bytes are read from their written form and from no other one (`decode_eq_ok_iff`): each letter
stands for one value of six bits, the values of a group are those of its bytes, and neither the
padding nor the spare bits leave a choice.
-/

namespace AnnexCatalog.Text.Base64

/-! ### Letters -/

/-- The byte of the letter of a value. -/
def code (value : Nat) : UInt8 :=
  UInt8.ofNat (letter value).toNat

/-- The letters of the alphabet are printable ASCII characters. -/
theorem letter_bounds : ∀ value < 64,
    '+'.toNat ≤ (letter value).toNat ∧ (letter value).toNat < 0x7F := by
  decide

/-- The byte of a value is read as that value. -/
theorem value?_code : ∀ value < 64, value? (code value) = some value := by
  decide

theorem value?_lt {byte : UInt8} {value : Nat} (found : value? byte = some value) :
    value < 64 := by
  unfold value? at found
  grind

/-- No two bytes stand for one value. -/
theorem value?_injective {first second : UInt8} {value : Nat}
    (here : value? first = some value) (there : value? second = some value) : first = second := by
  apply UInt8.toNat_inj.mp
  unfold value? at here there
  grind

/-- A byte stands for a value exactly if it is the letter of that value. -/
theorem value?_eq_some_iff {byte : UInt8} {value : Nat} :
    value? byte = some value ↔ value < 64 ∧ byte = code value := by
  constructor
  · intro found
    have below := value?_lt found
    exact ⟨below, value?_injective found (value?_code value below)⟩
  · intro ⟨below, same⟩
    rw [same]
    exact value?_code value below

/-- The sign that fills up a group stands for no value. -/
theorem code_ne_pad {value : Nat} (below : value < 64) : code value ≠ pad := by
  intro same
  have found := value?_code value below
  rw [same] at found
  cases found

theorem encode_map_letter {values : List Nat} (small : ∀ value ∈ values, value < 64)
    (rest : List Char) :
    Utf8.encode (values.map letter ++ rest) = values.map code ++ Utf8.encode rest := by
  induction values with
  | nil => rfl
  | cons value others later =>
      obtain ⟨below, small⟩ := List.forall_mem_cons.mp small
      have above := (letter_bounds value below).2
      rw [List.map_cons, List.cons_append, Utf8.encode_cons,
        Utf8.encodeChar_of_ascii (by omega), later small]
      rfl

/-- Values are read exactly from their bytes. -/
theorem values_eq_ok_iff {position : Nat} {letters : List UInt8} {known : List Nat} :
    values position letters = .ok known ↔
      (∀ value ∈ known, value < 64) ∧ letters = known.map code := by
  induction letters generalizing position known with
  | nil =>
      refine ⟨fun found => ?_, fun ⟨_, same⟩ => ?_⟩
      · cases found
        exact ⟨fun _ member => absurd member List.not_mem_nil, rfl⟩
      · rw [List.map_eq_nil_iff.mp same.symm]
        rfl
  | cons byte rest later =>
      rw [values]
      cases known with
      | nil =>
          refine ⟨fun found => ?_, fun ⟨_, same⟩ => by cases same⟩
          split at found
          · cases found
          · obtain ⟨others, -, same⟩ := map_eq_ok_iff.mp found
            cases same
      | cons value known =>
          rw [List.forall_mem_cons, List.map_cons, List.cons.injEq]
          refine ⟨fun found => ?_, fun ⟨⟨below, small⟩, same, others⟩ => ?_⟩
          · split at found
            · cases found
            · next first =>
                obtain ⟨others, read, same⟩ := map_eq_ok_iff.mp found
                cases same
                obtain ⟨below, written⟩ := value?_eq_some_iff.mp first
                obtain ⟨small, rest⟩ := later.mp read
                exact ⟨⟨below, small⟩, written, rest⟩
          · rw [value?_eq_some_iff.mpr ⟨below, same⟩]
            exact map_eq_ok_iff.mpr ⟨known, later.mpr ⟨small, others⟩, rfl⟩

/-! ### Groups -/

/-- The six-bit values of up to three bytes. -/
def sextets : List UInt8 → List Nat
  | [a] => [a.toNat / 4, a.toNat % 4 * 16]
  | [a, b] => [a.toNat / 4, a.toNat % 4 * 16 + b.toNat / 16, b.toNat % 16 * 4]
  | [a, b, c] =>
      [a.toNat / 4, a.toNat % 4 * 16 + b.toNat / 16, b.toNat % 16 * 4 + c.toNat / 64,
        c.toNat % 64]
  | _ => []

/-- Bytes that one group of letters can hold. -/
inductive Grouped : List UInt8 → Prop where
  | one (a : UInt8) : Grouped [a]
  | two (a b : UInt8) : Grouped [a, b]
  | three (a b c : UInt8) : Grouped [a, b, c]

theorem Grouped.length_bounds {bytes : List UInt8} (grouped : Grouped bytes) :
    1 ≤ bytes.length ∧ bytes.length ≤ 3 := by
  cases grouped <;> simp

theorem sextets_lt {bytes : List UInt8} (grouped : Grouped bytes) :
    ∀ value ∈ sextets bytes, value < 64 := by
  intro value member
  cases grouped with
  | one a =>
      have := a.toNat_lt
      simp only [sextets, List.mem_cons, List.not_mem_nil, or_false] at member
      omega
  | two a b =>
      have := a.toNat_lt
      have := b.toNat_lt
      simp only [sextets, List.mem_cons, List.not_mem_nil, or_false] at member
      omega
  | three a b c =>
      have := a.toNat_lt
      have := b.toNat_lt
      have := c.toNat_lt
      simp only [sextets, List.mem_cons, List.not_mem_nil, or_false] at member
      omega

theorem length_sextets {bytes : List UInt8} (grouped : Grouped bytes) :
    (sextets bytes).length = bytes.length + 1 := by
  cases grouped <;> rfl

/-- The bits that are left over in the last value of a group are zero. -/
theorem spareBits_sextets {bytes : List UInt8} (grouped : Grouped bytes) :
    spareBits (sextets bytes) = 0 := by
  cases grouped with
  | one a => exact Nat.mul_mod_left _ 16
  | two a b => exact Nat.mul_mod_left _ 4
  | three a b c => rfl

/-- The values of a group give its bytes again. -/
theorem assemble_sextets {bytes : List UInt8} (grouped : Grouped bytes) :
    assemble (sextets bytes) = bytes := by
  have same {byte : UInt8} {number : Nat} (value : number = byte.toNat) :
      UInt8.ofNat number = byte := by
    rw [value, UInt8.ofNat_toNat]
  cases grouped with
  | one a =>
      have := a.toNat_lt
      simp only [sextets, assemble, List.cons.injEq, and_true]
      exact same (by omega)
  | two a b =>
      have := a.toNat_lt
      have := b.toNat_lt
      simp only [sextets, assemble, List.cons.injEq, and_true]
      exact ⟨same (by omega), same (by omega)⟩
  | three a b c =>
      have := a.toNat_lt
      have := b.toNat_lt
      have := c.toNat_lt
      simp only [sextets, assemble, List.cons.injEq, and_true]
      exact ⟨same (by omega), same (by omega), same (by omega)⟩

/-- Two to four values without spare bits are those of the bytes that they spell. -/
theorem sextets_assemble {known : List Nat} (small : ∀ value ∈ known, value < 64)
    (several : 2 ≤ known.length) (few : known.length ≤ 4) (spare : spareBits known = 0) :
    Grouped (assemble known) ∧ sextets (assemble known) = known := by
  match known with
  | [] | [_] => simp at several
  | [a, b] =>
      simp only [List.forall_mem_cons] at small
      simp only [spareBits] at spare
      refine ⟨.one _, ?_⟩
      simp only [assemble, sextets, UInt8.toNat_ofNat', List.cons.injEq, and_true]
      omega
  | [a, b, c] =>
      simp only [List.forall_mem_cons] at small
      simp only [spareBits] at spare
      refine ⟨.two _ _, ?_⟩
      simp only [assemble, sextets, UInt8.toNat_ofNat', List.cons.injEq, and_true]
      omega
  | [a, b, c, d] =>
      simp only [List.forall_mem_cons] at small
      refine ⟨.three _ _ _, ?_⟩
      simp only [assemble, sextets, UInt8.toNat_ofNat', List.cons.injEq, and_true]
      omega
  | _ :: _ :: _ :: _ :: _ :: _ =>
      simp only [List.length_cons] at few
      omega

/-- A group is written as the letters of its values and is filled up to four. -/
theorem encode_group {bytes : List UInt8} (grouped : Grouped bytes) :
    encode bytes = (sextets bytes).map letter ++ List.replicate (3 - bytes.length) '=' := by
  cases grouped <;> rfl

theorem encode_cons (a b c : UInt8) (rest : List UInt8) :
    encode (a :: b :: c :: rest) = (sextets [a, b, c]).map letter ++ encode rest :=
  rfl

/-- Written forms hold no blanks and no control characters. -/
theorem bounds_of_mem_encode {bytes : List UInt8} {c : Char} (member : c ∈ encode bytes) :
    '+'.toNat ≤ c.toNat ∧ c.toNat < 0x7F := by
  have lettered {group : List UInt8} (grouped : Grouped group)
      (inside : c ∈ (sextets group).map letter) : '+'.toNat ≤ c.toNat ∧ c.toNat < 0x7F := by
    obtain ⟨value, known, rfl⟩ := List.mem_map.mp inside
    exact letter_bounds value (sextets_lt grouped value known)
  have whole {group : List UInt8} (grouped : Grouped group) (inside : c ∈ encode group) :
      '+'.toNat ≤ c.toNat ∧ c.toNat < 0x7F := by
    rw [encode_group grouped] at inside
    rcases List.mem_append.mp inside with inside | inside
    · exact lettered grouped inside
    · rw [List.eq_of_mem_replicate inside]
      decide
  induction bytes using encode.induct with
  | case1 => cases member
  | case2 a => exact whole (.one a) member
  | case3 a b => exact whole (.two a b) member
  | case4 a b c rest later =>
      rw [encode_cons] at member
      rcases List.mem_append.mp member with inside | inside
      · exact lettered (.three a b c) inside
      · exact later inside

/-- The bytes of the written form of bytes. -/
def written (bytes : List UInt8) : List UInt8 :=
  Utf8.encode (encode bytes)

/-- The bytes of a written group are those of its values, filled up to four. -/
theorem written_group {bytes : List UInt8} (grouped : Grouped bytes) :
    written bytes = (sextets bytes).map code ++ List.replicate (3 - bytes.length) pad := by
  rw [written, encode_group grouped, encode_map_letter (sextets_lt grouped)]
  cases grouped <;> rfl

/-- The bytes of three bytes are written before those of the others. -/
theorem written_cons (a b c : UInt8) (rest : List UInt8) :
    written (a :: b :: c :: rest) = (sextets [a, b, c]).map code ++ written rest := by
  rw [written, encode_cons, encode_map_letter (sextets_lt (.three a b c))]
  rfl

theorem length_written_of_grouped {bytes : List UInt8} (grouped : Grouped bytes) :
    (written bytes).length = 4 := by
  obtain ⟨several, few⟩ := grouped.length_bounds
  rw [written_group grouped, List.length_append, List.length_map, length_sextets grouped,
    List.length_replicate]
  omega

/-- Written forms consist of whole groups of four letters. -/
theorem length_written (bytes : List UInt8) :
    (written bytes).length = 4 * ((bytes.length + 2) / 3) := by
  induction bytes using encode.induct with
  | case1 => rfl
  | case2 a => simp [length_written_of_grouped (.one a)]
  | case3 a b => simp [length_written_of_grouped (.two a b)]
  | case4 a b c rest later =>
      rw [written_cons, List.length_append, later, List.length_map, length_sextets (.three a b c)]
      simp only [List.length_cons, List.length_nil]
      omega

/-! ### Reading -/

/-- What the last group has to be: letters, padding that completes it, and no spare bits. -/
theorem lastGroup_eq_ok {position : Nat} {group bytes : List UInt8} :
    lastGroup position group = .ok bytes ↔
      ∃ known, values position (group.takeWhile (· != pad)) = .ok known ∧
        2 ≤ (group.takeWhile (· != pad)).length ∧
        (∀ byte ∈ group.dropWhile (· != pad), byte = pad) ∧ group.length % 4 = 0 ∧
        spareBits known = 0 ∧ assemble known = bytes := by
  rw [lastGroup, bind_eq_ok_iff]
  refine exists_congr fun known => and_congr_right fun _ => ?_
  dsimp only
  rw [throw_eq_ok_iff, throw_eq_ok_iff, throw_eq_ok_iff, throw_eq_ok_iff]
  simp only [ne_eq, Decidable.not_not, Nat.not_lt, not_and, not_or, Bool.not_eq_true,
    List.any_eq_false, bne_iff_ne, pure, Except.pure, Except.ok.injEq]
  refine ⟨fun ⟨allowed, several, rest⟩ => ⟨several, fun byte member => ?_, rest⟩,
    fun ⟨several, padded, rest⟩ => ⟨fun _ => ⟨several, padded⟩, several, rest⟩⟩
  exact (allowed (List.ne_nil_of_mem member)).2 byte member

/-- The last four bytes are read exactly as the group that is written in them. -/
theorem lastGroup_eq_ok_iff {position : Nat} {group bytes : List UInt8}
    (few : group.length ≤ 4) :
    lastGroup position group = .ok bytes ↔ Grouped bytes ∧ group = written bytes := by
  rw [lastGroup_eq_ok]
  refine ⟨fun ⟨known, read, several, padded, whole, spare, spelled⟩ => ?_,
    fun ⟨grouped, same⟩ => ?_⟩
  · obtain ⟨small, letters⟩ := values_eq_ok_iff.mp read
    have cut := List.takeWhile_append_dropWhile (p := (· != pad)) (l := group)
    have total := congrArg List.length cut
    rw [List.eq_replicate_of_mem padded] at cut
    rw [letters, List.length_map] at several
    rw [letters, List.length_append, List.length_map] at total
    obtain ⟨grouped, values⟩ := sextets_assemble small several (by omega) spare
    have count := length_sextets grouped
    rw [values] at count
    rw [spelled] at grouped values count
    have filler : (group.dropWhile (· != pad)).length = 3 - bytes.length := by omega
    rw [filler] at cut
    refine ⟨grouped, ?_⟩
    rw [written_group grouped, values, ← letters, cut]
  · have plain : ∀ byte ∈ (sextets bytes).map code, (byte != pad) = true := by
      intro byte member
      obtain ⟨value, inside, rfl⟩ := List.mem_map.mp member
      exact bne_iff_ne.mpr (code_ne_pad (sextets_lt grouped value inside))
    have count := length_sextets grouped
    obtain ⟨several, few⟩ := grouped.length_bounds
    rw [written_group grouped] at same
    have letters : group.takeWhile (· != pad) = (sextets bytes).map code := by
      rw [same, List.takeWhile_append_of_pos plain, List.takeWhile_replicate]
      exact List.append_nil _
    have padding : group.dropWhile (· != pad) = List.replicate (3 - bytes.length) pad := by
      rw [same, List.dropWhile_append_of_pos plain, List.dropWhile_replicate]
      rfl
    refine ⟨sextets bytes, ?_, ?_, ?_, ?_, spareBits_sextets grouped, assemble_sextets grouped⟩
    · exact values_eq_ok_iff.mpr ⟨sextets_lt grouped, letters⟩
    · rw [letters, List.length_map]
      omega
    · rw [padding]
      exact fun byte member => List.eq_of_mem_replicate member
    · rw [same, List.length_append, List.length_map, List.length_replicate]
      omega

/-- Bytes fill one group, or a group and more. -/
theorem grouped_or_more {bytes : List UInt8} (nonempty : bytes ≠ []) :
    Grouped bytes ∨
      ∃ a b c rest, bytes = a :: b :: c :: rest ∧ rest ≠ [] ∧ 4 < (written bytes).length := by
  match bytes with
  | [a] => exact .inl (.one a)
  | [a, b] => exact .inl (.two a b)
  | [a, b, c] => exact .inl (.three a b c)
  | a :: b :: c :: d :: rest =>
      refine .inr ⟨a, b, c, d :: rest, rfl, List.cons_ne_nil _ _, ?_⟩
      rw [length_written]
      simp only [List.length_cons]
      omega

/-- An input that is not empty is read exactly as the bytes that are written in it. -/
theorem groups_eq_ok_iff {position : Nat} {input bytes : List UInt8} (nonempty : input ≠ []) :
    groups position input = .ok bytes ↔ bytes ≠ [] ∧ input = written bytes := by
  induction position, input using groups.induct generalizing bytes with
  | case1 position a b c d e rest later =>
      rw [groups, bind_eq_ok_iff]
      refine ⟨fun ⟨known, read, found⟩ => ?_, fun ⟨occupied, same⟩ => ?_⟩
      · obtain ⟨others, following, spelled⟩ := bind_eq_ok_iff.mp found
        obtain ⟨small, letters⟩ := values_eq_ok_iff.mp read
        obtain ⟨-, tail⟩ := (later (List.cons_ne_nil _ _)).mp following
        cases spelled
        match known, letters with
        | [p, q, r, s], letters =>
            obtain ⟨-, values⟩ := sextets_assemble small (by simp) (by simp) rfl
            refine ⟨List.cons_ne_nil _ _, ?_⟩
            have whole := written_cons (UInt8.ofNat (p * 4 + q / 16))
              (UInt8.ofNat (q % 16 * 16 + r / 4)) (UInt8.ofNat (r % 4 * 64 + s)) others
            change sextets [_, _, _] = _ at values
            rw [values, ← letters, ← tail] at whole
            exact whole.symm
      · rcases grouped_or_more occupied with grouped | ⟨x, y, z, more, rfl, further, -⟩
        · have length := length_written_of_grouped grouped
          rw [← same] at length
          simp at length
        · rw [written_cons] at same
          change [a, b, c, d] ++ e :: rest = _ at same
          obtain ⟨letters, tail⟩ := List.append_inj same rfl
          refine ⟨sextets [x, y, z], ?_, ?_⟩
          · exact values_eq_ok_iff.mpr ⟨sextets_lt (.three x y z), letters⟩
          · rw [bind_eq_ok_iff]
            refine ⟨more, (later (List.cons_ne_nil _ _)).mpr ⟨further, tail⟩, ?_⟩
            rw [assemble_sextets (.three x y z)]
            rfl
  | case2 position group short =>
      have few : group.length ≤ 4 := by
        match group, short with
        | [], _ | [_], _ | [_, _], _ | [_, _, _], _ | [_, _, _, _], _ => simp
        | a :: b :: c :: d :: e :: rest, short => exact (short a b c d e rest rfl).elim
      rw [groups.eq_2 _ _ short, lastGroup_eq_ok_iff few]
      refine and_congr_left fun same => ⟨fun grouped none => ?_, fun occupied => ?_⟩
      · rw [none] at grouped
        cases grouped
      · rcases grouped_or_more occupied with grouped | ⟨_, _, _, _, -, -, more⟩
        · exact grouped
        · rw [← same] at more
          omega

/-- Only nothing is written as nothing. -/
theorem written_eq_nil_iff {bytes : List UInt8} : written bytes = [] ↔ bytes = [] := by
  rw [← List.length_eq_zero_iff, ← List.length_eq_zero_iff, length_written]
  omega

/-- **Reading base64.** Bytes are read from their written form and from nothing else. -/
theorem decode_eq_ok_iff {input bytes : List UInt8} :
    decode input = .ok bytes ↔ input = Utf8.encode (encode bytes) := by
  change _ ↔ input = written bytes
  unfold decode
  split
  · next none =>
      rw [List.getLast?_eq_none_iff.mp none, eq_comm (b := written bytes), written_eq_nil_iff,
        Except.ok.injEq, eq_comm]
  · next last found =>
      have nonempty : input ≠ [] := List.ne_nil_of_mem (List.mem_of_getLast? found)
      split
      · next stray =>
          refine ⟨fun refused => (by cases refused), fun same => ?_⟩
          have whole := congrArg List.length same
          rw [length_written] at whole
          omega
      · rw [groups_eq_ok_iff nonempty]
        refine and_iff_right_of_imp fun same none => nonempty ?_
        rw [same, none]
        rfl

end AnnexCatalog.Text.Base64
