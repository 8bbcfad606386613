import AnnexCatalog.Outcome
import AnnexCatalog.Text.Utf8
import Mathlib.Data.List.Basic

/-! # Reading what was written in UTF-8

A character is read from its own bytes and from no others (`step_eq_character_iff`), so bytes are
read as a text exactly if they are what is written for it (`decode_eq_ok_iff`). A lossy reading
gives a written text back and never takes a byte below 0x80 for a part of another character: such a
byte divides what is read before it from what is read after it (`lossy_append_cons`).
-/

namespace AnnexCatalog.Text.Utf8

/-! ### Lead bytes and the bytes after them -/

/-- What a lead byte tells: its bits of the code point, how many bytes follow, and the bounds on the
first of these. -/
structure Lead where
  bits : Nat
  count : Nat
  low : Nat := 0x80
  high : Nat := 0xBF

def Lead.of? (first : Nat) : Option Lead :=
  if first < 0x80 then some { bits := first, count := 0 }
  else if first < 0xC2 then none
  else if first < 0xE0 then some { bits := first - 0xC0, count := 1 }
  else if first < 0xF0 then
    some { bits := first - 0xE0, count := 2, low := if first = 0xE0 then 0xA0 else 0x80,
           high := if first = 0xED then 0x9F else 0xBF }
  else if first < 0xF5 then
    some { bits := first - 0xF0, count := 3, low := if first = 0xF0 then 0x90 else 0x80,
           high := if first = 0xF4 then 0x8F else 0xBF }
  else none

/-- The bits of a code point with the six bits of one more byte. Kept irreducible, so that code
points are compared by their equations and never by counting. -/
@[irreducible]
def extend (bits : Nat) (byte : UInt8) : Nat :=
  bits * 64 + (byte.toNat - 0x80)

/-- A byte that continues a character adds six bits. -/
theorem extend_eq (bits : Nat) (byte : UInt8) :
    extend bits byte = bits * 64 + (byte.toNat - 0x80) := by
  unfold extend
  rfl

/-- Read `count` more bytes of a character of which `width` bytes have been read. -/
def continueFrom (bits width low high : Nat) : (count : Nat) → List UInt8 → Step
  | 0, _ => .character (Char.ofNat bits) width
  | _ + 1, [] => .truncated
  | count + 1, byte :: rest =>
      if continues low high byte then
        continueFrom (extend bits byte) (width + 1) 0x80 0xBF count rest
      else .malformed width

/-- A character is read by its lead byte and then byte by byte. -/
theorem step_eq_continueFrom (lead : UInt8) (rest : List UInt8) :
    step lead rest =
      match Lead.of? lead.toNat with
      | some form => continueFrom form.bits 1 form.low form.high form.count rest
      | none => .malformed 1 := by
  have two (bits : Nat) (second : UInt8) : bits * 64 + (second.toNat - 0x80) =
      extend bits second := (extend_eq bits second).symm
  have three (bits : Nat) (second third : UInt8) :
      bits * 4096 + (second.toNat - 0x80) * 64 + (third.toNat - 0x80) =
        extend (extend bits second) third := by
    rw [extend_eq, extend_eq]
    omega
  have four (bits : Nat) (second third fourth : UInt8) :
      bits * 262144 + (second.toNat - 0x80) * 4096 + (third.toNat - 0x80) * 64 +
        (fourth.toNat - 0x80) = extend (extend (extend bits second) third) fourth := by
    rw [extend_eq, extend_eq, extend_eq]
    omega
  unfold step Lead.of?
  simp only [two, three, four]
  split
  · rfl
  · split
    · rfl
    · split
      · cases rest <;> rfl
      · split
        · generalize (if lead.toNat = 0xE0 then 0xA0 else 0x80) = low
          generalize (if lead.toNat = 0xED then 0x9F else 0xBF) = high
          rcases rest with _ | ⟨second, _ | ⟨third, following⟩⟩
          · rfl
          · simp only [continueFrom]
            cases continues low high second <;> rfl
          · simp only [continueFrom]
            cases continues low high second <;> rfl
        · split
          · generalize (if lead.toNat = 0xF0 then 0x90 else 0x80) = low
            generalize (if lead.toNat = 0xF4 then 0x8F else 0xBF) = high
            rcases rest with _ | ⟨second, _ | ⟨third, _ | ⟨fourth, following⟩⟩⟩
            · rfl
            · simp only [continueFrom]
              cases continues low high second <;> rfl
            · simp only [continueFrom]
              cases continues low high second <;> cases continues 0x80 0xBF third <;> rfl
            · simp only [continueFrom]
              cases continues low high second <;> cases continues 0x80 0xBF third <;> rfl
          · rfl

/-- The code point to which continuing bytes complete the bits of a lead byte. -/
def join (bits : Nat) : List UInt8 → Nat
  | [] => bits
  | byte :: rest => join (extend bits byte) rest

/-- Whether bytes continue a character, the first of them within bounds of its own. -/
def Continuing : (low high : Nat) → List UInt8 → Prop
  | _, _, [] => True
  | low, high, byte :: rest =>
      (low ≤ byte.toNat ∧ byte.toNat ≤ high) ∧ Continuing 0x80 0xBF rest

/-- A byte continues a character exactly if it is in the range. -/
theorem continues_iff {low high : Nat} {byte : UInt8} :
    continues low high byte = true ↔ low ≤ byte.toNat ∧ byte.toNat ≤ high := by
  rw [continues, Bool.and_eq_true, decide_eq_true_eq, decide_eq_true_eq]

/-- A character is read from as many continuing bytes as are asked for. -/
theorem continueFrom_eq_character_iff {bits width low high count : Nat} {rest : List UInt8}
    {c : Char} {total : Nat} :
    continueFrom bits width low high count rest = .character c total ↔
      ∃ tail following, rest = tail ++ following ∧ tail.length = count ∧ total = width + count ∧
        Continuing low high tail ∧ Char.ofNat (join bits tail) = c := by
  induction count generalizing bits width low high rest with
  | zero =>
      rw [continueFrom, Step.character.injEq]
      constructor
      · rintro ⟨same, rfl⟩
        exact ⟨[], rest, rfl, rfl, rfl, trivial, same⟩
      · rintro ⟨tail, following, -, none, rfl, -, same⟩
        rw [List.length_eq_zero_iff] at none
        subst none
        exact ⟨same, rfl⟩
  | succ count step =>
      cases rest with
      | nil =>
          refine ⟨nofun, ?_⟩
          rintro ⟨tail, following, split, some, -⟩
          rw [List.nil_eq, List.append_eq_nil_iff] at split
          rw [split.1] at some
          cases some
      | cons byte rest =>
          rw [continueFrom]
          constructor
          · intro read
            split at read
            · next inside =>
                obtain ⟨tail, following, rfl, length, rfl, continuing, same⟩ := step.mp read
                refine ⟨byte :: tail, following, rfl, congrArg (· + 1) length, by omega, ?_, ?_⟩
                · exact ⟨continues_iff.mp inside, continuing⟩
                · rw [join, same]
            · cases read
          · rintro ⟨tail, following, split, some, rfl, continuing, same⟩
            cases tail with
            | nil => cases some
            | cons first tail =>
                cases split
                rw [join] at same
                rw [if_pos (continues_iff.mpr continuing.1)]
                exact step.mpr
                  ⟨tail, following, rfl, Nat.succ.inj some, by omega, continuing.2, same⟩

/-! ### The bytes of a character -/

/-- A number below 256 is kept in a byte. -/
theorem toNat_ofNat {value : Nat} (small : value < 256) : (UInt8.ofNat value).toNat = value :=
  UInt8.toNat_ofNat_of_lt' small

/-- A byte is made from its number again. -/
theorem ofNat_eq_of_toNat (byte : UInt8) {value : Nat} (same : value = byte.toNat) :
    UInt8.ofNat value = byte := by
  rw [same, UInt8.ofNat_toNat]

/-- The bytes written for a character are a lead byte and the bytes that it asks for. -/
theorem exists_lead_of_encodeChar {c : Char} {lead : UInt8} {tail : List UInt8}
    (bytes : String.utf8EncodeChar c = lead :: tail) :
    ∃ form, Lead.of? lead.toNat = some form ∧ tail.length = form.count ∧
      Continuing form.low form.high tail ∧ Char.ofNat (join form.bits tail) = c := by
  have valid : c.toNat < 0xD800 ∨ 0xDFFF < c.toNat ∧ c.toNat < 0x110000 := c.valid
  have point : c.val.toNat = c.toNat := rfl
  have named {value : Nat} (same : value = c.toNat) : Char.ofNat value = c := by
    rw [same, Char.ofNat_toNat]
  unfold String.utf8EncodeChar at bytes
  simp only [point] at bytes
  split at bytes
  · cases bytes
    rw [toNat_ofNat (by omega), Lead.of?, if_pos (by omega)]
    exact ⟨_, rfl, rfl, trivial, named rfl⟩
  · split at bytes
    · cases bytes
      rw [toNat_ofNat (by omega), Lead.of?, if_neg (by omega), if_neg (by omega), if_pos (by omega)]
      refine ⟨_, rfl, rfl, ?_, named ?_⟩
      · simp only [Continuing, and_true]
        rw [toNat_ofNat (by omega)]
        omega
      · rw [join, join, extend_eq, toNat_ofNat (by omega)]
        dsimp only
        omega
    · split at bytes
      · cases bytes
        rw [toNat_ofNat (by omega), Lead.of?, if_neg (by omega), if_neg (by omega),
          if_neg (by omega), if_pos (by omega)]
        refine ⟨_, rfl, rfl, ?_, named ?_⟩
        · simp only [Continuing, and_true]
          rw [toNat_ofNat (by omega), toNat_ofNat (by omega)]
          split <;> split <;> omega
        · rw [join, join, join, extend_eq, extend_eq, toNat_ofNat (by omega),
            toNat_ofNat (by omega)]
          dsimp only
          omega
      · cases bytes
        rw [toNat_ofNat (by omega), Lead.of?, if_neg (by omega), if_neg (by omega),
          if_neg (by omega), if_neg (by omega), if_pos (by omega)]
        refine ⟨_, rfl, rfl, ?_, named ?_⟩
        · simp only [Continuing, and_true]
          rw [toNat_ofNat (by omega), toNat_ofNat (by omega), toNat_ofNat (by omega)]
          split <;> split <;> omega
        · rw [join, join, join, join, extend_eq, extend_eq, extend_eq, toNat_ofNat (by omega),
            toNat_ofNat (by omega), toNat_ofNat (by omega)]
          dsimp only
          omega

/-- A lead byte and the bytes that it asks for are what is written for the character they spell. -/
theorem encodeChar_of_lead {lead : UInt8} {tail : List UInt8} {form : Lead}
    (leads : Lead.of? lead.toNat = some form) (length : tail.length = form.count)
    (continuing : Continuing form.low form.high tail) :
    String.utf8EncodeChar (Char.ofNat (join form.bits tail)) = lead :: tail := by
  have byte := lead.toNat_lt
  have point {value : Nat} (valid : value.isValidChar) : (Char.ofNat value).val.toNat = value := by
    rw [Char.ofNat, dif_pos valid]
    rfl
  unfold Lead.of? at leads
  unfold String.utf8EncodeChar
  split at leads
  · obtain rfl := Option.some.inj leads
    obtain rfl := List.length_eq_zero_iff.mp length
    rw [join, point (.inl (by dsimp only; omega)), if_pos (by dsimp only; omega), UInt8.ofNat_toNat]
  · split at leads
    · cases leads
    · split at leads
      · obtain rfl := Option.some.inj leads
        obtain ⟨second, rfl⟩ := List.length_eq_one_iff.mp length
        simp only [Continuing, and_true, join, extend_eq] at continuing ⊢
        rw [point (.inl (by omega)), if_neg (by omega), if_pos (by omega),
          ofNat_eq_of_toNat lead (by omega),
          ofNat_eq_of_toNat second (by omega)]
      · split at leads
        · obtain rfl := Option.some.inj leads
          obtain ⟨second, third, rfl⟩ := List.length_eq_two.mp length
          simp only [Continuing, and_true, join, extend_eq] at continuing ⊢
          obtain ⟨inside, further⟩ := continuing
          have bounds : 0x80 ≤ second.toNat ∧ second.toNat ≤ 0xBF := by
            split at inside <;> split at inside <;> omega
          have large : 2047 < ((lead.toNat - 0xE0) * 64 + (second.toNat - 0x80)) * 64 +
              (third.toNat - 0x80) := by
            split at inside <;> split at inside <;> omega
          rw [point (by unfold Nat.isValidChar; split at inside <;> split at inside <;> omega),
            if_neg (by omega), if_neg (by omega), if_pos (by omega),
            ofNat_eq_of_toNat lead (by omega),
            ofNat_eq_of_toNat second (by omega),
            ofNat_eq_of_toNat third (by omega)]
        · split at leads
          · obtain rfl := Option.some.inj leads
            obtain ⟨second, third, fourth, rfl⟩ := List.length_eq_three.mp length
            simp only [Continuing, and_true, join, extend_eq] at continuing ⊢
            obtain ⟨inside, further, last⟩ := continuing
            have bounds : 0x80 ≤ second.toNat ∧ second.toNat ≤ 0xBF := by
              split at inside <;> split at inside <;> omega
            have large : 65535 < (((lead.toNat - 0xF0) * 64 + (second.toNat - 0x80)) * 64 +
                (third.toNat - 0x80)) * 64 + (fourth.toNat - 0x80) := by
              split at inside <;> split at inside <;> omega
            rw [point (by unfold Nat.isValidChar; split at inside <;> split at inside <;> omega),
              if_neg (by omega), if_neg (by omega), if_neg (by omega),
              ofNat_eq_of_toNat lead (by omega),
              ofNat_eq_of_toNat second (by omega),
              ofNat_eq_of_toNat third (by omega),
              ofNat_eq_of_toNat fourth (by omega)]
          · cases leads

/-- Every character is written in one byte or more. -/
theorem exists_encodeChar (c : Char) : ∃ lead tail, String.utf8EncodeChar c = lead :: tail := by
  refine List.exists_cons_of_ne_nil fun none => ?_
  have size := String.length_utf8EncodeChar c
  rw [none] at size
  exact absurd size (Nat.ne_of_lt c.utf8Size_pos)

/-- A character is read from the bytes that are written for it, whatever follows them. -/
theorem step_eq_character_iff {lead : UInt8} {rest : List UInt8} {c : Char} {width : Nat} :
    step lead rest = .character c width ↔
      ∃ tail following, rest = tail ++ following ∧ width = tail.length + 1 ∧
        String.utf8EncodeChar c = lead :: tail := by
  rw [step_eq_continueFrom]
  constructor
  · intro read
    split at read
    · next form leads =>
        obtain ⟨tail, following, rfl, length, rfl, continuing, rfl⟩ :=
          continueFrom_eq_character_iff.mp read
        exact ⟨tail, following, rfl, by omega, encodeChar_of_lead leads length continuing⟩
    · cases read
  · rintro ⟨tail, following, rfl, rfl, bytes⟩
    obtain ⟨form, leads, length, continuing, same⟩ := exists_lead_of_encodeChar bytes
    rw [leads]
    exact continueFrom_eq_character_iff.mpr
      ⟨tail, following, rfl, length, by omega, continuing, same⟩

/-! ### Texts -/

theorem decodeFrom_append (index : Nat) (passed rest : List UInt8) :
    decodeFrom index passed.length (passed ++ rest) =
      decodeFrom (index + passed.length) 0 rest := by
  induction passed generalizing index with
  | nil => rfl
  | cons byte others step =>
      rw [List.cons_append, List.length_cons, decodeFrom.eq_def]
      dsimp only
      rw [step]
      congr 1
      omega

/-- Bytes are read exactly as the text that is written in them. -/
theorem decodeFrom_eq_ok_iff {index : Nat} {bytes : List UInt8} {text : List Char} :
    decodeFrom index 0 bytes = .ok text ↔ bytes = encode text := by
  induction text generalizing index bytes with
  | nil =>
      cases bytes with
      | nil => exact ⟨fun _ => rfl, fun _ => rfl⟩
      | cons lead rest =>
          refine ⟨fun read => ?_, nofun⟩
          rw [decodeFrom] at read
          split at read
          · obtain ⟨later, -, same⟩ := map_eq_ok_iff.mp read
            cases same
          · cases read
          · cases read
  | cons c text later =>
      obtain ⟨lead, tail, written⟩ := exists_encodeChar c
      have whole : encode (c :: text) = lead :: (tail ++ encode text) := by
        rw [encode, List.flatMap_cons, written]
        rfl
      constructor
      · intro read
        cases bytes with
        | nil => cases read
        | cons first rest =>
            rw [decodeFrom] at read
            split at read
            · next width found =>
                obtain ⟨others, read, same⟩ := map_eq_ok_iff.mp read
                cases same
                obtain ⟨tail, following, rfl, rfl, bytes⟩ := step_eq_character_iff.mp found
                rw [Nat.add_sub_cancel, decodeFrom_append] at read
                cases written.symm.trans bytes
                rw [whole, later.mp read]
            · cases read
            · cases read
      · rintro rfl
        have found : step lead (tail ++ encode text) = .character c (tail.length + 1) :=
          step_eq_character_iff.mpr ⟨tail, _, rfl, rfl, written⟩
        rw [whole, decodeFrom, found]
        dsimp only
        rw [Nat.add_sub_cancel, decodeFrom_append]
        exact map_eq_ok_iff.mpr ⟨text, later.mpr rfl, rfl⟩

/-- **Reading UTF-8.** Bytes are read as a text exactly if they are what is written for it. -/
theorem decode_eq_ok_iff {bytes : List UInt8} {text : List Char} :
    decode bytes = .ok text ↔ bytes = encode text :=
  decodeFrom_eq_ok_iff

theorem encode_injective : Function.Injective encode := by
  intro first second same
  have read := decode_eq_ok_iff.mpr (rfl : encode first = encode first)
  rw [same, decode_eq_ok_iff.mpr rfl] at read
  exact (Except.ok.inj read).symm

theorem encode_cons (c : Char) (text : List Char) :
    encode (c :: text) = String.utf8EncodeChar c ++ encode text :=
  List.flatMap_cons

theorem encode_append (first second : List Char) :
    encode (first ++ second) = encode first ++ encode second :=
  List.flatMap_append

/-! ### Bytes below 0x80 -/

/-- An ASCII character is written in one byte. -/
theorem encodeChar_of_ascii {c : Char} (ascii : c.toNat < 0x80) :
    String.utf8EncodeChar c = [UInt8.ofNat c.toNat] :=
  if_pos (Nat.le_of_lt_succ ascii)

/-- A text of bytes below 0x80 is written in as many bytes, so each part of them is the writing of a
part of the text. -/
theorem encode_eq_append_of_ascii {text : List Char} (ascii : ∀ c ∈ text, c.toNat < 0x80)
    {front back : List UInt8} (written : encode text = front ++ back) :
    ∃ before after, text = before ++ after ∧ front = encode before ∧ back = encode after := by
  induction text generalizing front with
  | nil =>
      obtain ⟨rfl, rfl⟩ := List.append_eq_nil_iff.mp written.symm
      exact ⟨[], [], rfl, rfl, rfl⟩
  | cons c rest step =>
      cases front with
      | nil => exact ⟨[], c :: rest, rfl, rfl, written.symm⟩
      | cons byte others =>
          obtain ⟨first, later⟩ := List.forall_mem_cons.mp ascii
          rw [encode_cons, encodeChar_of_ascii first] at written
          obtain ⟨rfl, tail⟩ := List.cons.inj written
          obtain ⟨before, after, rfl, rfl, rfl⟩ := step later tail
          refine ⟨c :: before, after, rfl, ?_, rfl⟩
          rw [encode_cons, encodeChar_of_ascii first]
          rfl

/-- An ASCII byte is read as its character. -/
theorem step_of_ascii {byte : UInt8} (ascii : byte.toNat < 0x80) (rest : List UInt8) :
    step byte rest = .character (Char.ofNat byte.toNat) 1 :=
  if_pos ascii

theorem Continuing.le_of_mem {low high : Nat} {tail : List UInt8}
    (continuing : Continuing low high tail) (above : 0x80 ≤ low) :
    ∀ byte ∈ tail, 0x80 ≤ byte.toNat := by
  induction tail generalizing low high with
  | nil => exact fun _ member => absurd member List.not_mem_nil
  | cons first rest step =>
      intro byte member
      rcases List.mem_cons.mp member with rfl | later
      · exact Nat.le_trans above continuing.1.1
      · exact step continuing.2 (Nat.le_refl _) byte later

/-- What a lead byte asks for begins above the bytes of other characters. -/
theorem Lead.le_low {first : Nat} {form : Lead} (leads : Lead.of? first = some form) :
    0x80 ≤ form.low := by
  unfold Lead.of? at leads
  split at leads
  · obtain rfl := Option.some.inj leads
    exact Nat.le_refl _
  · split at leads
    · cases leads
    · split at leads
      · obtain rfl := Option.some.inj leads
        exact Nat.le_refl _
      · split at leads
        · obtain rfl := Option.some.inj leads
          dsimp only
          split <;> decide
        · split at leads
          · obtain rfl := Option.some.inj leads
            dsimp only
            split <;> decide
          · cases leads

/-- A byte below 0x80 is written only for the character of its own code point. -/
theorem eq_of_mem_encodeChar {c : Char} {byte : UInt8} (member : byte ∈ String.utf8EncodeChar c)
    (ascii : byte.toNat < 0x80) : c = Char.ofNat byte.toNat := by
  obtain ⟨lead, tail, written⟩ := exists_encodeChar c
  obtain ⟨form, leads, length, continuing, same⟩ := exists_lead_of_encodeChar written
  rw [written] at member
  rcases List.mem_cons.mp member with rfl | later
  · rw [Lead.of?, if_pos ascii] at leads
    obtain rfl := Option.some.inj leads
    obtain rfl := List.length_eq_zero_iff.mp length
    exact same.symm
  · exact absurd (continuing.le_of_mem (Lead.le_low leads) byte later) (Nat.not_le.mpr ascii)

theorem mem_of_mem_encode {text : List Char} {byte : UInt8} (member : byte ∈ encode text)
    (ascii : byte.toNat < 0x80) : Char.ofNat byte.toNat ∈ text := by
  obtain ⟨c, inside, written⟩ := List.mem_flatMap.mp member
  rwa [← eq_of_mem_encodeChar written ascii]

/-! ### Lossy readings -/

theorem lossyFrom_append (passed rest : List UInt8) :
    lossyFrom passed.length (passed ++ rest) = lossyFrom 0 rest := by
  induction passed with
  | nil => rfl
  | cons byte others step => exact step

/-- A written text is read as itself before anything else. -/
theorem lossy_encode_append (text : List Char) (rest : List UInt8) :
    lossy (encode text ++ rest) = text ++ lossy rest := by
  induction text with
  | nil => rfl
  | cons c text later =>
      obtain ⟨lead, tail, written⟩ := exists_encodeChar c
      have found : step lead (tail ++ (encode text ++ rest)) = .character c (tail.length + 1) :=
        step_eq_character_iff.mpr ⟨tail, _, rfl, rfl, written⟩
      rw [encode_cons, written, List.cons_append, List.cons_append, List.append_assoc, lossy,
        lossyFrom, found]
      dsimp only
      rw [Nat.add_sub_cancel, lossyFrom_append, ← lossy, later, List.cons_append]

/-- A byte below 0x80 continues no character: one that is unfinished there is malformed. -/
theorem continueFrom_append_cons {bits width low high count : Nat} {byte : UInt8}
    (ascii : byte.toNat < 0x80) (above : 0x80 ≤ low) (rest after : List UInt8) :
    continueFrom bits width low high count (rest ++ byte :: after) =
      match continueFrom bits width low high count rest with
      | .truncated => .malformed (width + rest.length)
      | read => read := by
  induction count generalizing bits width low high rest with
  | zero => rfl
  | succ count step =>
      cases rest with
      | nil =>
          have outside : continues low high byte = false := by
            rw [← Bool.not_eq_true, continues_iff]
            omega
          change (if continues low high byte then _ else Step.malformed width) = _
          rw [outside]
          rfl
      | cons first rest =>
          rw [List.cons_append, continueFrom, continueFrom]
          split
          · rw [step (Nat.le_refl _), List.length_cons, Nat.add_right_comm, Nat.add_assoc]
          · rfl

/-- What begins at a place takes no more bytes than there are. -/
theorem le_of_continueFrom_eq_malformed {bits width low high count total : Nat}
    {rest : List UInt8} (read : continueFrom bits width low high count rest = .malformed total) :
    total ≤ width + rest.length := by
  induction count generalizing bits width low high rest with
  | zero => cases read
  | succ count step =>
      cases rest with
      | nil => cases read
      | cons byte rest =>
          rw [continueFrom] at read
          split at read
          · have bound := step read
            rw [List.length_cons]
            omega
          · cases read
            omega

/-- Where an ASCII character follows, a character that is not complete is malformed. -/
theorem step_append_cons {lead byte : UInt8} (ascii : byte.toNat < 0x80)
    (rest after : List UInt8) :
    step lead (rest ++ byte :: after) =
      match step lead rest with
      | .truncated => .malformed (rest.length + 1)
      | read => read := by
  rw [step_eq_continueFrom, step_eq_continueFrom]
  cases leads : Lead.of? lead.toNat with
  | none => rfl
  | some form =>
      dsimp only
      rw [continueFrom_append_cons ascii (Lead.le_low leads), Nat.add_comm]

theorem le_of_step_eq_malformed {lead : UInt8} {rest : List UInt8} {width : Nat}
    (read : step lead rest = .malformed width) : width ≤ rest.length + 1 := by
  rw [step_eq_continueFrom] at read
  split at read
  · have bound := le_of_continueFrom_eq_malformed read
    omega
  · cases read
    omega

/-- What is read before a byte below 0x80 does not depend on the bytes from there on. -/
theorem lossyFrom_append_cons {byte : UInt8} (ascii : byte.toNat < 0x80)
    {skip : Nat} {before : List UInt8} (within : skip ≤ before.length) (after : List UInt8) :
    lossyFrom skip (before ++ byte :: after) =
      lossyFrom skip before ++ Char.ofNat byte.toNat :: lossy after := by
  induction before generalizing skip with
  | nil =>
      obtain rfl := Nat.le_zero.mp within
      change lossyFrom 0 (byte :: after) = Char.ofNat byte.toNat :: lossy after
      rw [lossyFrom, step_of_ascii ascii]
      rfl
  | cons lead rest later =>
      cases skip with
      | succ skip => exact later (Nat.le_of_succ_le_succ within)
      | zero =>
          rw [List.cons_append, lossyFrom, lossyFrom, step_append_cons ascii]
          cases found : step lead rest with
          | character c width =>
              obtain ⟨tail, following, rfl, rfl, -⟩ := step_eq_character_iff.mp found
              dsimp only
              rw [later (by rw [List.length_append]; omega), List.cons_append]
          | malformed width =>
              have bound := le_of_step_eq_malformed found
              dsimp only
              rw [later (by omega), List.cons_append]
          | truncated =>
              dsimp only
              rw [Nat.add_sub_cancel, lossyFrom_append, lossyFrom, step_of_ascii ascii]
              rfl

/-- **A byte below 0x80 divides a lossy reading.** What is read before it and after it is what is
read there alone. -/
theorem lossy_append_cons {byte : UInt8} (ascii : byte.toNat < 0x80)
    (before after : List UInt8) :
    lossy (before ++ byte :: after) = lossy before ++ Char.ofNat byte.toNat :: lossy after :=
  lossyFrom_append_cons ascii (Nat.zero_le _) after

/-- A character below U+0080 is read only from the byte of its code point. -/
theorem mem_of_mem_lossyFrom {c : Char} (ascii : c.toNat < 0x80) {skip : Nat}
    {bytes : List UInt8} (member : c ∈ lossyFrom skip bytes) : UInt8.ofNat c.toNat ∈ bytes := by
  have other : c ≠ replacement := by
    rintro rfl
    exact absurd ascii (by decide)
  induction bytes generalizing skip with
  | nil => cases member
  | cons lead rest later =>
      cases skip with
      | succ skip => exact List.mem_cons_of_mem _ (later member)
      | zero =>
          rw [lossyFrom] at member
          split at member
          · next width found =>
              rcases List.mem_cons.mp member with rfl | inside
              · obtain ⟨tail, following, -, -, written⟩ := step_eq_character_iff.mp found
                rw [encodeChar_of_ascii ascii] at written
                rw [(List.cons.inj written).1]
                exact List.mem_cons_self
              · exact List.mem_cons_of_mem _ (later inside)
          · exact List.mem_cons_of_mem _ (later ((List.mem_cons.mp member).resolve_left other))
          · exact absurd (List.mem_singleton.mp member) other

end AnnexCatalog.Text.Utf8
