import UnitCompiler.Json.Printer
import UnitCompiler.Json.Reader

/-! Strings read back as they were written. Every character is written as itself or as an escape; what
the reader makes of either are the bytes of the character, and so the string is spelled again. -/

namespace UnitCompiler.Json

@[simp] theorem utf8_nil : utf8 [] = [] := rfl

@[simp] theorem utf8_append (left right : List Char) : utf8 (left ++ right) = utf8 left ++ utf8 right :=
  List.flatMap_append

theorem utf8_cons (c : Char) (text : List Char) : utf8 (c :: text) = String.utf8EncodeChar c ++ utf8 text :=
  rfl

/-- A character of one byte is written as its code. -/
theorem utf8_cons_code {c : Char} (short : c.toNat < 128) (text : List Char) :
    utf8 (c :: text) = code c :: utf8 text := by
  have single : c.utf8Size = 1 := by
    rw [Char.utf8Size_eq_one_iff, UInt32.le_iff_toNat_le]
    exact Nat.le_of_lt_succ short
  rw [utf8_cons, String.utf8EncodeChar_eq_singleton single]
  rfl

theorem length_le_utf8 (text : List Char) : text.length ≤ (utf8 text).length := by
  induction text with
  | nil => simp
  | cons c rest ih =>
    have positive := c.utf8Size_pos
    rw [utf8_cons, List.length_append, String.length_utf8EncodeChar, List.length_cons]
    omega

theorem decodeUtf8_utf8 (text : List Char) : decodeUtf8 (utf8 text) = some (String.ofList text) := by
  have encoded : ByteArray.mk (utf8 text).toArray = text.utf8Encode := by
    rw [ByteArray.ext_iff, List.utf8Encode, List.data_toByteArray]
    rfl
  rw [decodeUtf8, encoded, List.utf8Decode?_utf8Encode]
  simp

/-! ## One character -/

def Bare (b : UInt8) : Prop := b ≠ code '\"' ∧ b ≠ code '\\' ∧ 0x20 ≤ b

theorem bare_iff (b : UInt8) : Bare b ↔ b.toNat ≠ 34 ∧ b.toNat ≠ 92 ∧ 32 ≤ b.toNat := by
  simp only [Bare, code, ne_eq, ← UInt8.toNat_inj, UInt8.le_iff_toNat_le]
  rfl

/-- A character that needs no escape has bytes that stand for themselves: its own code, or bytes out of
the range of single ones. -/
theorem utf8EncodeChar_bare {c : Char} (visible : 0x20 ≤ c.toNat) (quote : c ≠ '\"') (slash : c ≠ '\\') :
    ∀ b ∈ String.utf8EncodeChar c, Bare b := by
  have quote : c.toNat ≠ 34 := fun same => quote (Char.toNat_inj.mp same)
  have slash : c.toNat ≠ 92 := fun same => slash (Char.toNat_inj.mp same)
  intro b member
  rw [bare_iff]
  simp only [Char.toNat] at visible quote slash
  unfold String.utf8EncodeChar at member
  dsimp only at member
  split at member
  · obtain rfl := List.mem_singleton.mp member
    rw [UInt8.toNat_ofNat']
    omega
  split at member
  · simp only [List.mem_cons, List.not_mem_nil, or_false] at member
    rcases member with rfl | rfl <;> rw [UInt8.toNat_ofNat'] <;> omega
  split at member
  · simp only [List.mem_cons, List.not_mem_nil, or_false] at member
    rcases member with rfl | rfl | rfl <;> rw [UInt8.toNat_ofNat'] <;> omega
  · simp only [List.mem_cons, List.not_mem_nil, or_false] at member
    rcases member with rfl | rfl | rfl | rfl <;> rw [UInt8.toNat_ofNat'] <;> omega

def continued (pieces : List Piece) : List Piece × Bytes → List Piece × Bytes
  | (others, rest) => (pieces ++ others, rest)

theorem readPieces_bare (bytes : Bytes) (bare : ∀ b ∈ bytes, Bare b) (rest : Bytes) :
    readPieces (bytes ++ rest) = (readPieces rest).map (continued (bytes.map .byte)) := by
  induction bytes with
  | nil => exact Option.map_id'.symm
  | cons b bytes ih =>
    obtain ⟨quote, slash, visible⟩ := bare b List.mem_cons_self
    rw [List.cons_append, readPieces.eq_def]
    simp only [beq_iff_eq, quote, slash, UInt8.not_lt.mpr visible, if_false]
    rw [ih fun other member => bare other (List.mem_cons_of_mem b member)]
    cases readPieces rest <;> rfl

theorem pieceBytes_bare (bytes : Bytes) (others : List Piece) :
    pieceBytes (bytes.map .byte ++ others) = (pieceBytes others).map (bytes ++ ·) := by
  induction bytes with
  | nil => simp
  | cons b bytes ih =>
    simp only [List.map_cons, List.cons_append, pieceBytes, ih, Option.map_map]
    rfl

/-- A unit that is no surrogate gives the bytes of one character. -/
theorem pieceBytes_unit {c : Char} (short : c.toNat < 128) (others : List Piece) :
    pieceBytes (.unit c.toNat :: others) = (pieceBytes others).map (String.utf8EncodeChar c ++ ·) := by
  have leading : isLeading c.toNat = false := by
    simp [isLeading]
    omega
  have trailing : isTrailing c.toNat = false := by
    simp [isTrailing]
    omega
  rw [pieceBytes.eq_def]
  simp [leading, trailing]

/-- What is read of a written form are the bytes of a character. -/
def Spells (written : List Char) (c : Char) : Prop :=
  ∃ pieces, (∀ rest, readPieces (utf8 written ++ rest) = (readPieces rest).map (continued pieces)) ∧
    ∀ others, pieceBytes (pieces ++ others) = (pieceBytes others).map (String.utf8EncodeChar c ++ ·)

theorem escape_spells {e c : Char} (simple : simpleEscape (code e) = some c.toNat)
    (short : e.toNat < 128 ∧ c.toNat < 128) : Spells ['\\', e] c := by
  refine ⟨[.unit c.toNat], fun rest => ?_, pieceBytes_unit short.2⟩
  have start : (code '\\' == code '\"') = false := by decide
  have other : code e ≠ code 'u' := by
    intro same
    rw [same] at simple
    contradiction
  rw [utf8_cons_code (by decide), utf8_cons_code short.1, utf8_nil, List.cons_append, readPieces.eq_def]
  simp only [start, beq_self_eq_true, Bool.false_eq_true, if_false, if_true, List.cons_append,
    List.nil_append, beq_iff_eq, other, simple]
  cases readPieces rest <;> rfl

theorem hexValue_lowerHex : ∀ n < 16, hexValue (code (lowerHex n)) = some n := by
  decide

theorem lowerHex_short : ∀ n < 16, (lowerHex n).toNat < 128 := by
  decide

theorem control_spells {c : Char} (control : c.toNat < 0x20) :
    Spells ['\\', 'u', '0', '0', lowerHex (c.toNat / 16), lowerHex (c.toNat % 16)] c := by
  refine ⟨[.unit c.toNat], fun rest => ?_, pieceBytes_unit (by omega)⟩
  have high := hexValue_lowerHex (c.toNat / 16) (by omega)
  have low := hexValue_lowerHex (c.toNat % 16) (by omega)
  have zero : hexValue (code '0') = some 0 := by decide
  have start : (code '\\' == code '\"') = false := by decide
  have whole : c.toNat / 16 * 16 + c.toNat % 16 = c.toNat := by omega
  rw [utf8_cons_code (by decide), utf8_cons_code (by decide), utf8_cons_code (by decide),
    utf8_cons_code (by decide), utf8_cons_code (lowerHex_short _ (by omega)),
    utf8_cons_code (lowerHex_short _ (by omega)), utf8_nil]
  simp only [List.cons_append, List.nil_append]
  rw [readPieces.eq_def]
  simp [start, high, low, zero, whole]
  cases readPieces rest <;> rfl

theorem escaped_spells (c : Char) : Spells (escaped c) c := by
  unfold escaped
  iterate 7
    split
    · next same => exact escape_spells (by subst same; decide) (by subst same; decide)
  split
  · next control => exact control_spells control
  · next quote slash _ _ _ _ _ visible =>
    have bare := utf8EncodeChar_bare (Nat.le_of_not_lt visible) quote slash
    refine ⟨(String.utf8EncodeChar c).map .byte, fun rest => ?_, pieceBytes_bare _⟩
    rw [utf8_cons, utf8_nil, List.append_nil]
    exact readPieces_bare _ bare rest

/-! ## Whole strings -/

/-- A written text is read up to its closing quote. -/
theorem escapedText_read (text : List Char) (rest : Bytes) :
    ∃ pieces, readPieces (utf8 (text.flatMap escaped) ++ code '\"' :: rest) = some (pieces, rest) ∧
      pieceBytes pieces = some (utf8 text) := by
  induction text with
  | nil => exact ⟨[], by rw [List.flatMap_nil, utf8_nil, List.nil_append, readPieces.eq_def]; simp, rfl⟩
  | cons c text ih =>
    obtain ⟨others, read, spelled⟩ := ih
    obtain ⟨pieces, written, bytes⟩ := escaped_spells c
    refine ⟨pieces ++ others, ?_, ?_⟩
    · rw [List.flatMap_cons, utf8_append, List.append_assoc, written, read]
      rfl
    · rw [bytes, spelled]
      rfl

theorem readString_quoted (value : String) : ∃ inside, utf8 (Text.chars (some value)) = code '\"' :: inside ∧
    ∀ rest, readString (inside ++ rest) = some (some value, rest) := by
  refine ⟨utf8 (value.toList.flatMap escaped) ++ [code '\"'], ?_, fun rest => ?_⟩
  · rw [Text.chars, quoted, Option.getD_some, List.cons_append, utf8_cons_code (by decide), utf8_append,
      utf8_cons_code (by decide), utf8_nil]
  · obtain ⟨pieces, read, spelled⟩ := escapedText_read value.toList rest
    simp only [List.append_assoc, List.singleton_append, readString, read, Option.map_some, spelled,
      Option.bind_some, decodeUtf8_utf8, String.ofList_toList]

end UnitCompiler.Json
