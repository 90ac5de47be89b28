import UnitCompiler.Proofs.Identifier
import UnitCompiler.Proofs.Numerals

/-! What is read as a token. Words and numbers reach as far as they can, so it matters what comes behind
them; every other token has an end of its own. -/

namespace UnitCompiler.Token

open Text

/-! ## Classes of characters -/

/-- No blank is part of a word. -/
theorem isWordPart_of_isBlank {c : Char} (blank : isBlank c = true) : isWordPart c = false := by
  have each : ∀ range ∈ blankRanges, ∀ code ∈ List.range' range.1 (range.2 + 1 - range.1),
      isWordPart (Char.ofNat code) = false := by decide +kernel
  obtain ⟨range, member, within⟩ := List.any_eq_true.mp blank
  simp only [Bool.and_eq_true, decide_eq_true_eq] at within
  have found := each range member c.toNat (List.mem_range'_1.mpr (by omega))
  rwa [Char.ofNat_toNat] at found

theorem isDigit_iff (c : Char) : isDigit c = true ↔ 48 ≤ c.toNat ∧ c.toNat ≤ 57 := by
  simp only [isDigit, Bool.and_eq_true, decide_eq_true_eq]
  rfl

theorem isWordPart_of_isDigitOrGap {c : Char} (part : isDigitOrGap c = true) : isWordPart c = true := by
  simp only [isDigitOrGap, Bool.or_eq_true] at part
  simp only [isWordPart, Bool.or_eq_true]
  rcases part with digit | underscore
  · have bounds := (isDigit_iff c).mp digit
    have short : c.toNat < 0x80 := by omega
    exact .inl (.inr (by rw [isNumeric, if_pos short, digit]))
  · exact .inr underscore

theorem isBlank_of_isWordPart {c : Char} (part : isWordPart c = true) : isBlank c = false := by
  by_contra blank
  rw [isWordPart_of_isBlank (by simpa using blank)] at part
  contradiction

/-- A word does not start with a digit. -/
theorem isDigit_of_isWordStart {c : Char} (start : isWordStart c = true) : isDigit c = false := by
  have each : ∀ code ∈ List.range' 48 10, isWordStart (Char.ofNat code) = false := by decide
  by_contra digit
  have bounds := (isDigit_iff c).mp (by simpa using digit)
  have found := each c.toNat (List.mem_range'_1.mpr (by omega))
  rw [Char.ofNat_toNat, start] at found
  contradiction

/-- A mark is neither blank nor part of a word. -/
theorem Kind.ofMark_apart {c : Char} {kind : Kind} (mark : Kind.ofMark c = some kind) :
    isBlank c = false ∧ isWordPart c = false ∧ c ≠ '/' := by
  unfold Kind.ofMark at mark
  split at mark
  all_goals first | decide | contradiction

theorem Kind.ofMark_of_isWordPart {c : Char} (part : isWordPart c = true) : Kind.ofMark c = none := by
  cases mark : Kind.ofMark c with
  | none => rfl
  | some kind =>
    rw [(ofMark_apart mark).2.1] at part
    contradiction

theorem ne_of_isWordPart {c other : Char} (part : isWordPart c = true)
    (apart : isWordPart other = false) : c ≠ other := by
  rintro rfl
  rw [part] at apart
  contradiction

theorem readLexeme_of_isWordPart {c : Char} (part : isWordPart c = true) (rest : List Char) :
    readLexeme c rest =
      if isDigit c then readNumber (c :: rest)
      else if isWordStart c then .ok (readWord c rest)
      else .error (.unexpectedCharacter c) := by
  have other {mark : Char} (apart : isWordPart mark = false) : c ≠ mark := ne_of_isWordPart part apart
  rw [readLexeme, Kind.ofMark_of_isWordPart part]
  dsimp only
  rw [if_neg (other (by decide)), if_neg (other (by decide)), if_neg (other (by decide))]

/-- A text that does not begin with a character of a class. -/
def Shuns (p : Char → Bool) (text : List Char) : Prop := ∀ c ∈ text.head?, p c = false

theorem shuns_cons {p : Char → Bool} {c : Char} (apart : p c = false) {rest : List Char} :
    Shuns p (c :: rest) := by
  rintro _ ⟨⟩
  exact apart

theorem shuns_nil (p : Char → Bool) : Shuns p [] := nofun

theorem Shuns.append {p : Char → Bool} {piece rest : List Char} (own : Shuns p piece)
    (behind : Shuns p rest) : Shuns p (piece ++ rest) := by
  cases piece with
  | nil => exact behind
  | cons first others => exact own

theorem Shuns.mono {p q : Char → Bool} {text : List Char} (shuns : Shuns p text)
    (fewer : ∀ c, q c = true → p c = true) : Shuns q text := by
  intro c first
  by_contra member
  have member := fewer c (by simpa using member)
  rw [shuns c first] at member
  contradiction

/-- Characters of a class are taken up to the first one of another. -/
theorem Shuns.takeWhile {p : Char → Bool} {text : List Char} (shuns : Shuns p text) {own : List Char}
    (each : ∀ c ∈ own, p c = true) :
    (own ++ text).takeWhile p = own ∧ (own ++ text).dropWhile p = text := by
  rw [List.takeWhile_append_of_pos each, List.dropWhile_append_of_pos each]
  cases text with
  | nil => simp
  | cons c text =>
    have other := shuns c rfl
    simp [other]

/-- Neither a word nor a number goes on with a text. A point behind an integer may make it a decimal. -/
def Severed (text : List Char) : Prop := Shuns (fun c => isWordPart c || c == '.') text

theorem Severed.word {text : List Char} (severed : Severed text) : Shuns isWordPart text := by
  apply severed.mono
  intro c part
  rw [part, Bool.true_or]

theorem Severed.point {text : List Char} (severed : Severed text) : text.head? ≠ some '.' := by
  intro point
  have apart := severed '.' point
  contradiction

def isWord : List Char → Bool
  | [] => false
  | first :: rest => isWordStart first && rest.all isWordPart

/-! ## Escapes -/

/-- A character between quotes: the quote, a backslash and a line end are escaped. -/
def escape (quote c : Char) : List Char :=
  if c = quote ∨ c = '\\' then ['\\', c]
  else if c = '\n' then ['\\', 'n']
  else [c]

def escapes : List (Char × Char) :=
  [('n', '\n'), ('t', '\t'), ('r', '\r'), ('0', Char.ofNat 0), ('\\', '\\'), ('\"', '\"'), ('\'', '\'')]

theorem unescape_of_mem {e c : Char} (escape : (e, c) ∈ escapes) : unescape e = some c := by
  have each : ∀ pair ∈ escapes, unescape pair.1 = some pair.2 := by decide
  exact each _ escape

/-- What stands between quotes for some characters: each character itself, or an escape. -/
inductive Quoted (quote : Char) : List Char → List Char → Prop where
  | nil : Quoted quote [] []
  | plain {c : Char} {values inside : List Char} (shown : c ≠ quote ∧ c ≠ '\\' ∧ c ≠ '\n')
      (others : Quoted quote values inside) : Quoted quote (c :: values) (c :: inside)
  | escaped {e c : Char} {values inside : List Char} (escape : (e, c) ∈ escapes)
      (others : Quoted quote values inside) : Quoted quote (c :: values) ('\\' :: e :: inside)

theorem quoted_escape {quote : Char} (escapable : (quote, quote) ∈ escapes) (values : List Char) :
    Quoted quote values (values.flatMap (escape quote)) := by
  induction values with
  | nil => exact .nil
  | cons c values ih =>
    rw [List.flatMap_cons, escape]
    split
    · next same =>
      refine .escaped ?_ ih
      rcases same with rfl | rfl
      · exact escapable
      · decide
    · next other =>
      rw [not_or] at other
      split
      · next line => exact .escaped (line ▸ by decide) ih
      · next line => exact .plain ⟨other.1, other.2, line⟩ ih

theorem readString_quoted {values inside : List Char} (quoted : Quoted '\"' values inside)
    (rest : List Char) : readString (inside ++ '\"' :: rest) = .ok (values, inside.length + 1, rest) := by
  induction quoted with
  | nil => rw [List.nil_append, readString.eq_def]; rfl
  | plain shown _ ih =>
    rw [List.cons_append, readString.eq_def]
    simp [shown, ih]
  | escaped escape _ ih => simp [readString, unescape_of_mem escape, ih]

theorem readQuotedCharacter_quoted {value : Char} {inside : List Char} (quoted : Quoted '\'' [value] inside)
    (rest : List Char) : readQuotedCharacter (inside ++ rest) = .ok (value, inside.length, rest) := by
  cases quoted with
  | plain shown none =>
    cases none
    simp [readQuotedCharacter, shown]
  | escaped escape none =>
    cases none
    simp [readQuotedCharacter, unescape_of_mem escape]

theorem readQuotedType_enclosed {name : List Char} (enclosed : ∀ c ∈ name, c ≠ backtick ∧ c ≠ '\n')
    (rest : List Char) :
    readQuotedType (name ++ backtick :: rest) = .ok (name, name.length + 1, rest) := by
  induction name with
  | nil => simp [readQuotedType]
  | cons c name ih =>
    obtain ⟨⟨quote, line⟩, others⟩ := List.forall_mem_cons.mp enclosed
    simp [readQuotedType, quote, line, ih others]

/-! ## Numbers -/

theorem isDigit_of_mem_toDigits {n : Nat} {c : Char} (member : c ∈ Nat.toDigits 10 n) :
    isDigit c = true := by
  have digit := Nat.isDigit_of_mem_toDigits (by decide) (by decide) member
  rw [Char.isDigit_iff_toNat] at digit
  exact (isDigit_iff c).mpr digit

def Pointless (text : List Char) : Prop := ∀ d more, text = '.' :: d :: more → isDigit d = false

theorem readNumber_integer {run text : List Char} (each : ∀ c ∈ run, isDigitOrGap c = true)
    (shuns : Shuns isDigitOrGap text) (pointless : Pointless text) :
    readNumber (run ++ text) = readNumber.integer run text := by
  obtain ⟨own, behind⟩ := shuns.takeWhile each
  unfold readNumber
  rw [own, behind]
  dsimp only
  split
  · next d more =>
    rw [pointless d more rfl]
    rfl
  · rfl

theorem Severed.number {text : List Char} (severed : Severed text) :
    Shuns isDigitOrGap text ∧ Pointless text := by
  refine ⟨severed.word.mono fun _ => isWordPart_of_isDigitOrGap, ?_⟩
  rintro d more rfl
  exact absurd rfl severed.point

/-! ## Texts and their tokens -/

/-- Only the last token is the end of input. -/
theorem readLexeme_proper {c : Char} {rest : List Char} {lexeme : Lexeme}
    (read : readLexeme c rest = .ok lexeme) : lexeme.kind ≠ .endOfInput := by
  cases readLexeme_lexes read with
  | mark kind mark =>
    rintro rfl
    unfold Kind.ofMark at mark
    split at mark <;> contradiction
  | string | character | quotedType | integer | decimal => simp
  | word start =>
    simp only [readWord, Kind.ofWord]
    split_ifs <;> simp

/-- Where a token begins, no blank and no comment does. -/
theorem readLexeme_solid {c : Char} {rest : List Char} {lexeme : Lexeme}
    (read : readLexeme c rest = .ok lexeme) : isBlank c = false ∧ c ≠ '/' := by
  have word (part : isWordPart c = true) : isBlank c = false ∧ c ≠ '/' :=
    ⟨isBlank_of_isWordPart part, ne_of_isWordPart part (by decide)⟩
  cases readLexeme_lexes read with
  | mark kind mark =>
    obtain ⟨solid, -, slash⟩ := Kind.ofMark_apart mark
    exact ⟨solid, slash⟩
  | string value width behind quote | character value width behind quote
  | quotedType name width behind quote =>
    subst quote
    decide
  | integer whole digit | decimal whole fraction d more digit =>
    exact word (isWordPart_of_isDigitOrGap (by rw [isDigitOrGap, digit, Bool.true_or]))
  | word start => exact word (isWordPart_of_isWordStart start)

/-- Characters that are read as one token in front of a text. -/
def Forms (own : List Char) (kind : Kind) (rest : List Char) : Prop :=
  ∃ c more, own = c :: more ∧ readLexeme c (more ++ rest) = .ok ⟨kind, own.length, rest⟩

namespace Forms

theorem proper {own : List Char} {kind : Kind} {rest : List Char} (forms : Forms own kind rest) :
    kind ≠ .endOfInput := by
  obtain ⟨c, more, -, read⟩ := forms
  exact readLexeme_proper read

variable {rest : List Char}

theorem mark {c : Char} {kind : Kind} (mark : Kind.ofMark c = some kind) : Forms [c] kind rest := by
  refine ⟨c, [], rfl, ?_⟩
  simp [readLexeme, mark]

theorem word {word : List Char} (valid : isWord word = true) (shuns : Shuns isWordPart rest) :
    Forms word (.ofWord (String.ofList word)) rest := by
  cases word with
  | nil => contradiction
  | cons first more =>
    simp only [isWord, Bool.and_eq_true, List.all_eq_true] at valid
    obtain ⟨start, parts⟩ := valid
    obtain ⟨own, behind⟩ := shuns.takeWhile parts
    refine ⟨first, more, rfl, ?_⟩
    rw [readLexeme_of_isWordPart (isWordPart_of_isWordStart start), isDigit_of_isWordStart start]
    simp [start, readWord, own, behind]

/-- Digits are read up to the first character that cannot belong to a number. -/
theorem integer {first : Char} {run : List Char} (digit : isDigit first = true)
    (each : ∀ c ∈ run, isDigitOrGap c = true)
    (small : Binary64.digitsValue (digitValues (first :: run)) < 0x8000000000000000)
    (number : Shuns isDigitOrGap rest ∧ Pointless rest) :
    Forms (first :: run) (.integer (Int64.ofNat (Binary64.digitsValue (digitValues (first :: run)))))
      rest := by
  have gap : isDigitOrGap first = true := by rw [isDigitOrGap, digit, Bool.true_or]
  have all : ∀ c ∈ first :: run, isDigitOrGap c = true := List.forall_mem_cons.mpr ⟨gap, each⟩
  refine ⟨first, run, rfl, ?_⟩
  rw [readLexeme_of_isWordPart (isWordPart_of_isDigitOrGap gap), if_pos digit, ← List.cons_append,
    readNumber_integer all number.1 number.2, readNumber.integer]
  simp only [small, if_true]

theorem string {value : List Char} {inside : List Char} (quoted : Quoted '\"' value inside) :
    Forms ('\"' :: (inside ++ ['\"'])) (.text (String.ofList value)) rest := by
  refine ⟨'\"', inside ++ ['\"'], rfl, ?_⟩
  have read := readString_quoted quoted rest
  simp [readLexeme, Kind.ofMark, read]

theorem character {value : Char} {inside : List Char} (quoted : Quoted '\'' [value] inside) :
    Forms ('\'' :: (inside ++ ['\''])) (.character value) rest := by
  refine ⟨'\'', inside ++ ['\''], rfl, ?_⟩
  have read := readQuotedCharacter_quoted quoted ('\'' :: rest)
  rw [List.append_assoc, List.singleton_append, List.length_cons, List.length_append]
  simp only [readLexeme, Kind.ofMark, readCharacter, read]
  rfl

/-- A type name is read without the blanks at its ends. -/
theorem quotedType {name : List Char} (enclosed : ∀ c ∈ name, c ≠ backtick ∧ c ≠ '\n') :
    Forms (backtick :: (name ++ [backtick])) (.quotedType (String.ofList (strip name))) rest := by
  refine ⟨backtick, name ++ [backtick], rfl, ?_⟩
  rw [List.append_assoc, List.singleton_append, List.length_cons, List.length_append, readLexeme,
    readQuotedType_enclosed enclosed rest]
  rfl

end Forms

end UnitCompiler.Token
