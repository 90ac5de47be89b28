import UnitCompiler.Proofs.Dotted
import UnitCompiler.Proofs.TokenTiling

/-! Layout does not matter. Tokens can be written in many ways: strings and characters with escapes or
without, integers with underscores. With any trivia between them, and any at both ends, they are read as
the tokens they were written for. An integer that is too large is refused where it starts. -/

namespace UnitCompiler.Token

open Text

/-! ## How tokens are written -/

def Kind.words : List (Kind × String) :=
  [(.importWord, "import"), (.fnWord, "fn"), (.asWord, "as"), (.trueWord, "true"), (.falseWord, "false"),
    (.nullWord, "null")]

def Kind.marks : List (Kind × Char) :=
  [(.openParen, '('), (.closeParen, ')'), (.openBrace, '\x7b'), (.closeBrace, '\x7d'), (.openBracket, '['),
    (.closeBracket, ']'), (.comma, ','), (.colon, ':'), (.semicolon, ';'), (.dot, '.'), (.equals, '=')]

def FreeWord (name : String) : Prop := isWord name.toList = true ∧ name ∉ Kind.words.map Prod.snd

def Trimmed (text : List Char) : Prop :=
  (∀ c ∈ text.head?, isBlank c = false) ∧ ∀ c ∈ text.getLast?, isBlank c = false

/-- The name of a type between backticks. -/
def TypeText (name : String) : Prop :=
  Trimmed name.toList ∧ ∀ c ∈ name.toList, c ≠ backtick ∧ c ≠ '\n'

/-- A digit, and digits and underscores behind it. -/
def DigitRun (run : List Char) : Prop :=
  (∃ c ∈ run.head?, isDigit c = true) ∧ ∀ c ∈ run, isDigit c = true ∨ c = '_'

def digitsOf (run : List Char) : List Char := run.filter (· != '_')

def valueOf (run : List Char) : Nat := Nat.ofDigitChars 10 (digitsOf run) 0

inductive Spelled : Kind → List Char → Prop where
  | word {kind : Kind} {word : String} (own : (kind, word) ∈ Kind.words) : Spelled kind word.toList
  | mark {kind : Kind} {c : Char} (own : (kind, c) ∈ Kind.marks) : Spelled kind [c]
  | identifier {name : String} (free : FreeWord name) : Spelled (.identifier name) name.toList
  | text {value : String} {inside : List Char} (quoted : Quoted '\"' value.toList inside) :
      Spelled (.text value) ('\"' :: (inside ++ ['\"']))
  | character {value : Char} {inside : List Char} (quoted : Quoted '\'' [value] inside) :
      Spelled (.character value) ('\'' :: (inside ++ ['\'']))
  | integer {value : Int64} {run : List Char} (digits : DigitRun run) (same : valueOf run = value.toInt) :
      Spelled (.integer value) run
  | quotedType {name : String} (valid : TypeText name) :
      Spelled (.quotedType name) (backtick :: (name.toList ++ [backtick]))

/-- Tokens that can be written: not the end of input, not a decimal and not a negative integer. -/
def Kind.Writable : Kind → Prop
  | .endOfInput | .decimal _ => False
  | .identifier name => FreeWord name
  | .integer value => 0 ≤ value
  | .quotedType name => TypeText name
  | _ => True

instance : DecidablePred FreeWord := fun _ => inferInstanceAs (Decidable (_ ∧ _))

-- The characters are those of the text, not all there are.
instance : DecidablePred Trimmed := fun text =>
  @instDecidableAnd _ _ (Option.decidableForallMem text.head?) (Option.decidableForallMem text.getLast?)

instance : DecidablePred TypeText := fun name =>
  @instDecidableAnd _ _ (inferInstanceAs (Decidable (Trimmed _))) (List.decidableBAll _ name.toList)

instance : DecidablePred Kind.Writable
  | .endOfInput | .decimal _ => .isFalse id
  | .identifier name => inferInstanceAs (Decidable (FreeWord name))
  | .integer value => inferInstanceAs (Decidable (0 ≤ value))
  | .quotedType name => inferInstanceAs (Decidable (TypeText name))
  | .text _ | .character _ | .importWord | .fnWord | .asWord | .trueWord | .falseWord | .nullWord
  | .openParen | .closeParen | .openBrace | .closeBrace | .openBracket | .closeBracket | .comma | .colon
  | .semicolon | .dot | .equals => .isTrue trivial

def Kind.chars : Kind → List Char
  | .endOfInput | .decimal _ => []
  | .identifier name => name.toList
  | .text value => '\"' :: (value.toList.flatMap (escape '\"') ++ ['\"'])
  | .character value => '\'' :: (escape '\'' value ++ ['\''])
  | .integer value => Nat.toDigits 10 value.toInt.toNat
  | .quotedType name => backtick :: (name.toList ++ [backtick])
  | kind => ((Kind.words.lookup kind).map String.toList).getD (Kind.marks.lookup kind).toList

/-- Pieces with tokens that are written in some way and trivia between neighbours. -/
structure Written (pieces : List Piece) : Prop where
  trivia : ∀ p ∈ pieces, Trivia p.gap
  spelled : ∀ p ∈ pieces, Spelled p.kind p.own
  apart : ∀ p ∈ pieces.tail, p.gap ≠ []

/-! ## Every token is read as it was written -/

theorem strip_of_trimmed {text : List Char} (trimmed : Trimmed text) : strip text = text :=
  stripBy_eq_self.mpr trimmed

theorem digitRun_cons {first : Char} {more : List Char} (digit : isDigit first = true)
    (each : more.all isDigitOrGap = true) : DigitRun (first :: more) := by
  refine ⟨⟨first, rfl, digit⟩, List.forall_mem_cons.mpr ⟨.inl digit, fun c member => ?_⟩⟩
  simpa [isDigitOrGap] using List.all_eq_true.mp each c member

theorem DigitRun.digitsOf {run : List Char} (digits : DigitRun run) : digitsOf run = run.filter isDigit := by
  apply List.filter_congr
  intro c member
  rcases digits.2 c member with digit | rfl
  · have apart : c ≠ '_' := by
      rintro rfl
      contradiction
    simp [digit, apart]
  · decide

theorem DigitRun.valueOf {run : List Char} (digits : DigitRun run) :
    valueOf run = Binary64.digitsValue (digitValues run) := by
  rw [Token.valueOf, digits.digitsOf, Nat.ofDigitChars_eq_foldl, Binary64.digitsValue, digitValues,
    List.foldl_map]
  simp only [Nat.mul_comm]

theorem DigitRun.split {run : List Char} (digits : DigitRun run) :
    ∃ first more, run = first :: more ∧ isDigit first = true ∧ ∀ c ∈ more, isDigitOrGap c = true := by
  obtain ⟨⟨first, head, digit⟩, each⟩ := digits
  obtain ⟨more, rfl⟩ := List.head?_eq_some_iff.mp head
  refine ⟨first, more, rfl, digit, fun c member => ?_⟩
  simpa [isDigitOrGap] using each c (List.mem_cons_of_mem _ member)

theorem FreeWord.forms {name : String} (free : FreeWord name) {rest : List Char}
    (shuns : Shuns isWordPart rest) : Forms name.toList (.identifier name) rest := by
  have forms := Forms.word free.1 shuns
  have unknown : Kind.ofWord name = .identifier name := by
    have others := free.2
    simp only [Kind.words, List.map_cons, List.map_nil, List.mem_cons, List.not_mem_nil, not_or] at others
    simp [Kind.ofWord, others]
  rwa [String.ofList_toList, unknown] at forms

theorem Spelled.forms {kind : Kind} {own rest : List Char} (spelled : Spelled kind own)
    (severed : Severed rest) : Forms own kind rest := by
  cases spelled with
  | @word kind word own =>
    have each : ∀ pair ∈ Kind.words, isWord pair.2.toList = true ∧ Kind.ofWord pair.2 = pair.1 := by decide
    obtain ⟨valid, known⟩ := each _ own
    have forms := Forms.word valid severed.word
    rwa [String.ofList_toList, known] at forms
  | mark own =>
    have each : ∀ pair ∈ Kind.marks, Kind.ofMark pair.2 = some pair.1 := by decide
    exact .mark (each _ own)
  | identifier free => exact free.forms severed.word
  | @text value inside quoted =>
    have forms : Forms _ _ rest := .string quoted
    rwa [String.ofList_toList] at forms
  | character quoted => exact .character quoted
  | @integer value run digits same =>
    rw [digits.valueOf] at same
    obtain ⟨first, more, rfl, digit, each⟩ := digits.split
    have bound := value.toInt_lt
    have forms := Forms.integer digit each (by omega) severed.number
    rwa [← Int64.ofInt_eq_ofNat, same, Int64.ofInt_toInt] at forms
  | @quotedType name valid =>
    have forms : Forms _ _ rest := .quotedType valid.2
    rwa [strip_of_trimmed valid.1, String.ofList_toList] at forms

/-- The shortest way to write a number. -/
theorem toDigits_digitRun (n : Nat) : DigitRun (Nat.toDigits 10 n) ∧ valueOf (Nat.toDigits 10 n) = n := by
  have each : ∀ c ∈ Nat.toDigits 10 n, isDigit c = true := fun c => isDigit_of_mem_toDigits
  obtain ⟨first, more, digits⟩ := List.exists_cons_of_ne_nil (Nat.toDigits_ne_nil (n := n) (b := 10))
  have run : DigitRun (Nat.toDigits 10 n) := by
    refine ⟨⟨first, by simp [digits], ?_⟩, fun c member => .inl (each c member)⟩
    exact each first (by simp [digits])
  refine ⟨run, ?_⟩
  rw [valueOf, run.digitsOf, List.filter_eq_self.mpr each, Nat.ofDigitChars_ten_toDigits]

theorem Kind.Writable.spelled {kind : Kind} (writable : kind.Writable) : Spelled kind kind.chars := by
  cases kind with
  | endOfInput | decimal value => exact writable.elim
  | identifier name => exact .identifier writable
  | text value => exact .text (quoted_escape (by decide) value.toList)
  | character value =>
    have quoted : Quoted '\'' [value] _ := quoted_escape (by decide) [value]
    rw [List.flatMap_singleton] at quoted
    exact .character quoted
  | integer value =>
    obtain ⟨digits, same⟩ := toDigits_digitRun value.toInt.toNat
    refine .integer digits ?_
    rw [Kind.chars, same, Int.toNat_of_nonneg]
    exact Int64.le_iff_toInt_le.mp writable
  | quotedType name => exact .quotedType writable
  | importWord | fnWord | asWord | trueWord | falseWord | nullWord => exact .word (by decide)
  | openParen | closeParen | openBrace | closeBrace | openBracket | closeBracket | comma | colon
  | semicolon | dot | equals => exact .mark (by decide)

theorem Spelled.writable {kind : Kind} {own : List Char} (spelled : Spelled kind own) : kind.Writable := by
  cases spelled with
  | word own =>
    simp only [Kind.words, List.mem_cons, Prod.mk.injEq, List.not_mem_nil, or_false] at own
    rcases own with ⟨rfl, -⟩ | ⟨rfl, -⟩ | ⟨rfl, -⟩ | ⟨rfl, -⟩ | ⟨rfl, -⟩ | ⟨rfl, -⟩ <;> trivial
  | mark own =>
    simp only [Kind.marks, List.mem_cons, Prod.mk.injEq, List.not_mem_nil, or_false] at own
    rcases own with ⟨rfl, -⟩ | ⟨rfl, -⟩ | ⟨rfl, -⟩ | ⟨rfl, -⟩ | ⟨rfl, -⟩ | ⟨rfl, -⟩ | ⟨rfl, -⟩ |
      ⟨rfl, -⟩ | ⟨rfl, -⟩ | ⟨rfl, -⟩ | ⟨rfl, -⟩ <;> trivial
  | identifier free => exact free
  | text | character => trivial
  | integer digits same => exact Int64.le_iff_toInt_le.mpr (same ▸ Int.natCast_nonneg _)
  | quotedType valid => exact valid

/-! ## Layout -/

theorem Trivia.severed {gap : List Char} (trivia : Trivia gap) (filled : gap ≠ []) (text : List Char) :
    Severed (gap ++ text) := by
  cases trivia with
  | nil => contradiction
  | @blank c gap blank behind =>
    have point : c ≠ '.' := by
      rintro rfl
      contradiction
    exact shuns_cons (by simp [isWordPart_of_isBlank blank, point])
  | comment => exact shuns_cons (by decide)

theorem Closing.severed {tail : List Char} (closing : Closing tail) : Severed tail := by
  have begun {gap : List Char} (trivia : Trivia gap) {text : List Char} (severed : Severed text) :
      Severed (gap ++ text) := by
    by_cases filled : gap = []
    · rwa [filled]
    · exact trivia.severed filled text
  cases closing with
  | trivia trivia => simpa using begun trivia (shuns_nil _)
  | comment trivia line => exact begun trivia (shuns_cons (by decide))

theorem Written.laid {pieces : List Piece} {rest : List Char} (written : Written pieces)
    (severed : pieces ≠ [] → Severed rest) : Laid pieces rest := by
  induction pieces with
  | nil => trivial
  | cons p pieces ih =>
    obtain ⟨trivia, spelled, apart⟩ := written
    obtain ⟨own, trivia⟩ := List.forall_mem_cons.mp trivia
    obtain ⟨first, spelled⟩ := List.forall_mem_cons.mp spelled
    have behind : Severed (layout pieces ++ rest) := by
      cases pieces with
      | nil => exact severed (List.cons_ne_nil _ _)
      | cons q pieces =>
        rw [layout_cons, Piece.text, List.append_assoc, List.append_assoc]
        exact (trivia q List.mem_cons_self).severed (apart q List.mem_cons_self) _
    refine ⟨own, first.forms behind, ih ⟨trivia, spelled, fun q member => ?_⟩ fun _ => ?_⟩
    · exact apart q (List.mem_of_mem_tail member)
    · exact severed (List.cons_ne_nil _ _)

theorem placed_kinds (place : Position) (pieces : List Piece) :
    (placed place pieces).map Token.kind = pieces.map Piece.kind := by
  induction pieces generalizing place with
  | nil => rfl
  | cons p pieces ih => simp [placed, Piece.token, ih]

/-- A text is split into tokens of some kinds. -/
def Scans (text : List Char) (kinds : List Kind) : Prop :=
  ∃ (pieces : List Piece) (tail : List Char), text = layout pieces ++ tail ∧ Laid pieces tail ∧
    Closing tail ∧ pieces.map Piece.kind = kinds

namespace Scans

variable {text : List Char} {kinds : List Kind}

theorem tokenize {source : String} (scans : Scans source.toList kinds) :
    ∃ (body : List Token) (last : Token), tokenize source = .ok (body ++ [last]) ∧
      body.map Token.kind = kinds ∧ last.kind = .endOfInput ∧
      ∀ token ∈ body, token.kind ≠ .endOfInput := by
  obtain ⟨pieces, tail, whole, laid, closing, rfl⟩ := scans
  have lexed := tokensAt_whole laid closing .start
  rw [← whole, ← tokenize_eq] at lexed
  obtain ⟨body, last, split, -, proper⟩ := tokenize_ends lexed
  obtain ⟨rfl, -⟩ := List.append_inj' split rfl
  exact ⟨_, _, lexed, placed_kinds .start pieces, rfl, proper⟩

theorem kindsOf {source : String} (scans : Scans source.toList kinds) :
    kindsOf source = .ok (kinds ++ [Kind.endOfInput]) := by
  obtain ⟨body, last, lexed, rfl, ends, -⟩ := scans.tokenize
  simp [Token.kindsOf, lexed, Except.map, ends]

theorem nil : Scans [] [] := ⟨[], [], rfl, trivial, .trivia .nil, rfl⟩

theorem blank {c : Char} (blank : isBlank c = true) (scans : Scans text kinds) :
    Scans (c :: text) kinds := by
  obtain ⟨pieces, tail, rfl, laid, closing, rfl⟩ := scans
  cases pieces with
  | nil =>
    refine ⟨[], c :: tail, rfl, trivial, ?_, rfl⟩
    cases closing with
    | trivia trivia => exact .trivia (.blank blank trivia)
    | comment trivia line => exact .comment (.blank blank trivia) line
  | cons p pieces =>
    obtain ⟨trivia, forms, others⟩ := laid
    exact ⟨{ p with gap := c :: p.gap } :: pieces, tail, rfl, ⟨.blank blank trivia, forms, others⟩, closing,
      rfl⟩

theorem token {own : List Char} {kind : Kind} (forms : Forms own kind text) (scans : Scans text kinds) :
    Scans (own ++ text) (kind :: kinds) := by
  obtain ⟨pieces, tail, rfl, laid, closing, rfl⟩ := scans
  exact ⟨⟨[], kind, own⟩ :: pieces, tail, by simp [Piece.text], ⟨.nil, forms, laid⟩, closing, rfl⟩

theorem mark {c : Char} {kind : Kind} (mark : Kind.ofMark c = some kind) (scans : Scans text kinds) :
    Scans (c :: text) (kind :: kinds) :=
  token (.mark mark) scans

/-- Any token that can be written, in front of what does not go on with it. -/
theorem write {kind : Kind} (writable : kind.Writable) (severed : Severed text)
    (scans : Scans text kinds) : Scans (kind.chars ++ text) (kind :: kinds) :=
  token (writable.spelled.forms severed) scans

end Scans

theorem FreeWord.scans {name : String} (free : FreeWord name) {rest : List Char} {more : List Kind}
    (shuns : Shuns isWordPart rest) (scans : Scans rest more) :
    Scans (name.toList ++ rest) (.identifier name :: more) :=
  .token (free.forms shuns) scans

theorem Written.scans {pieces : List Piece} {tail : List Char} (written : Written pieces)
    (closing : Closing tail) : Scans (layout pieces ++ tail) (pieces.map Piece.kind) :=
  ⟨pieces, tail, rfl, written.laid fun _ => closing.severed, closing, rfl⟩

/-- A number that is too large is refused, whatever does not go on with it. -/
theorem readLexeme_large {first : Char} {more rest : List Char} (digits : DigitRun (first :: more))
    (large : 0x8000000000000000 ≤ valueOf (first :: more)) (number : Shuns isDigitOrGap rest ∧ Pointless rest) :
    Solid first (more ++ rest) ∧ readLexeme first (more ++ rest) =
      .error (.invalidLiteral .integer (String.ofList (digitsOf (first :: more)))) := by
  rw [digits.valueOf] at large
  obtain ⟨first, more, ⟨⟩, digit, each⟩ := digits.split
  have gap : isDigitOrGap first = true := by rw [isDigitOrGap, digit, Bool.true_or]
  have all : ∀ c ∈ first :: more, isDigitOrGap c = true := List.forall_mem_cons.mpr ⟨gap, each⟩
  have part := isWordPart_of_isDigitOrGap gap
  refine ⟨⟨isBlank_of_isWordPart part, fun comment => ?_⟩, ?_⟩
  · exact ne_of_isWordPart part (by decide) comment.1
  · rw [readLexeme_of_isWordPart part, if_pos digit, ← List.cons_append,
      readNumber_integer all number.1 number.2, readNumber.integer, digits.digitsOf]
    exact if_neg (Nat.not_lt.mpr large)

theorem tokenize_large {pieces : List Piece} {gap run rest : List Char} (written : Written pieces)
    (trivia : Trivia gap) (apart : pieces ≠ [] → gap ≠ []) (digits : DigitRun run)
    (large : 0x8000000000000000 ≤ valueOf run) (number : Shuns isDigitOrGap rest ∧ Pointless rest) :
    tokenize (String.ofList (layout pieces ++ gap ++ run ++ rest)) =
      .error ⟨.invalidLiteral .integer (String.ofList (digitsOf run)),
        .ofNat (1 + (layout pieces ++ gap).count '\n'), (layout pieces ++ gap).length⟩ := by
  obtain ⟨first, more, rfl, -⟩ := digits.split
  obtain ⟨solid, refused⟩ := readLexeme_large digits large number
  have laid := written.laid fun filled => trivia.severed (apart filled) (first :: more ++ rest)
  rw [tokenize_eq, String.toList_ofList, List.append_assoc, List.append_assoc, tokensAt_laid laid,
    tokensAt_trivia trivia, ← Position.advance_append, Position.advance_eq, List.cons_append,
    tokensAt_fault solid refused]
  simp [Position.start, UInt32.ofNat_add]

/-- Tokens are read as they were written, whatever stands between them. Each token that can be written
has a way to be, and an integer beyond the largest one is refused at its first digit. -/
theorem tokenize_layout :
    (∀ kind : Kind, kind.Writable ↔ ∃ own, Spelled kind own) ∧
    (∀ pieces tail, Written pieces → Closing tail →
      kindsOf (String.ofList (layout pieces ++ tail)) =
        .ok (pieces.map Piece.kind ++ [Kind.endOfInput])) ∧
    ∀ pieces gap run rest, Written pieces → Trivia gap → (pieces ≠ [] → gap ≠ []) →
      DigitRun run → Int64.maxValue.toInt < valueOf run → Shuns isDigitOrGap rest → Pointless rest →
      tokenize (String.ofList (layout pieces ++ gap ++ run ++ rest)) =
        .error ⟨.invalidLiteral .integer (String.ofList (digitsOf run)),
          .ofNat (1 + (layout pieces ++ gap).count '\n'), (layout pieces ++ gap).length⟩ := by
  refine ⟨fun kind => ⟨fun writable => ⟨_, writable.spelled⟩, ?_⟩, ?_, ?_⟩
  · rintro ⟨own, spelled⟩
    exact spelled.writable
  · intro pieces tail written closing
    have scans := written.scans closing
    rw [← String.toList_ofList (l := layout pieces ++ tail)] at scans
    exact scans.kindsOf
  · intro pieces gap run rest written trivia apart digits large shuns pointless
    have bound : Int64.maxValue.toInt = 0x7fffffffffffffff := by decide
    exact tokenize_large written trivia apart digits (by omega) ⟨shuns, pointless⟩

/-- A word, a string with an escape behind a comment that holds quotes, and an integer with underscores. -/
def mixed : List Piece :=
  [⟨[], .fnWord, "fn".toList⟩,
    ⟨['/', '/', '\"', '\n', ' '], .text "a\n", ['\"', 'a', '\\', 'n', '\"']⟩,
    ⟨['\t'], .integer 1000, ['1', '_', '0', '0', '0', '_']⟩]

theorem mixed_written : Written mixed := by
  have comment : Trivia ['/', '/', '\"', '\n', ' '] :=
    @Trivia.comment ['\"'] [' '] (by decide) (.blank (by decide) .nil)
  have quoted : Quoted '\"' "a\n".toList ['a', '\\', 'n'] := .plain (by decide) (.escaped (by decide) .nil)
  have digits : DigitRun ['1', '_', '0', '0', '0', '_'] := digitRun_cons (by decide) (by decide)
  constructor
  · simp only [mixed, List.forall_mem_cons]
    exact ⟨.nil, comment, .blank (by decide) .nil, by simp⟩
  · simp only [mixed, List.forall_mem_cons]
    exact ⟨.word (by decide), .text quoted, .integer digits (by decide), by simp⟩
  · decide

theorem mixed_read :
    kindsOf (String.ofList (layout mixed ++ ['/', '/', '\''])) =
      .ok [.fnWord, .text "a\n", .integer 1000, .endOfInput] ∧
    tokenize (String.ofList (layout mixed ++ ['\n'] ++ "9_223372036854775808".toList ++ ['.'])) =
      .error ⟨.invalidLiteral .integer "9223372036854775808", 3, 20⟩ := by
  obtain ⟨-, read, refused⟩ := tokenize_layout
  have text : "9_223372036854775808".toList = '9' :: "_223372036854775808".toList := by decide
  have digits : DigitRun "9_223372036854775808".toList :=
    text ▸ digitRun_cons (by decide) (by decide)
  refine ⟨read mixed _ mixed_written (.comment .nil (by decide)), ?_⟩
  have error := refused mixed ['\n'] _ ['.'] mixed_written (.blank (by decide) .nil) (by decide) digits
    (by decide) (shuns_cons (by decide)) (by simp [Pointless])
  exact error.trans (by decide)

end UnitCompiler.Token
