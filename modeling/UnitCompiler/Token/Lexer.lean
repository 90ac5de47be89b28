import UnitCompiler.SourceError
import UnitCompiler.Text.Alphabetic
import UnitCompiler.Text.Blank
import UnitCompiler.Text.Numeric

/-!
# Splitting a text into tokens

Between tokens stand blanks and line comments. What a token is depends only on the characters from
its first one on, never on its place, and no token reaches past the end of its line: each reader
below takes the text behind the first character and gives back a width and what is left.
-/

namespace UnitCompiler.Token

open Text

/-- A token's kind, the number of characters it takes and the text behind it. -/
structure Lexeme where
  kind : Kind
  width : Nat
  rest : List Char

/-! ## Between tokens -/

/-- Skips blanks and comments, from inside a comment or not. A comment lasts to the end of its line;
a single slash is left for the reader of tokens. -/
def skipTrivia (comment : Bool) : Position → List Char → Position × List Char
  | place, [] => (place, [])
  | place, c :: rest =>
    if comment then skipTrivia (c != '\n') (place.step c) rest
    else if isBlank c then skipTrivia false (place.step c) rest
    else if c = '/' ∧ rest.head? = some '/' then skipTrivia true (place.step c) rest
    else (place, c :: rest)

/-! ## Literals -/

/-- The character an escape stands for. -/
def unescape (c : Char) : Option Char :=
  match c with
  | 'n' => some '\n'
  | 't' => some '\t'
  | 'r' => some '\r'
  | '0' => some (Char.ofNat 0)
  | '\\' => some '\\'
  | '\"' => some '\"'
  | '\'' => some '\''
  | _ => none

/-- The value and width of a string behind its opening quote. -/
def readString : List Char → Except SourceFault (List Char × Nat × List Char)
  | [] => .error (.unterminated .string)
  | c :: rest =>
    if c = '\"' then .ok ([], 1, rest)
    else if c = '\n' then .error (.unterminated .string)
    else if c = '\\' then
      match rest with
      | [] => .error (.unterminated .string)
      | e :: rest =>
        match unescape e with
        | none => .error (.invalidLiteral .string (String.ofList ['\\', e]))
        | some value => do
          let (values, width, rest) ← readString rest
          return (value :: values, width + 2, rest)
    else do
      let (values, width, rest) ← readString rest
      return (c :: values, width + 1, rest)

/-- The character between quotes and its width. -/
def readQuotedCharacter : List Char → Except SourceFault (Char × Nat × List Char)
  | [] => .error (.unterminated .character)
  | '\\' :: rest =>
    match rest with
    | [] => .error (.unterminated .character)
    | e :: rest =>
      match unescape e with
      | none => .error (.invalidLiteral .character (String.ofList ['\\', e]))
      | some value => .ok (value, 2, rest)
  | c :: rest =>
    if c = '\'' ∨ c = '\n' then .error (.unterminated .character) else .ok (c, 1, rest)

/-- The value and width of a character behind its opening quote. -/
def readCharacter (text : List Char) : Except SourceFault (Char × Nat × List Char) := do
  let (value, width, rest) ← readQuotedCharacter text
  match rest with
  | '\'' :: rest => return (value, width + 1, rest)
  | _ => throw (.unterminated .character)

def backtick : Char := '\x60'

/-- The text and width of a type name behind its opening backtick. -/
def readQuotedType : List Char → Except SourceFault (List Char × Nat × List Char)
  | [] => .error (.unterminated .typeName)
  | c :: rest =>
    if c = backtick then .ok ([], 1, rest)
    else if c = '\n' then .error (.unterminated .typeName)
    else do
      let (name, width, rest) ← readQuotedType rest
      return (c :: name, width + 1, rest)

/-! ## Numbers and words -/

def isDigitOrGap (c : Char) : Bool :=
  isDigit c || c == '_'

def digitValues (run : List Char) : List Nat :=
  (run.filter isDigit).map fun c => c.toNat - '0'.toNat

/-- An integer, or a decimal when a point and a digit follow. Underscores count for nothing. -/
def readNumber (text : List Char) : Except SourceFault Lexeme :=
  let whole := text.takeWhile isDigitOrGap
  let rest := text.dropWhile isDigitOrGap
  match rest with
  | '.' :: d :: more =>
    if isDigit d then
      let fraction := (d :: more).takeWhile isDigitOrGap
      .ok ⟨.decimal (.ofDigits (digitValues whole) (digitValues fraction)),
        whole.length + 1 + fraction.length, (d :: more).dropWhile isDigitOrGap⟩
    else integer whole rest
  | _ => integer whole rest
where
  integer (whole rest : List Char) : Except SourceFault Lexeme :=
    let value := Binary64.digitsValue (digitValues whole)
    if value < 0x8000000000000000 then .ok ⟨.integer (Int64.ofNat value), whole.length, rest⟩
    else .error (.invalidLiteral .integer (String.ofList (whole.filter isDigit)))

def isWordStart (c : Char) : Bool :=
  isAlphabetic c || c == '_'

def isWordPart (c : Char) : Bool :=
  isAlphabetic c || isNumeric c || c == '_'

def readWord (first : Char) (text : List Char) : Lexeme :=
  let word := first :: text.takeWhile isWordPart
  ⟨.ofWord (String.ofList word), word.length, text.dropWhile isWordPart⟩

/-- The token that starts with a character. -/
def readLexeme (c : Char) (rest : List Char) : Except SourceFault Lexeme :=
  match Kind.ofMark c with
  | some kind => .ok ⟨kind, 1, rest⟩
  | none =>
    if c = '\"' then do
      let (value, width, rest) ← readString rest
      return ⟨.text (String.ofList value), width + 1, rest⟩
    else if c = '\'' then do
      let (value, width, rest) ← readCharacter rest
      return ⟨.character value, width + 1, rest⟩
    else if c = backtick then do
      let (name, width, rest) ← readQuotedType rest
      return ⟨.quotedType (String.ofList (strip name)), width + 1, rest⟩
    else if isDigit c then readNumber (c :: rest)
    else if isWordStart c then .ok (readWord c rest)
    else .error (.unexpectedCharacter c)

/-! ## Whole texts -/

/-- The tokens from a place on; every token takes a character, so `fuel` is the text's length. -/
def tokensFrom : Nat → Position → List Char → Except SourceError (List Token)
  | fuel, place, text =>
    match skipTrivia false place text with
    | (place, []) => .ok [⟨.endOfInput, .atEnd place⟩]
    | (place, c :: rest) =>
      match readLexeme c rest with
      | .error fault => .error ⟨fault, place⟩
      | .ok lexeme =>
        match fuel with
        | 0 => .ok []
        | fuel + 1 => do
          let tokens ← tokensFrom fuel (place.along lexeme.width) lexeme.rest
          return ⟨lexeme.kind, .along place lexeme.width⟩ :: tokens

def tokenize (source : String) : Except SourceError (List Token) :=
  tokensFrom source.toList.length .start source.toList

end UnitCompiler.Token
