import UnitCompiler.Text.Numeric

/-!
# Settings documents

The part of TOML that settings can be written in. A document is a list of lines, each empty, a table
header or a key with a value. Values are integers, texts, empty arrays and inline tables with at most
one key: no setting takes anything else, so every other value is refused.
-/

namespace UnitCompiler.Settings

inductive Value where
  | integer (value : Int)
  | text (value : String)
  | emptyArray
  | emptyTable
  /-- An inline table with one key. -/
  | entry (key : List String) (value : Value)
  deriving Repr

inductive Line where
  | header (key : List String)
  | pair (key : List String) (value : Value)
  deriving Repr

/-- What is read and what follows it. -/
abbrev Reader (α : Type) := List Char → Option (α × List Char)

/-- Characters allowed in comments and in texts on one line. -/
def isVisible (c : Char) : Bool :=
  c = '\t' || (0x20 ≤ c.toNat && c.toNat ≠ 0x7f)

def isSpace (c : Char) : Bool := c = ' ' || c = '\t'

def skipSpaces (input : List Char) : List Char := input.dropWhile isSpace

/-- A line feed, with or without a carriage return in front. -/
def newline? : List Char → Option (List Char)
  | '\n' :: rest => some rest
  | '\r' :: '\n' :: rest => some rest
  | _ => none

/-- Drops a comment, up to the end of the line. -/
def skipComment : List Char → List Char
  | '#' :: rest => rest.dropWhile isVisible
  | input => input

/-- The rest of a line that holds nothing more. -/
def endOfLine? (input : List Char) : Option (List Char) :=
  match skipComment (skipSpaces input) with
  | [] => some []
  | rest => newline? rest

/-! ## Texts -/

def hexValue? (c : Char) : Option Nat :=
  if '0' ≤ c ∧ c ≤ '9' then some (c.toNat - 48)
  else if 'a' ≤ c ∧ c ≤ 'f' then some (c.toNat - 87)
  else if 'A' ≤ c ∧ c ≤ 'F' then some (c.toNat - 55)
  else none

/-- The code point spelled by hexadecimal digits. -/
def codePoint? (digits : List Char) : Option Char := do
  let values ← digits.mapM hexValue?
  let n := values.foldl (fun n d => 16 * n + d) 0
  if n.isValidChar then some (Char.ofNat n) else none

/-- The character behind a backslash. -/
def escape? : Reader Char
  | 'b' :: rest => some ('\x08', rest)
  | 't' :: rest => some ('\t', rest)
  | 'n' :: rest => some ('\n', rest)
  | 'f' :: rest => some ('\x0c', rest)
  | 'r' :: rest => some ('\r', rest)
  | '\"' :: rest => some ('\"', rest)
  | '\\' :: rest => some ('\\', rest)
  | 'u' :: rest =>
    if (rest.take 4).length = 4 then (codePoint? (rest.take 4)).map (·, rest.drop 4) else none
  | 'U' :: rest =>
    if (rest.take 8).length = 8 then (codePoint? (rest.take 8)).map (·, rest.drop 8) else none
  | _ => none

/-- The rest of a text in double quotes. -/
def basicText? : Nat → Reader (List Char)
  | 0, _ => none
  | _ + 1, [] => none
  | fuel + 1, c :: rest =>
    if c = '\"' then some ([], rest)
    else if c = '\\' then do
      let (first, rest) ← escape? rest
      let (others, rest) ← basicText? fuel rest
      some (first :: others, rest)
    else if isVisible c then do
      let (others, rest) ← basicText? fuel rest
      some (c :: others, rest)
    else none

/-- The rest of a text in single quotes, in which nothing is escaped. -/
def literalText? : Reader (List Char)
  | [] => none
  | c :: rest =>
    if c = '\x27' then some ([], rest)
    else if isVisible c then do
      let (others, rest) ← literalText? rest
      some (c :: others, rest)
    else none

/-- Drops blanks and line ends. -/
def skipBlanks : List Char → List Char
  | c :: rest =>
    if isSpace c || c = '\n' then skipBlanks rest
    else if c = '\r' && rest.head? = some '\n' then skipBlanks rest
    else c :: rest
  | [] => []

/-- Whether only blanks stand before the end of the line, which there is. -/
def endsLine (input : List Char) : Bool :=
  (newline? (skipSpaces input)).isSome

/-- The rest of a text in three double quotes, which may span lines. A backslash at the end of a line
drops the blanks that follow it. -/
def longBasicText? : Nat → Reader (List Char)
  | 0, _ => none
  | fuel + 1, input =>
    match input with
    | '\"' :: '\"' :: '\"' :: '\"' :: '\"' :: rest => some (['\"', '\"'], rest)
    | '\"' :: '\"' :: '\"' :: '\"' :: rest => some (['\"'], rest)
    | '\"' :: '\"' :: '\"' :: rest => some ([], rest)
    | '\\' :: rest =>
      if endsLine rest then longBasicText? fuel (skipBlanks rest)
      else do
        let (first, rest) ← escape? rest
        let (others, rest) ← longBasicText? fuel rest
        some (first :: others, rest)
    | c :: rest =>
      match newline? input with
      | some rest => do
        let (others, rest) ← longBasicText? fuel rest
        some ('\n' :: others, rest)
      | none =>
        if isVisible c then do
          let (others, rest) ← longBasicText? fuel rest
          some (c :: others, rest)
        else none
    | [] => none

/-- The rest of a text in three single quotes. -/
def longLiteralText? : Nat → Reader (List Char)
  | 0, _ => none
  | fuel + 1, input =>
    match input with
    | '\x27' :: '\x27' :: '\x27' :: '\x27' :: '\x27' :: rest => some (['\x27', '\x27'], rest)
    | '\x27' :: '\x27' :: '\x27' :: '\x27' :: rest => some (['\x27'], rest)
    | '\x27' :: '\x27' :: '\x27' :: rest => some ([], rest)
    | c :: rest =>
      match newline? input with
      | some rest => do
        let (others, rest) ← longLiteralText? fuel rest
        some ('\n' :: others, rest)
      | none =>
        if isVisible c then do
          let (others, rest) ← longLiteralText? fuel rest
          some (c :: others, rest)
        else none
    | [] => none

/-- A line end right behind the opening quotes does not count. -/
def skipFirstNewline (input : List Char) : List Char :=
  (newline? input).getD input

def text? (input : List Char) : Option (String × List Char) :=
  let result :=
    match input with
    | '\"' :: '\"' :: '\"' :: rest => longBasicText? (rest.length + 1) (skipFirstNewline rest)
    | '\"' :: rest => basicText? (rest.length + 1) rest
    | '\x27' :: '\x27' :: '\x27' :: rest => longLiteralText? (rest.length + 1) (skipFirstNewline rest)
    | '\x27' :: rest => literalText? rest
    | _ => none
  result.map fun (chars, rest) => (String.ofList chars, rest)

/-! ## Keys -/

def isBareKeyChar (c : Char) : Bool :=
  ('a' ≤ c && c ≤ 'z') || ('A' ≤ c && c ≤ 'Z') || Text.isDigit c || c = '_' || c = '-'

/-- One segment of a key. -/
def segment? (input : List Char) : Option (String × List Char) :=
  match input with
  | '\"' :: rest =>
    (basicText? (rest.length + 1) rest).map fun (chars, rest) => (String.ofList chars, rest)
  | '\x27' :: rest => (literalText? rest).map fun (chars, rest) => (String.ofList chars, rest)
  | _ =>
    let word := input.takeWhile isBareKeyChar
    if word.isEmpty then none else some (String.ofList word, input.dropWhile isBareKeyChar)

/-- A key: segments with dots between them, and the blanks behind it. -/
def key? : Nat → Reader (List String)
  | 0, _ => none
  | fuel + 1, input => do
    let (first, rest) ← segment? input
    match skipSpaces rest with
    | '.' :: rest => do
      let (others, rest) ← key? fuel (skipSpaces rest)
      some (first :: others, rest)
    | rest => some ([first], rest)

/-! ## Values -/

/-- Digits of a base, with single underscores between them. -/
def digits? (base : Nat) : List Char → Option (List Nat)
  | [] => none
  | [c] => do
    let d ← hexValue? c
    if d < base then some [d] else none
  | c :: '_' :: rest => do
    let d ← hexValue? c
    let others ← digits? base rest
    if d < base then some (d :: others) else none
  | c :: rest => do
    let d ← hexValue? c
    let others ← digits? base rest
    if d < base then some (d :: others) else none

def magnitude (base : Nat) (digits : List Nat) : Nat :=
  digits.foldl (fun n d => base * n + d) 0

/-- Decimal digits without a needless zero in front. -/
def decimal? (word : List Char) : Option Nat :=
  match digits? 10 word with
  | some (0 :: _ :: _) => none
  | some digits => some (magnitude 10 digits)
  | none => none

/-- An integer of 64 bits, decimal with an optional sign, or in base 16, 8 or 2. -/
def integer? (word : List Char) : Option Int :=
  let value : Option Int :=
    match word with
    | '0' :: 'x' :: rest => (digits? 16 rest).map fun digits => (magnitude 16 digits : Int)
    | '0' :: 'o' :: rest => (digits? 8 rest).map fun digits => (magnitude 8 digits : Int)
    | '0' :: 'b' :: rest => (digits? 2 rest).map fun digits => (magnitude 2 digits : Int)
    | '+' :: rest => (decimal? rest).map fun n => (n : Int)
    | '-' :: rest => (decimal? rest).map fun n => -(n : Int)
    | _ => (decimal? word).map fun n => (n : Int)
  value.filter fun n => -0x8000000000000000 ≤ n && n < 0x8000000000000000

def isIntegerChar (c : Char) : Bool :=
  isBareKeyChar c || c = '+' || c = '.' || c = ':'

/-- The rest of an array, which must hold nothing but blanks, line ends and comments. -/
def emptyArray? : Nat → Reader Value
  | 0, _ => none
  | fuel + 1, input =>
    match skipSpaces input with
    | ']' :: rest => some (.emptyArray, rest)
    | rest =>
      match newline? (skipComment rest) with
      | some rest => emptyArray? fuel rest
      | none => none

def value? : Nat → Reader Value
  | 0, _ => none
  | fuel + 1, input =>
    match input with
    | '\"' :: _ => (text? input).map fun (s, rest) => (.text s, rest)
    | '\x27' :: _ => (text? input).map fun (s, rest) => (.text s, rest)
    | '[' :: rest => emptyArray? (rest.length + 1) rest
    | '\x7b' :: rest =>
      match skipSpaces rest with
      | '\x7d' :: rest => some (.emptyTable, rest)
      | rest => do
        let (key, rest) ← key? (rest.length + 1) rest
        match rest with
        | '=' :: rest => do
          let (value, rest) ← value? fuel (skipSpaces rest)
          match skipSpaces rest with
          | '\x7d' :: rest => some (.entry key value, rest)
          | _ => none
        | _ => none
    | _ =>
      (integer? (input.takeWhile isIntegerChar)).map fun n =>
        (.integer n, input.dropWhile isIntegerChar)

/-! ## Lines -/

/-- A line that is not empty. -/
def line? (input : List Char) : Option (Line × List Char) :=
  match input with
  | '[' :: rest => do
    let (key, rest) ← key? (rest.length + 1) (skipSpaces rest)
    match rest with
    | ']' :: rest => some (.header key, ← endOfLine? rest)
    | _ => none
  | _ => do
    let (key, rest) ← key? (input.length + 1) input
    match rest with
    | '=' :: rest => do
      let (value, rest) ← value? (rest.length + 1) (skipSpaces rest)
      some (.pair key value, ← endOfLine? rest)
    | _ => none

def lines? : Nat → List Char → Option (List Line)
  | 0, _ => none
  | fuel + 1, input =>
    match skipSpaces input with
    | [] => some []
    | rest =>
      match endOfLine? rest with
      | some rest => lines? fuel rest
      | none => do
        let (first, rest) ← line? rest
        let others ← lines? fuel rest
        some (first :: others)

/-- The lines of a document. A byte order mark in front does not count. -/
def document? (text : String) : Option (List Line) :=
  let input := match text.toList with
    | '\ufeff' :: rest => rest
    | input => input
  lines? (input.length + 1) input

end UnitCompiler.Settings
