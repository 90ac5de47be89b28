import UnitCompiler.Binary64
import UnitCompiler.Span

/-!
# Tokens

A source text is a row of tokens that ends with the end of input.
-/

namespace UnitCompiler

namespace Token

inductive Kind where
  | identifier (name : String)
  | text (value : String)
  | character (value : Char)
  | integer (value : Int64)
  | decimal (value : Binary64)
  /-- A type name between backticks. -/
  | quotedType (name : String)
  | importWord
  | fnWord
  | asWord
  | trueWord
  | falseWord
  | nullWord
  | openParen
  | closeParen
  | openBrace
  | closeBrace
  | openBracket
  | closeBracket
  | comma
  | colon
  | semicolon
  | dot
  | equals
  | endOfInput
  deriving DecidableEq, Repr

def Kind.describe : Kind → String
  | .identifier name => s!"identifier '{name}'"
  | .text _ => "string literal"
  | .character _ => "character literal"
  | .integer _ => "integer literal"
  | .decimal _ => "decimal literal"
  | .quotedType name => s!"type \x60{name}\x60"
  | .importWord => "'import'"
  | .fnWord => "'fn'"
  | .asWord => "'as'"
  | .trueWord => "'true'"
  | .falseWord => "'false'"
  | .nullWord => "'null'"
  | .openParen => "'('"
  | .closeParen => "')'"
  | .openBrace => "'\x7b'"
  | .closeBrace => "'\x7d'"
  | .openBracket => "'['"
  | .closeBracket => "']'"
  | .comma => "','"
  | .colon => "':'"
  | .semicolon => "';'"
  | .dot => "'.'"
  | .equals => "'='"
  | .endOfInput => "end of input"

/-- What a word stands for: a keyword, or a name. -/
def Kind.ofWord (word : String) : Kind :=
  if word = "import" then .importWord
  else if word = "fn" then .fnWord
  else if word = "as" then .asWord
  else if word = "true" then .trueWord
  else if word = "false" then .falseWord
  else if word = "null" then .nullWord
  else .identifier word

/-- The tokens of a single character. -/
def Kind.ofMark (c : Char) : Option Kind :=
  match c with
  | '(' => some .openParen
  | ')' => some .closeParen
  | '\x7b' => some .openBrace
  | '\x7d' => some .closeBrace
  | '[' => some .openBracket
  | ']' => some .closeBracket
  | ',' => some .comma
  | ':' => some .colon
  | ';' => some .semicolon
  | '.' => some .dot
  | '=' => some .equals
  | _ => none

end Token

structure Token where
  kind : Token.Kind
  span : Span
  deriving DecidableEq, Repr

end UnitCompiler
