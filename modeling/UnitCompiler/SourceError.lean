import UnitCompiler.Token

/-!
# Errors in a source text

The first place where a text stops being a unit, and why.
-/

namespace UnitCompiler

inductive LiteralSort where
  | string
  | character
  | typeName
  | integer
  deriving DecidableEq, Repr

def LiteralSort.describe : LiteralSort → String
  | .string => "string"
  | .character => "character"
  | .typeName => "type name"
  | .integer => "integer"

/-- What the grammar allows where it met another token. -/
inductive Expectation where
  | token (kind : Token.Kind)
  | identifier
  | expression
  | item
  deriving DecidableEq, Repr

def Expectation.describe : Expectation → String
  | .token kind => kind.describe
  | .identifier => "identifier"
  | .expression => "expression"
  | .item => "function or statement"

inductive SourceFault where
  | unexpectedCharacter (found : Char)
  | unterminated (sort : LiteralSort)
  | invalidLiteral (sort : LiteralSort) (text : String)
  | unexpectedToken (expected : Expectation) (found : Token.Kind)
  deriving DecidableEq, Repr

def SourceFault.describe : SourceFault → String
  | .unexpectedCharacter found => s!"unexpected character '{found}'"
  | .unterminated sort => s!"unterminated {sort.describe} literal"
  | .invalidLiteral sort text => s!"invalid {sort.describe} literal '{text}'"
  | .unexpectedToken expected found => s!"expected {expected.describe}, found {found.describe}"

structure SourceError where
  fault : SourceFault
  place : Position
  deriving DecidableEq, Repr

def SourceError.message (e : SourceError) : String :=
  s!"{e.place.line}:{e.place.offset}: {e.fault.describe}"

end UnitCompiler
