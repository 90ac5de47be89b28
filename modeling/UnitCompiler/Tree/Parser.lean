import UnitCompiler.Token.Lexer
import UnitCompiler.Tree

/-!
# Parsing a unit

```text
unit       := importLine* (function | statement)*
importLine := 'import' path ('[' name (',' name)* ']')? ('as' name)? ';'?
path       := name ('.' name)*
function   := 'fn' name '(' (param (',' param)*)? ')' '{' statement* '}'
param      := name (':' type)? ('=' expr)?
type       := path | quoted type
statement  := expr ';'?
expr       := name '(' (expr (',' expr)*)? ')' | name | literal | 'null'
```

Each function reads one nonterminal from the front of a token list and gives back the rest. An
exhausted list reads like the end of input. Loops take fuel; every round takes a token, so the
length of the list is enough.
-/

namespace UnitCompiler.Tree

open Token (Kind)

/-- What was read and the tokens behind it. -/
abbrev Parsed (α : Type) := α × List Token

abbrev Reader (α : Type) := List Token → Except SourceError (Parsed α)

def endToken : Token := ⟨.endOfInput, .atEnd .start⟩

/-- The next token. -/
def peek (tokens : List Token) : Token :=
  tokens.headD endToken

/-- Fails at the next token. -/
def unexpected {α : Type} (expected : Expectation) (tokens : List Token) : Except SourceError α :=
  let token := peek tokens
  .error ⟨.unexpectedToken expected token.kind, ⟨token.span.startLine, token.span.start⟩⟩

/-- Whether the next token is of a kind, and the tokens behind it if it is. -/
def accept? (kind : Kind) : List Token → Option (List Token)
  | [] => none
  | token :: rest => if token.kind = kind then some rest else none

/-- The span of a token that has to follow. -/
def expect (kind : Kind) (tokens : List Token) : Except SourceError (Parsed Span) :=
  match accept? kind tokens with
  | some rest => .ok ((peek tokens).span, rest)
  | none => unexpected (.token kind) tokens

def identifier (tokens : List Token) : Except SourceError (Parsed (String × Span)) :=
  match tokens with
  | ⟨.identifier name, span⟩ :: rest => .ok ((name, span), rest)
  | _ => unexpected .identifier tokens

/-- One item, then further ones behind separators. -/
def separated {α : Type} (separator : Kind) (item : Reader α) :
    Nat → List Token → Except SourceError (Parsed (List α))
  | 0, tokens => do
    let (first, rest) ← item tokens
    return ([first], rest)
  | fuel + 1, tokens => do
    let (first, rest) ← item tokens
    match accept? separator rest with
    | some more =>
      let (items, rest) ← separated separator item fuel more
      return (first :: items, rest)
    | none => return ([first], rest)

/-- Items up to a closing token, none if it comes at once. -/
def enclosed {α : Type} (item : Reader α) (close : Kind) (tokens : List Token) :
    Except SourceError (Parsed (List α × Span)) := do
  let (items, rest) ←
    if (peek tokens).kind = close then .ok ([], tokens)
    else separated .comma item tokens.length tokens
  let (span, rest) ← expect close rest
  return ((items, span), rest)

/-- A dotted path and its span. -/
def path (tokens : List Token) : Except SourceError (Parsed (String × Span)) := do
  let (names, rest) ← separated .dot identifier tokens.length tokens
  let first := (names.headD ("", endToken.span)).2
  let last := (names.getLastD ("", endToken.span)).2
  return ((".".intercalate (names.map Prod.fst), first.upTo last), rest)

/-- Skips a semicolon if one follows. -/
def skipSemicolon (tokens : List Token) : List Token :=
  (accept? .semicolon tokens).getD tokens

/-- The names of an import in brackets and the closing bracket, if an opening one follows. -/
def importNames (tokens : List Token) : Except SourceError (Parsed (Option (List String × Span))) :=
  match accept? .openBracket tokens with
  | none => .ok (none, tokens)
  | some rest => do
    let (names, rest) ← separated .comma identifier rest.length rest
    let (close, rest) ← expect .closeBracket rest
    return (some (names.map Prod.fst, close), rest)

/-- The alias of an import, if it has one. -/
def importAlias (tokens : List Token) : Except SourceError (Parsed (Option (String × Span))) :=
  match accept? .asWord tokens with
  | none => .ok (none, tokens)
  | some rest => do
    let (shortName, rest) ← identifier rest
    return (some shortName, rest)

def importLine (tokens : List Token) : Except SourceError (Parsed ImportLine) := do
  let (start, rest) ← expect .importWord tokens
  let ((path, last), rest) ← path rest
  let (names, rest) ← importNames rest
  let (shortName, rest) ← importAlias rest
  let last := (shortName.map Prod.snd).getD ((names.map Prod.snd).getD last)
  return (⟨path, (names.map Prod.fst).getD [], shortName.map Prod.fst, start.upTo last⟩,
    skipSemicolon rest)

def literal? : Kind → Option Literal
  | .text value => some (.string value)
  | .character value => some (.char value)
  | .integer value => some (.int value)
  | .decimal value => some (.decimal value)
  | .trueWord => some (.bool true)
  | .falseWord => some (.bool false)
  | _ => none

/-- An expression; `fuel` bounds how deep calls nest. -/
def expr : Nat → List Token → Except SourceError (Parsed Expr)
  | fuel, tokens =>
    match tokens with
    | ⟨.identifier name, span⟩ :: rest =>
      match accept? .openParen rest, fuel with
      | some rest, fuel + 1 => do
        let ((arguments, close), rest) ← enclosed (expr fuel) .closeParen rest
        return (.call name arguments (span.upTo close), rest)
      | _, _ => .ok (.name name span, rest)
    | ⟨.nullWord, span⟩ :: rest => .ok (.null span, rest)
    | token :: rest =>
      match literal? token.kind with
      | some value => .ok (.literal value token.span, rest)
      | none => unexpected .expression tokens
    | [] => unexpected .expression tokens

def statement (tokens : List Token) : Except SourceError (Parsed Expr) := do
  let (value, rest) ← expr tokens.length tokens
  return (value, skipSemicolon rest)

def typeName (tokens : List Token) : Except SourceError (Parsed TypeName) := do
  match tokens with
  | ⟨.quotedType name, span⟩ :: rest => return (⟨name, span⟩, rest)
  | _ =>
    let ((name, span), rest) ← path tokens
    return (⟨name, span⟩, rest)

/-- The type of a parameter, if it is written. -/
def paramType (tokens : List Token) : Except SourceError (Parsed (Option TypeName)) :=
  match accept? .colon tokens with
  | none => .ok (none, tokens)
  | some rest => do
    let (type, rest) ← typeName rest
    return (some type, rest)

/-- The default of a parameter, if it has one. -/
def paramDefault (tokens : List Token) : Except SourceError (Parsed (Option Expr)) :=
  match accept? .equals tokens with
  | none => .ok (none, tokens)
  | some rest => do
    let (value, rest) ← expr rest.length rest
    return (some value, rest)

def param (tokens : List Token) : Except SourceError (Parsed Param) := do
  let ((name, start), rest) ← identifier tokens
  let (type, rest) ← paramType rest
  let (default, rest) ← paramDefault rest
  let last := (default.map Expr.span).getD ((type.map TypeName.span).getD start)
  return (⟨name, type, default, start.upTo last⟩, rest)

/-- Statements up to a closing brace or the end of input. -/
def statements : Nat → List Token → Except SourceError (Parsed (List Expr))
  | fuel, tokens =>
    match (peek tokens).kind, fuel with
    | .closeBrace, _ | .endOfInput, _ | _, 0 => .ok ([], tokens)
    | _, fuel + 1 => do
      let (first, rest) ← statement tokens
      let (more, rest) ← statements fuel rest
      return (first :: more, rest)

def function (tokens : List Token) : Except SourceError (Parsed Function) := do
  let (start, rest) ← expect .fnWord tokens
  let ((name, _), rest) ← identifier rest
  let (_, rest) ← expect .openParen rest
  let ((parameters, _), rest) ← enclosed param .closeParen rest
  let (_, rest) ← expect .openBrace rest
  let (body, rest) ← statements rest.length rest
  let (close, rest) ← expect .closeBrace rest
  return (⟨name, parameters, body, start.upTo close⟩, rest)

/-- The imports a unit starts with. -/
def importLines : Nat → List Token → Except SourceError (Parsed (List ImportLine))
  | fuel, tokens =>
    match (peek tokens).kind, fuel with
    | .importWord, fuel + 1 => do
      let (first, rest) ← importLine tokens
      let (more, rest) ← importLines fuel rest
      return (first :: more, rest)
    | _, _ => .ok ([], tokens)

/-- Functions and statements up to the end of input; imports come too late here. -/
def items : Nat → List Token → Except SourceError (List Item)
  | fuel, tokens =>
    match (peek tokens).kind, fuel with
    | .endOfInput, _ | _, 0 => .ok []
    | .importWord, _ => unexpected .item tokens
    | .fnWord, fuel + 1 => do
      let (first, rest) ← function tokens
      return .function first :: (← items fuel rest)
    | _, fuel + 1 => do
      let (first, rest) ← statement tokens
      return .statement first :: (← items fuel rest)

def unit (tokens : List Token) : Except SourceError UnitTree := do
  let (imports, rest) ← importLines tokens.length tokens
  return ⟨imports, ← items rest.length rest⟩

end UnitCompiler.Tree

namespace UnitCompiler

/-- The tree of a source text. -/
def UnitTree.parse (source : String) : Except SourceError UnitTree := do
  Tree.unit (← Token.tokenize source)

end UnitCompiler
