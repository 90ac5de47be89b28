import UnitCompiler.Import
import UnitCompiler.Instruction
import UnitCompiler.Span

/-!
# Parsed units

A unit is a list of imports followed by functions and statements. Every node keeps the span from
its first to its last token.
-/

namespace UnitCompiler

inductive Expr where
  | literal (value : Literal) (span : Span)
  | null (span : Span)
  | name (name : String) (span : Span)
  | call (function : String) (arguments : List Expr) (span : Span)
  deriving Repr

def Expr.span : Expr → Span
  | .literal _ span => span
  | .null span => span
  | .name _ span => span
  | .call _ _ span => span

structure TypeName where
  name : String
  span : Span
  deriving DecidableEq, Repr

structure Param where
  name : String
  type : Option TypeName
  default : Option Expr
  span : Span
  deriving Repr

structure Function where
  name : String
  parameters : List Param
  body : List Expr
  span : Span
  deriving Repr

structure ImportLine where
  path : String
  names : List String
  shortName : Option String
  span : Span
  deriving DecidableEq, Repr

inductive Item where
  | function (function : Function)
  | statement (expr : Expr)
  deriving Repr

structure UnitTree where
  imports : List ImportLine
  items : List Item
  deriving Repr

/-- Names in brackets come from a namespace; any other import brings in a unit. -/
def ImportLine.toImport (line : ImportLine) : Import :=
  ⟨line.path, line.names, line.shortName, if line.names.isEmpty then .unit else .namespaceNames⟩

namespace UnitTree

def importTable (tree : UnitTree) : List Import :=
  tree.imports.map ImportLine.toImport

def functions (tree : UnitTree) : List Function :=
  tree.items.filterMap fun
    | .function function => some function
    | .statement _ => none

/-- The statements outside functions. -/
def statements (tree : UnitTree) : List Expr :=
  tree.items.filterMap fun
    | .function _ => none
    | .statement expr => some expr

end UnitTree

end UnitCompiler
