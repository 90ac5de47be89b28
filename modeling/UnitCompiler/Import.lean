import UnitCompiler.Text.Dotted

/-!
# Imports

An import brings in names of a namespace, one unit, or a package under an alias. The qualified names
a type name may stand for follow the order of the imports.
-/

namespace UnitCompiler

inductive ImportKind where
  | namespaceNames
  | unit
  | package
  deriving DecidableEq, Repr

structure Import where
  path : String
  names : List String
  /-- The name an import goes by instead of its own. -/
  shortName : Option String
  kind : ImportKind
  deriving DecidableEq, Repr

namespace Import

/-- The name an imported unit goes by. -/
def visibleName (i : Import) : String :=
  i.shortName.getD (Text.lastSegment i.path)

/-- The qualified name an import gives a simple name. -/
def provides (i : Import) (name : String) : Option String :=
  match i.kind with
  | .namespaceNames => if i.names.contains name then some (i.path ++ "." ++ name) else none
  | .unit => if i.visibleName = name then some i.path else none
  | .package => none

/-- Whether the import is a unit or package under the given alias. -/
def isAliased (i : Import) (shortName : String) : Bool :=
  i.kind != .namespaceNames && i.shortName == some shortName

/-- The qualified names a name may stand for. A dotted name stands for itself, or for the path
behind its first segment when that is an alias. -/
def candidates (imports : List Import) (name : String) : List String :=
  match Text.splitFirst '.' name.toList with
  | some (head, rest) =>
    match imports.find? (·.isAliased (String.ofList head)) with
    | some i => [i.path ++ "." ++ String.ofList rest]
    | none => [name]
  | none => imports.filterMap (·.provides name)

/-- The qualified names a type name may stand for inside a package: what the imports offer, then for
a simple name the package's own. -/
def typeCandidates (imports : List Import) (package name : String) : List String :=
  let imported := candidates imports name
  let own := Text.qualify package name
  if Text.isDotted name || imported.contains own then imported else imported ++ [own]

end Import

end UnitCompiler
