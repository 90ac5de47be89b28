/-!
# Dotted names

Qualified names are segments joined by dots. Splitting always gives at least one segment, so the
empty name has one empty segment.
-/

namespace UnitCompiler.Text

/-- The pieces of a text between the occurrences of a separator. -/
def pieces (separator : Char) : List Char → List (List Char)
  | [] => [[]]
  | c :: rest =>
    if c = separator then [] :: pieces separator rest
    else
      match pieces separator rest with
      | [] => [[c]]
      | piece :: more => (c :: piece) :: more

/-- The text before the first separator and the text after it. -/
def splitFirst (separator : Char) (text : List Char) : Option (List Char × List Char) :=
  match text.dropWhile (· != separator) with
  | [] => none
  | _ :: rest => some (text.takeWhile (· != separator), rest)

def segments (name : String) : List String :=
  (pieces '.' name.toList).map String.ofList

def isDotted (name : String) : Bool :=
  name.toList.contains '.'

def lastSegment (name : String) : String :=
  (segments name).getLastD name

/-- A name inside a package; the empty package adds nothing. -/
def qualify (package name : String) : String :=
  if package.isEmpty then name else package ++ "." ++ name

end UnitCompiler.Text
