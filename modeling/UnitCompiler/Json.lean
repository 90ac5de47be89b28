/-!
# JSON values

Strings and numbers are kept as far as a reader of declarations needs them: a string may fail to
spell a text, and a number keeps its digits so that integers and decimals are told apart.
-/

namespace UnitCompiler

namespace Json

/-- The content of a string. `none` stands for escapes or bytes that spell no text: such a string
may be skipped but not read. -/
abbrev Text := Option String

inductive ExponentSign where
  | unsigned
  | plus
  | minus
  deriving DecidableEq, Repr

structure Exponent where
  sign : ExponentSign
  digits : List Nat
  deriving DecidableEq, Repr

/-- A number by its digits; without a point the fraction is empty. -/
structure Number where
  negative : Bool := false
  whole : List Nat
  fraction : List Nat := []
  exponent : Option Exponent := none
  deriving DecidableEq, Repr

end Json

inductive Json where
  | null
  | bool (value : Bool)
  | number (value : Json.Number)
  | text (value : Json.Text)
  | array (items : List Json)
  | object (fields : List (Json.Text × Json))
  deriving Inhabited, Repr

namespace Json

def ofString (value : String) : Json :=
  .text (some value)

/-- An object from fields whose names are texts. -/
def ofFields (fields : List (String × Json)) : Json :=
  .object (fields.map fun field => (some field.1, field.2))

mutual

/-- How many arrays and objects stand inside each other. -/
def depth : Json → Nat
  | .array items => depthItems items + 1
  | .object fields => depthFields fields + 1
  | _ => 0

def depthItems : List Json → Nat
  | [] => 0
  | item :: items => max item.depth (depthItems items)

def depthFields : List (Text × Json) → Nat
  | [] => 0
  | (_, value) :: fields => max value.depth (depthFields fields)

end

end Json

end UnitCompiler
