import UnitCompiler.Json

/-!
# Compact JSON text

Values are written without blanks, fields in their given order. In strings only quotes, backslashes
and control characters are escaped.
-/

namespace UnitCompiler.Json

def lowerHex (n : Nat) : Char :=
  if n < 10 then Char.ofNat ('0'.toNat + n) else Char.ofNat ('a'.toNat + (n - 10))

/-- One character inside a string. -/
def escaped (c : Char) : List Char :=
  if c = '\"' then ['\\', '\"']
  else if c = '\\' then ['\\', '\\']
  else if c = '\x08' then ['\\', 'b']
  else if c = '\t' then ['\\', 't']
  else if c = '\n' then ['\\', 'n']
  else if c = '\x0c' then ['\\', 'f']
  else if c = '\r' then ['\\', 'r']
  else if c.toNat < 0x20 then
    ['\\', 'u', '0', '0', lowerHex (c.toNat / 16), lowerHex (c.toNat % 16)]
  else [c]

def quoted (text : List Char) : List Char :=
  '\"' :: text.flatMap escaped ++ ['\"']

def digitChars (digits : List Nat) : List Char :=
  digits.map fun digit => Char.ofNat ('0'.toNat + digit)

def ExponentSign.chars : ExponentSign → List Char
  | .unsigned => []
  | .plus => ['+']
  | .minus => ['-']

def Number.chars (n : Number) : List Char :=
  (if n.negative then ['-'] else []) ++ digitChars n.whole ++
    (if n.fraction.isEmpty then [] else '.' :: digitChars n.fraction) ++
    match n.exponent with
    | none => []
    | some e => 'e' :: e.sign.chars ++ digitChars e.digits

/-- A string that spells no text is written as an empty one; no value of the compiler holds one. -/
def Text.chars (text : Text) : List Char :=
  quoted (text.getD "").toList

mutual

/-- The text of a value in front of what follows it. -/
def onto : Json → List Char → List Char
  | .null, rest => 'n' :: 'u' :: 'l' :: 'l' :: rest
  | .bool true, rest => 't' :: 'r' :: 'u' :: 'e' :: rest
  | .bool false, rest => 'f' :: 'a' :: 'l' :: 's' :: 'e' :: rest
  | .number value, rest => value.chars ++ rest
  | .text value, rest => Text.chars value ++ rest
  | .array items, rest => '[' :: itemsOnto items (']' :: rest)
  | .object fields, rest => '\x7b' :: fieldsOnto fields ('\x7d' :: rest)

def itemsOnto : List Json → List Char → List Char
  | [], rest => rest
  | [item], rest => item.onto rest
  | item :: next :: items, rest => item.onto (',' :: itemsOnto (next :: items) rest)

def fieldsOnto : List (Text × Json) → List Char → List Char
  | [], rest => rest
  | [(key, value)], rest => Text.chars key ++ ':' :: value.onto rest
  | (key, value) :: next :: fields, rest =>
    Text.chars key ++ ':' :: value.onto (',' :: fieldsOnto (next :: fields) rest)

end

def chars (json : Json) : List Char :=
  json.onto []

def render (json : Json) : String :=
  String.ofList json.chars

/-- The UTF-8 bytes of a text. -/
def utf8 (text : List Char) : List UInt8 :=
  text.flatMap String.utf8EncodeChar

def bytes (json : Json) : List UInt8 :=
  utf8 json.chars

end UnitCompiler.Json
