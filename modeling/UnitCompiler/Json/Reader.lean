import UnitCompiler.Json

/-!
# Reading JSON

The reader works on bytes and gives back what is left after a value. Blanks may stand before every
value, field name and punctuation mark. A string that spells no text is still a string, so that a
value nobody asks for can be skipped whatever its strings hold.
-/

namespace UnitCompiler.Json

abbrev Bytes := List UInt8

def code (c : Char) : UInt8 :=
  UInt8.ofNat c.toNat

def isBlank (b : UInt8) : Bool :=
  b == 0x20 || b == 0x09 || b == 0x0a || b == 0x0d

def skipBlank (bytes : Bytes) : Bytes :=
  bytes.dropWhile isBlank

def isDigit (b : UInt8) : Bool :=
  code '0' ≤ b && b ≤ code '9'

/-- The leading digits and the rest. -/
def takeDigits (bytes : Bytes) : List Nat × Bytes :=
  ((bytes.takeWhile isDigit).map fun b => b.toNat - 48, bytes.dropWhile isDigit)

def hexValue (b : UInt8) : Option Nat :=
  if isDigit b then some (b.toNat - 48)
  else if code 'a' ≤ b && b ≤ code 'f' then some (b.toNat - 87)
  else if code 'A' ≤ b && b ≤ code 'F' then some (b.toNat - 55)
  else none

/-! ## Strings -/

/-- A part of a string: a byte as it stands, or the sixteen-bit unit an escape gives. -/
inductive Piece where
  | byte (value : UInt8)
  | unit (value : Nat)
  deriving DecidableEq, Repr

def simpleEscape (b : UInt8) : Option Nat :=
  if b == code '\"' || b == code '\\' || b == code '/' then some b.toNat
  else if b == code 'b' then some 0x08
  else if b == code 'f' then some 0x0c
  else if b == code 'n' then some 0x0a
  else if b == code 'r' then some 0x0d
  else if b == code 't' then some 0x09
  else none

/-- The pieces up to the closing quote and the bytes after it. -/
def readPieces : Bytes → Option (List Piece × Bytes)
  | [] => none
  | b :: rest =>
    if b == code '\"' then some ([], rest)
    else if b == code '\\' then
      match rest with
      | [] => none
      | e :: rest =>
        if e == code 'u' then
          match rest with
          | h₁ :: h₂ :: h₃ :: h₄ :: rest => do
            let unit := ((← hexValue h₁) * 16 + (← hexValue h₂)) * 256 +
              ((← hexValue h₃) * 16 + (← hexValue h₄))
            let (pieces, rest) ← readPieces rest
            return (.unit unit :: pieces, rest)
          | _ => none
        else do
          let unit ← simpleEscape e
          let (pieces, rest) ← readPieces rest
          return (.unit unit :: pieces, rest)
    else if b < 0x20 then none
    else do
      let (pieces, rest) ← readPieces rest
      return (.byte b :: pieces, rest)

def isLeading (unit : Nat) : Bool := 0xd800 ≤ unit && unit < 0xdc00

def isTrailing (unit : Nat) : Bool := 0xdc00 ≤ unit && unit < 0xe000

/-- The bytes of a string. Surrogate units count only as a leading one right before a trailing
one. -/
def pieceBytes : List Piece → Option Bytes
  | [] => some []
  | .byte b :: rest => (pieceBytes rest).map (b :: ·)
  | .unit u :: rest =>
    if isLeading u then
      match rest with
      | .unit v :: rest =>
        if isTrailing v then
          let c := Char.ofNat (0x10000 + (u - 0xd800) * 0x400 + (v - 0xdc00))
          (pieceBytes rest).map (String.utf8EncodeChar c ++ ·)
        else none
      | _ => none
    else if isTrailing u then none
    else (pieceBytes rest).map (String.utf8EncodeChar (Char.ofNat u) ++ ·)

/-- The text spelled by UTF-8 bytes. -/
def decodeUtf8 (bytes : Bytes) : Text :=
  (ByteArray.mk bytes.toArray).utf8Decode?.map fun chars => String.ofList chars.toList

/-- A string after its opening quote. -/
def readString (bytes : Bytes) : Option (Text × Bytes) :=
  (readPieces bytes).map fun (pieces, rest) => ((pieceBytes pieces).bind decodeUtf8, rest)

/-! ## Numbers -/

def readExponent (bytes : Bytes) : Option (Option Exponent × Bytes) :=
  match bytes with
  | e :: rest =>
    if e == code 'e' || e == code 'E' then
      let (sign, rest) : ExponentSign × Bytes :=
        match rest with
        | s :: more =>
          if s == code '+' then (.plus, more)
          else if s == code '-' then (.minus, more)
          else (.unsigned, rest)
        | [] => (.unsigned, rest)
      let (digits, rest) := takeDigits rest
      if digits.isEmpty then none else some (some ⟨sign, digits⟩, rest)
    else some (none, bytes)
  | [] => some (none, [])

def readFraction (bytes : Bytes) : Option (List Nat × Bytes) :=
  match bytes with
  | p :: rest =>
    if p == code '.' then
      let (digits, rest) := takeDigits rest
      if digits.isEmpty then none else some (digits, rest)
    else some ([], bytes)
  | [] => some ([], [])

/-- A number; a leading zero stands alone before the point. -/
def readNumber (bytes : Bytes) : Option (Number × Bytes) := do
  let (negative, rest) : Bool × Bytes :=
    match bytes with
    | s :: rest => if s == code '-' then (true, rest) else (false, bytes)
    | [] => (false, bytes)
  let (whole, rest) := takeDigits rest
  if whole.isEmpty || (whole.head? == some 0 && whole.length != 1) then none
  else
    let (fraction, rest) ← readFraction rest
    let (exponent, rest) ← readExponent rest
    return ({ negative, whole, fraction, exponent }, rest)

/-! ## Values -/

/-- Items between commas up to the closing mark, at least one. -/
def readItems {α : Type} (item : Bytes → Option (α × Bytes)) (close : UInt8) :
    Nat → Bytes → Option (List α × Bytes)
  | 0, _ => none
  | fuel + 1, bytes => do
    let (first, rest) ← item bytes
    match skipBlank rest with
    | mark :: rest =>
      if mark == code ',' then
        let (items, rest) ← readItems item close fuel rest
        return (first :: items, rest)
      else if mark == close then return ([first], rest)
      else none
    | [] => none

/-- The content of an array or object after its opening mark. -/
def readSequence {α : Type} (item : Bytes → Option (α × Bytes)) (close : UInt8) (fuel : Nat)
    (bytes : Bytes) : Option (List α × Bytes) :=
  match skipBlank bytes with
  | mark :: rest => if mark == close then some ([], rest) else readItems item close fuel bytes
  | [] => none

/-- A field name, its colon and its value. -/
def readField {α : Type} (value : Bytes → Option (α × Bytes)) (bytes : Bytes) :
    Option ((Text × α) × Bytes) :=
  match skipBlank bytes with
  | [] => none
  | q :: rest =>
    if q == code '\"' then do
      let (key, rest) ← readString rest
      match skipBlank rest with
      | mark :: rest =>
        if mark == code ':' then
          let (content, rest) ← value rest
          return ((key, content), rest)
        else none
      | [] => none
    else none

def literalNull : Bytes := [0x6e, 0x75, 0x6c, 0x6c]

def literalTrue : Bytes := [0x74, 0x72, 0x75, 0x65]

def literalFalse : Bytes := [0x66, 0x61, 0x6c, 0x73, 0x65]

/-- What is left after a given start. -/
def after? (start bytes : Bytes) : Option Bytes :=
  if bytes.take start.length = start then some (bytes.drop start.length) else none

/-- A value; `fuel` bounds the nesting and the number of items. -/
def readValue : Nat → Bytes → Option (Json × Bytes)
  | 0, _ => none
  | fuel + 1, bytes =>
    match skipBlank bytes with
    | [] => none
    | b :: rest =>
      if b == code '\"' then (readString rest).map fun (content, rest) => (.text content, rest)
      else if b == code '[' then
        (readSequence (readValue fuel) (code ']') fuel rest).map fun (items, rest) =>
          (.array items, rest)
      else if b == code '\x7b' then
        (readSequence (readField (readValue fuel)) (code '\x7d') fuel rest).map
          fun (fields, rest) => (.object fields, rest)
      else if b == code 'n' then (after? literalNull (b :: rest)).map fun rest => (.null, rest)
      else if b == code 't' then (after? literalTrue (b :: rest)).map fun rest => (.bool true, rest)
      else if b == code 'f' then
        (after? literalFalse (b :: rest)).map fun rest => (.bool false, rest)
      else (readNumber (b :: rest)).map fun (digits, rest) => (.number digits, rest)

/-- A whole text: one value with nothing but blanks around it. -/
def parse (bytes : Bytes) : Option Json :=
  match readValue (bytes.length + 1) bytes with
  | some (json, rest) => if (skipBlank rest).isEmpty then some json else none
  | none => none

end UnitCompiler.Json
