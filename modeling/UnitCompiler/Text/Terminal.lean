import UnitCompiler.Json.Printer

/-!
# Texts for a terminal

A line that is shown keeps its text, but the controls that a terminal would act on are spelled out.
-/

namespace UnitCompiler.Text

/-- Controls of seven bits that move the cursor, ring or start a sequence. -/
def isTerminalControl (c : Char) : Bool :=
  c = '\x07' || c = '\x08' || c = '\x0c' || c = '\x1b' || c = '\x7f'

def shownChar (c : Char) : List Char :=
  if isTerminalControl c then
    ['\\', 'x', Json.lowerHex (c.toNat / 16), Json.lowerHex (c.toNat % 16)]
  else if 0x80 ≤ c.toNat && c.toNat ≤ 0x9f then
    ['\\', 'u', '\x7b'] ++ Nat.toDigits 16 c.toNat ++ ['\x7d']
  else [c]

def shown (text : String) : String :=
  String.ofList (text.toList.flatMap shownChar)

end UnitCompiler.Text
