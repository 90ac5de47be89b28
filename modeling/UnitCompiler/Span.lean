/-!
# Places in a source text

Lines count from one and offsets from zero, in characters. A line is a word of 32 bits: behind the
last one that fits, the count starts again at zero. A span's last offset is its last character, not
the one behind it.
-/

namespace UnitCompiler

structure Position where
  line : UInt32
  offset : Nat
  deriving DecidableEq, Repr

namespace Position

def start : Position := ⟨1, 0⟩

/-- The place behind a character. -/
def step (p : Position) (c : Char) : Position :=
  ⟨if c = '\n' then p.line + 1 else p.line, p.offset + 1⟩

/-- The place behind a text. -/
def advance (p : Position) (text : List Char) : Position :=
  text.foldl step p

/-- The place behind a given number of characters of the same line. -/
def along (p : Position) (width : Nat) : Position :=
  ⟨p.line, p.offset + width⟩

end Position

structure Span where
  startLine : UInt32
  stopLine : UInt32
  start : Nat
  stop : Nat
  deriving DecidableEq, Repr

namespace Span

/-- From the start of one span to the end of another. -/
def upTo (a b : Span) : Span :=
  ⟨a.startLine, b.stopLine, a.start, b.stop⟩

def isSingleLine (s : Span) : Bool :=
  s.startLine = s.stopLine

def describe (s : Span) : String :=
  if s.isSingleLine then s!"{s.startLine} {s.start}:{s.stop}"
  else s!"{s.startLine}:{s.stopLine} {s.start}::{s.stop}"

/-- The span of a text of at least one character that stands on one line. -/
def along (p : Position) (width : Nat) : Span :=
  ⟨p.line, p.line, p.offset, p.offset + width - 1⟩

/-- The empty span at the end of a text. -/
def atEnd (p : Position) : Span :=
  ⟨p.line, p.line, p.offset, p.offset⟩

end Span

end UnitCompiler
