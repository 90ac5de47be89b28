import Mathlib.Data.List.TakeWhile
import UnitCompiler.Proofs.DerivationPlacement

/-! Identifiers are made of the characters of words, so they hold no dollar sign and no dot: the names in the
tree of a source text are names in a derivation, which yields them as words. -/

namespace UnitCompiler

/-- A name that an instance of an intrinsic may not use. -/
def Unmarked (name : String) : Prop := '$' ∉ name.toList

namespace Token

open Text

/-! ## Lexemes -/

inductive Lexes (c : Char) (rest : List Char) : Lexeme → Prop where
  | mark (kind : Kind) (mark : Kind.ofMark c = some kind) : Lexes c rest ⟨kind, 1, rest⟩
  | string (value : List Char) (width : Nat) (behind : List Char) (quote : c = '\"')
      (read : readString rest = .ok (value, width, behind)) :
      Lexes c rest ⟨.text (String.ofList value), width + 1, behind⟩
  | character (value : Char) (width : Nat) (behind : List Char) (quote : c = '\'')
      (read : readCharacter rest = .ok (value, width, behind)) :
      Lexes c rest ⟨.character value, width + 1, behind⟩
  | quotedType (name : List Char) (width : Nat) (behind : List Char) (quote : c = backtick)
      (read : readQuotedType rest = .ok (name, width, behind)) :
      Lexes c rest ⟨.quotedType (String.ofList (strip name)), width + 1, behind⟩
  | integer (whole : List Char) (digit : isDigit c = true)
      (run : whole = (c :: rest).takeWhile isDigitOrGap)
      (small : Binary64.digitsValue (digitValues whole) < 0x8000000000000000) :
      Lexes c rest ⟨.integer (Int64.ofNat (Binary64.digitsValue (digitValues whole))), whole.length,
        (c :: rest).dropWhile isDigitOrGap⟩
  | decimal (whole fraction : List Char) (d : Char) (more : List Char) (digit : isDigit c = true)
      (run : whole = (c :: rest).takeWhile isDigitOrGap)
      (point : (c :: rest).dropWhile isDigitOrGap = '.' :: d :: more) (follows : isDigit d = true)
      (behind : fraction = (d :: more).takeWhile isDigitOrGap) :
      Lexes c rest ⟨.decimal (.ofDigits (digitValues whole) (digitValues fraction)),
        whole.length + 1 + fraction.length, (d :: more).dropWhile isDigitOrGap⟩
  | word (start : isWordStart c = true) : Lexes c rest (readWord c rest)

theorem readNumber_lexes {c : Char} {rest : List Char} {lexeme : Lexeme} (digit : isDigit c = true)
    (read : readNumber (c :: rest) = .ok lexeme) : Lexes c rest lexeme := by
  have integer (read : readNumber.integer ((c :: rest).takeWhile isDigitOrGap)
      ((c :: rest).dropWhile isDigitOrGap) = .ok lexeme) : Lexes c rest lexeme := by
    rw [readNumber.integer] at read
    split at read
    · next small =>
      cases read
      exact .integer _ digit rfl small
    · contradiction
  unfold readNumber at read
  dsimp only at read
  split at read
  · next d more point =>
    split at read
    · next follows =>
      cases read
      exact .decimal _ _ d more digit rfl point follows rfl
    · exact integer read
  · exact integer read

theorem readLexeme_lexes {c : Char} {rest : List Char} {lexeme : Lexeme}
    (read : readLexeme c rest = .ok lexeme) : Lexes c rest lexeme := by
  unfold readLexeme at read
  split at read
  · next kind mark =>
    cases read
    exact .mark kind mark
  split at read
  · next quote =>
    obtain ⟨⟨value, width, behind⟩, own, returned⟩ := bind_eq_ok read
    cases returned
    exact .string value width behind quote own
  split at read
  · next quote =>
    obtain ⟨⟨value, width, behind⟩, own, returned⟩ := bind_eq_ok read
    cases returned
    exact .character value width behind quote own
  split at read
  · next quote =>
    obtain ⟨⟨name, width, behind⟩, own, returned⟩ := bind_eq_ok read
    cases returned
    exact .quotedType name width behind quote own
  split at read
  · next digit => exact readNumber_lexes digit read
  split at read
  · next start =>
    cases read
    exact .word start
  · contradiction

/-! ## Words -/

theorem isWordPart_of_isWordStart {c : Char} (start : isWordStart c = true) : isWordPart c = true := by
  simp only [isWordStart, Bool.or_eq_true] at start
  simp only [isWordPart, Bool.or_eq_true]
  rcases start with letter | underscore
  · exact .inl (.inl letter)
  · exact .inr underscore

def Kind.Worded (kind : Kind) : Prop :=
  ∀ name, kind = .identifier name → ∀ c ∈ name.toList, isWordPart c = true

def Kind.Clean (kind : Kind) : Prop := ∀ name, kind = .identifier name → Unmarked name

theorem Kind.Worded.clean {kind : Kind} (worded : kind.Worded) : kind.Clean := by
  intro name same inside
  have part := worded name same '$' inside
  contradiction

theorem Kind.ofMark_worded {c : Char} {kind : Kind} (mark : Kind.ofMark c = some kind) :
    kind.Worded := by
  unfold ofMark at mark
  split at mark <;> cases mark <;> exact fun name same => by contradiction

theorem Kind.ofWord_worded {word : String} (parts : ∀ c ∈ word.toList, isWordPart c = true) :
    (Kind.ofWord word).Worded := by
  intro name same
  unfold ofWord at same
  split at same
  · contradiction
  split at same
  · contradiction
  split at same
  · contradiction
  split at same
  · contradiction
  split at same
  · contradiction
  split at same
  · contradiction
  cases same
  exact parts

theorem readWord_worded {first : Char} (start : isWordStart first = true) (text : List Char) :
    (readWord first text).kind.Worded := by
  apply Kind.ofWord_worded
  rw [String.toList_ofList, List.forall_mem_cons]
  exact ⟨isWordPart_of_isWordStart start, fun c inside => List.mem_takeWhile_imp inside⟩

theorem readLexeme_worded {c : Char} {rest : List Char} {lexeme : Lexeme}
    (read : readLexeme c rest = .ok lexeme) : lexeme.kind.Worded := by
  cases readLexeme_lexes read with
  | mark kind mark => exact Kind.ofMark_worded mark
  | string | character | quotedType | integer | decimal => exact fun name same => by contradiction
  | word start => exact readWord_worded start rest

theorem tokensFrom_worded {fuel : Nat} {place : Position} {text : List Char} {tokens : List Token}
    (lexed : tokensFrom fuel place text = .ok tokens) : ∀ token ∈ tokens, token.kind.Worded := by
  induction fuel generalizing place text tokens with
  | zero =>
    unfold tokensFrom at lexed
    split at lexed
    · cases lexed
      intro token last
      cases List.mem_singleton.mp last
      exact fun name same => by contradiction
    · split at lexed
      · contradiction
      · cases lexed
        exact fun token member => by contradiction
  | succ fuel ih =>
    unfold tokensFrom at lexed
    split at lexed
    · cases lexed
      intro token last
      cases List.mem_singleton.mp last
      exact fun name same => by contradiction
    · split at lexed
      · contradiction
      · next lexeme read =>
        obtain ⟨others, more, returned⟩ := bind_eq_ok lexed
        cases returned
        intro token member
        rcases List.mem_cons.mp member with rfl | later
        · exact readLexeme_worded read
        · exact ih more token later

end Token

/-! ## Names in a tree -/

def Tree.Written (f : Function) : Prop := ∀ p ∈ f.parameters, Unmarked p.name

namespace Derivation

open Token (Kind)

theorem mem_separatedBy {separator kind : Kind} {part : List Kind} {parts : List (List Kind)}
    (among : part ∈ parts) (member : kind ∈ part) : kind ∈ separatedBy separator parts := by
  induction parts using separatedBy.induct with
  | case1 => contradiction
  | case2 last =>
    cases List.mem_singleton.mp among
    exact member
  | case3 first second rest ih =>
    rw [separatedBy, List.mem_append, List.mem_cons]
    rcases List.mem_cons.mp among with rfl | later
    · exact .inl member
    · exact .inr (.inr (ih later))

/-- The name of a parameter is a word of its function. -/
theorem Function.mem_yield {function : Function} {param : Param} (given : param ∈ function.parameters) :
    .identifier param.name ∈ function.yield := by
  have row : .identifier param.name ∈ separatedBy .comma (function.parameters.map Param.yield) :=
    mem_separatedBy (List.mem_map_of_mem given) List.mem_cons_self
  simp [Function.yield, row]

theorem Function.place_written {function : Function} {own : List Token}
    (clean : ∀ kind ∈ function.yield, kind.Clean) : Tree.Written (function.place own) := by
  intro p member
  obtain ⟨q, inside, rfl⟩ := List.mem_map.mp member
  exact clean _ (Function.mem_yield (mem_of_cut inside)) _ rfl

end Derivation

/-- A tree is a derivation that yields the words of its source text. -/
theorem UnitTree.parse_worded {source : String} {tree : UnitTree}
    (parsed : UnitTree.parse source = .ok tree) :
    ∃ (d : Derivation.Unit) (own : List Token), tree = d.place own ∧ ∀ kind ∈ d.yield, kind.Worded := by
  obtain ⟨tokens, lexed, read⟩ := bind_eq_ok parsed
  obtain ⟨d, taken, front, yields, rfl⟩ := Tree.unit_traces read
  refine ⟨d, taken, rfl, fun kind member => ?_⟩
  rw [← yields] at member
  obtain ⟨token, inside, rfl⟩ := List.mem_map.mp member
  exact Token.tokensFrom_worded lexed token (front.subset inside)

/-- The parameters in a source text have the names of identifiers. -/
theorem UnitTree.parse_written {source : String} {tree : UnitTree}
    (parsed : UnitTree.parse source = .ok tree) : ∀ f ∈ tree.functions, Tree.Written f := by
  obtain ⟨d, own, rfl, worded⟩ := parse_worded parsed
  intro f member
  obtain ⟨item, inside, same⟩ := List.mem_filterMap.mp member
  obtain ⟨⟨item, own⟩, given, rfl⟩ := List.mem_map.mp inside
  cases item with
  | statement => contradiction
  | function function =>
    cases same
    refine Derivation.Function.place_written fun kind inYield => (worded kind ?_).clean
    exact List.mem_append_right _ (List.mem_flatMap.mpr ⟨_, Derivation.mem_of_cut given, inYield⟩)

/-- So has an alias. -/
theorem UnitTree.parse_alias {source : String} {tree : UnitTree} (parsed : UnitTree.parse source = .ok tree)
    {line : ImportLine} (member : line ∈ tree.imports) {name : String}
    (aliased : line.shortName = some name) :
    ∀ c ∈ name.toList, Token.isWordPart c = true := by
  obtain ⟨d, own, rfl, worded⟩ := parse_worded parsed
  obtain ⟨⟨line, own⟩, given, rfl⟩ := List.mem_map.mp member
  have named : line.shortName = some name := aliased
  have inside : .identifier name ∈ line.yield := by
    simp [Derivation.ImportLine.yield, named, Derivation.ImportLine.aliased]
  refine worded _ ?_ name rfl
  exact List.mem_append_left _ (List.mem_flatMap.mpr ⟨_, Derivation.mem_of_cut given, inside⟩)

end UnitCompiler
