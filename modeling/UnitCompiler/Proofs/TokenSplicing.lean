import UnitCompiler.Proofs.TokenTiling

/-! Texts that are cut and joined. A fault is one of the text from its place on: what stands before it is
split by itself, and what stands from there on has the same fault at its start. The end of a line is as
good as the end of a text, so what stands behind whole lines is split as if it stood alone. -/

namespace UnitCompiler

def SourceError.shift (lines : UInt32) (offset : Nat) (error : SourceError) : SourceError :=
  ⟨error.fault, error.place.shift lines offset⟩

namespace Token

open Text

/-- Where a text stands has no say in how it is split. -/
theorem tokensAt_shift (lines : UInt32) (offset : Nat) (place : Position) (text : List Char) :
    tokensAt (place.shift lines offset) text =
      ((tokensAt place text).map (List.map (shift lines offset))).mapError (.shift lines offset) := by
  obtain ⟨pieces, tail, rfl, laid, closing | ⟨gap, fault, c, rest, rfl, faulty⟩⟩ := exists_laid text
  · rw [tokensAt_whole laid closing, tokensAt_whole laid closing, placed_shift laid, Position.advance_shift]
    simp [Except.map, Except.mapError, shift, Span.shift, Span.atEnd, Position.shift]
  · rw [tokensAt_faulty laid faulty, tokensAt_faulty laid faulty, Position.advance_shift]
    rfl

/-! ## Cuts at a fault -/

theorem laid_of_fault {place : Position} {text : List Char} {error : SourceError}
    (failed : tokensAt place text = .error error) :
    ∃ (pieces : List Piece) (gap : List Char) (c : Char) (rest : List Char),
      text = (layout pieces ++ gap) ++ c :: rest ∧ Laid pieces (gap ++ c :: rest) ∧
      Faulty gap error.fault c rest ∧ error.place = place.advance (layout pieces ++ gap) := by
  obtain ⟨pieces, tail, rfl, laid, closing | ⟨gap, fault, c, rest, rfl, faulty⟩⟩ := exists_laid text
  · rw [tokensAt_whole laid closing] at failed
    contradiction
  · rw [tokensAt_faulty laid faulty] at failed
    cases failed
    exact ⟨pieces, gap, c, rest, (List.append_assoc ..).symm, laid, faulty, rfl⟩

/-- A text up to its fault is split, and from there on it has the same fault at once. -/
theorem tokenize_cut {source : String} {error : SourceError} (failed : tokenize source = .error error) :
    ∃ (front : List Char) (c : Char) (rest : List Char), source.toList = front ++ c :: rest ∧
      error.place = ⟨.ofNat (1 + front.count '\n'), front.length⟩ ∧ isBlank c = false ∧
      (∃ tokens, tokensAt .start front = .ok tokens) ∧
      tokensAt .start (c :: rest) = .error ⟨error.fault, .start⟩ := by
  obtain ⟨pieces, gap, c, rest, whole, laid, faulty, place⟩ := laid_of_fault failed
  refine ⟨layout pieces ++ gap, c, rest, whole, ?_, faulty.solid.1, ?_, ?_⟩
  · rw [place, Position.advance_eq, Position.start, Nat.zero_add, UInt32.ofNat_add]
    rfl
  · exact ⟨_, tokensAt_whole (laid.shorten (List.prefix_append ..)) (.trivia faulty.trivia) _⟩
  · exact tokensAt_fault faulty.solid faulty.read _

/-! ## Joins at the end of a line -/

theorem Laid.line {pieces : List Piece} {rest : List Char} (laid : Laid pieces rest) (more : List Char) :
    Laid pieces (rest ++ '\n' :: more) :=
  laid.replace fun front => by
    rw [← List.append_assoc]
    exact .line (front ++ rest) more

/-- No token ends a line. -/
theorem Laid.tail_line {pieces : List Piece} {tail : List Char} (laid : Laid pieces tail)
    (ends : (layout pieces ++ tail).getLast? = some '\n') : tail.getLast? = some '\n' := by
  rw [List.getLast?_append, Option.or_eq_some_iff] at ends
  refine ends.resolve_right ?_
  rintro ⟨-, ends⟩
  rcases List.eq_nil_or_concat pieces with rfl | ⟨front, p, rfl⟩
  · contradiction
  · rw [List.concat_eq_append] at laid ends
    obtain ⟨-, -, forms, -⟩ := (laid_append front [p] tail).mp laid
    have own := List.getLast?_eq_some_getLast (List.ne_nil_of_length_pos forms.positive)
    simp only [layout_append, layout_cons, layout_nil, List.append_nil, Piece.text, List.getLast?_append, own,
      Option.some_or] at ends
    exact forms.local.1 (List.mem_of_getLast? (own.trans ends))

theorem Closing.trivia_of_line {tail : List Char} (closing : Closing tail)
    (ends : tail.getLast? = some '\n') : Trivia tail := by
  cases closing with
  | trivia trivia => exact trivia
  | @comment gap words trivia line =>
    rw [List.getLast?_append, Option.or_eq_some_iff] at ends
    rcases ends with last | ⟨empty, -⟩
    · have inside := List.mem_of_getLast? last
      simp [line] at inside
    · simp at empty

/-- Behind whole lines a text is split as if it stood alone. -/
theorem tokensAt_join {place : Position} {lines : List Char} {tokens : List Token}
    (lexed : tokensAt place lines = .ok tokens) (ends : lines.getLast? = some '\n') (text : List Char) :
    tokensAt place (lines ++ text) = (tokens.dropLast ++ ·) <$> tokensAt (place.advance lines) text := by
  obtain ⟨pieces, tail, rfl, laid, closing, rfl⟩ := laid_of_tokensAt lexed
  have line := laid.tail_line ends
  have trivia := closing.trivia_of_line line
  obtain ⟨gap, rfl⟩ := List.getLast?_eq_some_iff.mp line
  have joined : Laid pieces (gap ++ '\n' :: text) := (laid.shorten (List.prefix_append ..)).line text
  rw [List.append_cons] at joined
  rw [List.append_assoc, tokensAt_laid joined, tokensAt_trivia trivia, ← Position.advance_append,
    List.dropLast_concat]

/-- In a text of few enough lines the lines of a token move as numbers. -/
theorem toNat_shift {lines text : String} {own : List Token}
    (few : (lines ++ text).toList.count '\n' < UInt32.size - 1) (lexed : tokenize text = .ok own) {token : Token}
    (member : token ∈ own) (offset : Nat) :
    let moved := (token.shift (.ofNat (lines.toList.count '\n')) offset).span
    moved.startLine.toNat = lines.toList.count '\n' + token.span.startLine.toNat ∧
      moved.stopLine.toNat = lines.toList.count '\n' + token.span.stopLine.toNat := by
  rw [String.toList_append, List.count_append] at few
  obtain ⟨startLine, stopLine, -⟩ := tokenize_lines lexed token member
  have above : lineAt text token.span.start ≤ 1 + text.toList.count '\n' :=
    Nat.add_le_add_left ((List.take_sublist _ _).count_le _) 1
  have fewer : text.toList.count '\n' < UInt32.size - 1 := by omega
  have own := toNat_lineAt fewer token.span.start
  simp only [shift, Span.shift, startLine, stopLine, UInt32.toNat_add, own,
    UInt32.toNat_ofNat_of_lt' (show lines.toList.count '\n' < UInt32.size by omega)]
  rw [Nat.mod_eq_of_lt (show _ < UInt32.size by omega)]
  exact ⟨rfl, rfl⟩

/-- A fault cuts a text in two: what stands before it is split by itself, and what stands from there on
has the same fault at once. Behind whole lines that are split, a text is split as it is alone, with its
tokens, or its fault, further down. Lines are words, so they are the numbers of lines in texts that
have few enough of them. -/
theorem splits_at_faults_and_lines :
    (∀ (source : String) (error : SourceError), tokenize source = .error error →
      let front := slice source 0 error.place.offset
      (∃ tokens, tokenize front = .ok tokens) ∧
      error.place.line = .ofNat (1 + front.toList.count '\n') ∧
      (front.toList.count '\n' < UInt32.size - 1 → error.place.line.toNat = 1 + front.toList.count '\n') ∧
      (∃ c, source.toList[error.place.offset]? = some c ∧ isBlank c = false) ∧
      tokenize (slice source error.place.offset source.length) = .error ⟨error.fault, ⟨1, 0⟩⟩) ∧
    ∀ (lines text : String) (tokens : List Token), tokenize lines = .ok tokens →
      lines.toList.getLast? = some '\n' →
      let more := lines.toList.count '\n'
      ((∃ all, tokenize (lines ++ text) = .ok all) ↔ ∃ own, tokenize text = .ok own) ∧
      (∀ own, tokenize text = .ok own →
        tokenize (lines ++ text) = .ok (tokens.dropLast ++ own.map (shift (.ofNat more) lines.length)) ∧
        ((lines ++ text).toList.count '\n' < UInt32.size - 1 → ∀ token ∈ own,
          let moved := (token.shift (.ofNat more) lines.length).span
          moved.startLine.toNat = more + token.span.startLine.toNat ∧
            moved.stopLine.toNat = more + token.span.stopLine.toNat)) ∧
      ∀ error, tokenize text = .error error →
        tokenize (lines ++ text) = .error (error.shift (.ofNat more) lines.length) := by
  refine ⟨fun source error failed => ?_, fun lines text tokens lexed ends => ?_⟩
  · obtain ⟨front, c, rest, whole, place, solid, split, fault⟩ := tokenize_cut failed
    have size : source.length = front.length + (c :: rest).length := by
      rw [← String.length_toList, whole, List.length_append]
    have before : slice source 0 front.length = String.ofList front :=
      slice_eq (show source.toList = [] ++ (front ++ c :: rest) from whole) rfl (Nat.zero_add _).symm
    have behind : slice source front.length source.length = String.ofList (c :: rest) :=
      slice_eq (show source.toList = front ++ (c :: rest ++ []) by simp [whole]) rfl size
    simp only [place, before, behind, tokenize_eq, String.toList_ofList, whole]
    refine ⟨split, trivial, fun few => ?_, ⟨c, by simp, solid⟩, fault⟩
    rw [UInt32.toNat_ofNat_of_lt']
    omega
  · have origin : Position.start.advance lines.toList =
        Position.start.shift (.ofNat (lines.toList.count '\n')) lines.length := by
      rw [Position.advance_eq, Position.shift, String.length_toList, UInt32.add_comm,
        Nat.add_comm lines.length]
    have joined := tokensAt_join lexed ends text.toList
    rw [origin, tokensAt_shift, ← String.toList_append, ← tokenize_eq, ← tokenize_eq] at joined
    rw [joined]
    cases lexed : tokenize text with
    | ok own =>
      refine ⟨⟨fun _ => ⟨own, rfl⟩, fun _ => ⟨_, rfl⟩⟩, ?_, fun error failed => by contradiction⟩
      rintro _ ⟨rfl⟩
      exact ⟨rfl, fun few token member => toNat_shift few lexed member _⟩
    | error error => simp [Except.map, Except.mapError, Functor.map]

/-- A point that ends the lines before a digit, and an unclosed string behind a comment. -/
theorem splits_at_faults_and_lines_point :
    tokenize "a // b\n \"c" = .error ⟨.unterminated .string, ⟨2, 8⟩⟩ ∧
    tokenize "a // b\n " = .ok [⟨.identifier "a", ⟨1, 1, 0, 0⟩⟩, ⟨.endOfInput, ⟨2, 2, 8, 8⟩⟩] ∧
    tokenize "\"c" = .error ⟨.unterminated .string, ⟨1, 0⟩⟩ ∧
    tokenize "1.\n5" = .ok [⟨.integer 1, ⟨1, 1, 0, 0⟩⟩, ⟨.dot, ⟨1, 1, 1, 1⟩⟩, ⟨.integer 5, ⟨2, 2, 3, 3⟩⟩,
      ⟨.endOfInput, ⟨2, 2, 4, 4⟩⟩] := by
  have failed : tokenize "a // b\n \"c" = .error ⟨.unterminated .string, ⟨2, 8⟩⟩ := by decide +kernel
  have lexed : tokenize "1.\n" = .ok [⟨.integer 1, ⟨1, 1, 0, 0⟩⟩, ⟨.dot, ⟨1, 1, 1, 1⟩⟩,
      ⟨.endOfInput, ⟨2, 2, 3, 3⟩⟩] := by decide +kernel
  have alone : tokenize "5" = .ok [⟨.integer 5, ⟨1, 1, 0, 0⟩⟩, ⟨.endOfInput, ⟨1, 1, 1, 1⟩⟩] := by
    decide +kernel
  have cut := splits_at_faults_and_lines.1 _ _ failed
  have joined := (splits_at_faults_and_lines.2 "1.\n" "5" _ lexed (by decide)).2.1 _ alone
  exact ⟨failed, by decide +kernel, cut.2.2.2.2, joined.1⟩

theorem tokenize_blank_lines (count : Nat) :
    tokenize (String.ofList (List.replicate count '\n' ++ ['#'])) =
      .error ⟨.unexpectedCharacter '#', ⟨.ofNat (1 + count), count⟩⟩ := by
  have trivia : Trivia (List.replicate count '\n') := by
    induction count with
    | zero => exact .nil
    | succ count ih => exact .blank (by decide) ih
  have faulty : Faulty (List.replicate count '\n') (.unexpectedCharacter '#') '#' [] :=
    ⟨trivia, ⟨by decide, by simp⟩, by rfl⟩
  rw [tokenize_eq, String.toList_ofList, faulty.tokensAt, Position.advance_eq, List.count_replicate_self,
    List.length_replicate, UInt32.ofNat_add, Position.start, Nat.zero_add]
  rfl

theorem count_blank_lines (count : Nat) :
    (slice (String.ofList (List.replicate count '\n' ++ ['#'])) 0 count).toList.count '\n' = count := by
  have whole : (String.ofList (List.replicate count '\n' ++ ['#'])).toList =
      [] ++ (List.replicate count '\n' ++ ['#']) := String.toList_ofList
  have front : slice (String.ofList (List.replicate count '\n' ++ ['#'])) 0 count =
      String.ofList (List.replicate count '\n') := slice_eq whole rfl (by simp)
  rw [front, String.toList_ofList, List.count_replicate_self]

/-- Behind 2 ^ 32 lines the count has started again. -/
theorem blank_lines_recounted :
    tokenize (String.ofList (List.replicate UInt32.size '\n' ++ ['#'])) =
      .error ⟨.unexpectedCharacter '#', ⟨1, UInt32.size⟩⟩ ∧
    (1 : UInt32).toNat ≠
      1 + (slice (String.ofList (List.replicate UInt32.size '\n' ++ ['#'])) 0 UInt32.size).toList.count '\n' := by
  have lexed := tokenize_blank_lines UInt32.size
  have wrapped : UInt32.ofNat (1 + UInt32.size) = 1 := by decide
  rw [wrapped] at lexed
  refine ⟨lexed, ?_⟩
  rw [count_blank_lines]
  decide

end Token

end UnitCompiler
