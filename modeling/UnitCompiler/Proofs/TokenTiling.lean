import UnitCompiler.Proofs.Scanning

/-! Tokens tile a text. A text that is split into tokens is made of pieces, each of them trivia and the
characters of one token, and of trivia behind the last piece. Any run of its tokens is cut out of it by
its offsets: by itself it is split into the same tokens, moved to the start. -/

namespace UnitCompiler

namespace Position

def shift (lines : UInt32) (offset : Nat) (p : Position) : Position := ⟨lines + p.line, offset + p.offset⟩

theorem advance_shift (lines : UInt32) (offset : Nat) (p : Position) (text : List Char) :
    (p.shift lines offset).advance text = (p.advance text).shift lines offset := by
  simp only [advance_eq, shift, Nat.add_assoc, UInt32.add_assoc]

end Position

namespace Span

def shift (lines : UInt32) (offset : Nat) (s : Span) : Span :=
  ⟨lines + s.startLine, lines + s.stopLine, offset + s.start, offset + s.stop⟩

def Proper (s : Span) : Prop := s.start ≤ s.stop

def Precedes (a b : Span) : Prop := a.stop < b.start

end Span

def slice (source : String) (start stop : Nat) : String :=
  String.ofList ((source.toList.take stop).drop start)

def Span.slice (s : Span) (source : String) : String := UnitCompiler.slice source s.start (s.stop + 1)

namespace Token

def shift (lines : UInt32) (offset : Nat) (token : Token) : Token := ⟨token.kind, token.span.shift lines offset⟩

/-! ## The characters of a token -/

theorem forms_of_read {c : Char} {rest : List Char} {lexeme : Lexeme}
    (read : readLexeme c rest = .ok lexeme) :
    ∃ own, c :: rest = own ++ lexeme.rest ∧ Forms own lexeme.kind lexeme.rest := by
  obtain ⟨more, rfl, width, -⟩ := readLexeme_local read
  refine ⟨c :: more, rfl, c, more, rfl, ?_⟩
  rw [read, List.length_cons, ← width]

theorem Forms.local {own : List Char} {kind : Kind} {rest : List Char} (forms : Forms own kind rest) :
    '\n' ∉ own ∧ ∀ other, Replaces rest other → Forms own kind other := by
  obtain ⟨c, more, rfl, read⟩ := forms
  obtain ⟨own, whole, -, line, same⟩ := readLexeme_local read
  obtain rfl := List.append_cancel_right whole
  exact ⟨line, fun other replaces => ⟨c, more, rfl, same other replaces⟩⟩

theorem Forms.tokensAt {own : List Char} {kind : Kind} {rest : List Char} (forms : Forms own kind rest)
    (place : Position) :
    tokensAt place (own ++ rest) =
      (⟨kind, .along place own.length⟩ :: ·) <$> tokensAt (place.advance own) rest := by
  rw [Position.advance_of_line place forms.local.1]
  obtain ⟨c, more, rfl, read⟩ := forms
  exact tokensAt_token read place

/-! ## Pieces -/

/-- The characters of a token and what stands between it and the one before. -/
structure Piece where
  gap : List Char
  kind : Kind
  own : List Char

namespace Piece

def text (p : Piece) : List Char := p.gap ++ p.own

def token (p : Piece) (place : Position) : Token := ⟨p.kind, .along (place.advance p.gap) p.own.length⟩

end Piece

def layout (pieces : List Piece) : List Char := pieces.flatMap Piece.text

def placed (place : Position) : List Piece → List Token
  | [] => []
  | p :: pieces => p.token place :: placed (place.advance p.text) pieces

/-- Pieces that are read one after the other in front of a text. -/
def Laid : List Piece → List Char → Prop
  | [], _ => True
  | p :: pieces, rest => Trivia p.gap ∧ Forms p.own p.kind (layout pieces ++ rest) ∧ Laid pieces rest

@[simp] theorem layout_nil : layout [] = [] := rfl

@[simp] theorem layout_cons (p : Piece) (pieces : List Piece) :
    layout (p :: pieces) = p.text ++ layout pieces :=
  List.flatMap_cons

@[simp] theorem layout_append (pieces more : List Piece) :
    layout (pieces ++ more) = layout pieces ++ layout more :=
  List.flatMap_append

/-- A cut between tokens is a cut between pieces. -/
theorem placed_eq_append {place : Position} {pieces : List Piece} {before after : List Token}
    (cut : placed place pieces = before ++ after) :
    ∃ front behind : List Piece, pieces = front ++ behind ∧ before = placed place front ∧
      after = placed (place.advance (layout front)) behind := by
  induction before generalizing place pieces with
  | nil => exact ⟨[], pieces, rfl, rfl, cut.symm⟩
  | cons token before ih =>
    cases pieces with
    | nil => contradiction
    | cons p pieces =>
      obtain ⟨rfl, others⟩ := List.cons.inj cut
      obtain ⟨front, behind, rfl, rfl, rfl⟩ := ih others
      exact ⟨p :: front, behind, rfl, rfl, by simp [Position.advance_append]⟩

theorem laid_append (pieces more : List Piece) (rest : List Char) :
    Laid (pieces ++ more) rest ↔ Laid pieces (layout more ++ rest) ∧ Laid more rest := by
  induction pieces with
  | nil => simp [Laid]
  | cons p pieces ih => simp [Laid, ih, and_assoc]

theorem Laid.replace {pieces : List Piece} {rest other : List Char} (laid : Laid pieces rest)
    (replaces : ∀ front, Replaces (front ++ rest) (front ++ other)) : Laid pieces other := by
  induction pieces with
  | nil => trivial
  | cons p pieces ih =>
    obtain ⟨trivia, forms, others⟩ := laid
    exact ⟨trivia, forms.local.2 _ (replaces _), ih others⟩

theorem Laid.shorten {pieces : List Piece} {rest middle : List Char} (laid : Laid pieces rest)
    (among : middle <+: rest) : Laid pieces middle :=
  laid.replace fun _ => .shorten ((List.prefix_append_right_inj _).mpr among)

/-- Pieces are split into their tokens. -/
theorem tokensAt_laid {pieces : List Piece} {rest : List Char} (laid : Laid pieces rest) (place : Position) :
    tokensAt place (layout pieces ++ rest) =
      (placed place pieces ++ ·) <$> tokensAt (place.advance (layout pieces)) rest := by
  induction pieces generalizing place with
  | nil => exact (id_map _).symm
  | cons p pieces ih =>
    obtain ⟨trivia, forms, others⟩ := laid
    rw [layout_cons, Piece.text, List.append_assoc, List.append_assoc, tokensAt_trivia trivia,
      forms.tokensAt, ih others, ← comp_map]
    simp only [placed, Piece.token, Piece.text, Position.advance_append, List.cons_append]
    rfl

theorem tokensAt_whole {pieces : List Piece} {tail : List Char} (laid : Laid pieces tail)
    (closing : Closing tail) (place : Position) :
    tokensAt place (layout pieces ++ tail) =
      .ok (placed place pieces ++ [⟨.endOfInput, .atEnd (place.advance (layout pieces ++ tail))⟩]) := by
  rw [tokensAt_laid laid, tokensAt_closing closing, Position.advance_append]
  rfl

structure Faulty (gap : List Char) (fault : SourceFault) (c : Char) (rest : List Char) : Prop where
  trivia : Trivia gap
  solid : Solid c rest
  read : readLexeme c rest = .error fault

theorem Faulty.tokensAt {gap rest : List Char} {fault : SourceFault} {c : Char}
    (faulty : Faulty gap fault c rest) (place : Position) :
    tokensAt place (gap ++ c :: rest) = .error ⟨fault, place.advance gap⟩ := by
  rw [tokensAt_trivia faulty.trivia, tokensAt_fault faulty.solid faulty.read]

/-- Every text is made of pieces, up to trivia at its end or up to a fault. -/
theorem exists_laid (text : List Char) :
    ∃ (pieces : List Piece) (tail : List Char), text = layout pieces ++ tail ∧ Laid pieces tail ∧
      (Closing tail ∨ ∃ gap fault c rest, tail = gap ++ c :: rest ∧ Faulty gap fault c rest) := by
  induction size : text.length using Nat.strongRecOn generalizing text with
  | ind size ih =>
  subst size
  rcases closing_or_solid text with closing | ⟨gap, c, rest, rfl, trivia, solid⟩
  · exact ⟨[], text, rfl, trivial, .inl closing⟩
  · cases read : readLexeme c rest with
    | error fault => exact ⟨[], _, rfl, trivial, .inr ⟨gap, fault, c, rest, rfl, trivia, solid, read⟩⟩
    | ok lexeme =>
      have shorter := readLexeme_shorter read
      obtain ⟨own, whole, forms⟩ := forms_of_read read
      obtain ⟨pieces, tail, same, laid, halts⟩ := ih lexeme.rest.length
        (by simp only [List.length_append, List.length_cons]; omega) lexeme.rest rfl
      refine ⟨⟨gap, lexeme.kind, own⟩ :: pieces, tail, ?_, ⟨trivia, same ▸ forms, laid⟩, halts⟩
      simp [whole, Piece.text, same]

theorem tokensAt_faulty {pieces : List Piece} {gap rest : List Char} {fault : SourceFault} {c : Char}
    (laid : Laid pieces (gap ++ c :: rest)) (faulty : Faulty gap fault c rest) (place : Position) :
    tokensAt place (layout pieces ++ (gap ++ c :: rest)) =
      .error ⟨fault, place.advance (layout pieces ++ gap)⟩ := by
  rw [tokensAt_laid laid, faulty.tokensAt, Position.advance_append]
  rfl

/-- A text that is split into tokens is made of pieces and of trivia at its end. -/
theorem laid_of_tokensAt {place : Position} {text : List Char} {tokens : List Token}
    (lexed : tokensAt place text = .ok tokens) :
    ∃ (pieces : List Piece) (tail : List Char), text = layout pieces ++ tail ∧ Laid pieces tail ∧
      Closing tail ∧ tokens = placed place pieces ++ [⟨.endOfInput, .atEnd (place.advance text)⟩] := by
  obtain ⟨pieces, tail, rfl, laid, closing | ⟨gap, fault, c, rest, rfl, faulty⟩⟩ := exists_laid text
  · rw [tokensAt_whole laid closing] at lexed
    cases lexed
    exact ⟨pieces, tail, rfl, laid, closing, rfl⟩
  · rw [tokensAt_faulty laid faulty] at lexed
    contradiction

/-! ## Places of tokens -/

theorem Forms.positive {own : List Char} {kind : Kind} {rest : List Char} (forms : Forms own kind rest) :
    0 < own.length := by
  obtain ⟨c, more, rfl, -⟩ := forms
  exact Nat.succ_pos _

theorem placed_shift {pieces : List Piece} {rest : List Char} (laid : Laid pieces rest)
    (lines : UInt32) (offset : Nat) (place : Position) :
    placed (place.shift lines offset) pieces = (placed place pieces).map (shift lines offset) := by
  induction pieces generalizing place with
  | nil => rfl
  | cons p pieces ih =>
    obtain ⟨-, forms, others⟩ := laid
    have positive := forms.positive
    rw [placed, placed, Position.advance_shift, ih others, List.map_cons]
    simp only [Piece.token, shift, Position.shift, Span.shift, Span.along, Position.advance_eq,
      UInt32.add_assoc]
    congr 3 <;> omega

structure Ordered (tokens : List Token) : Prop where
  proper : ∀ token ∈ tokens, token.span.Proper
  precedes : tokens.Pairwise fun a b => a.span.Precedes b.span

theorem Ordered.sublist {tokens some : List Token} (ordered : Ordered tokens)
    (among : some.Sublist tokens) : Ordered some :=
  ⟨fun token member => ordered.proper token (among.subset member), ordered.precedes.sublist among⟩

theorem Ordered.cons {token : Token} {rest : List Token} (proper : token.span.Proper)
    (first : ∀ other ∈ rest, token.span.Precedes other.span) (ordered : Ordered rest) :
    Ordered (token :: rest) :=
  ⟨List.forall_mem_cons.mpr ⟨proper, ordered.proper⟩, List.pairwise_cons.mpr ⟨first, ordered.precedes⟩⟩

theorem placed_ordered {pieces : List Piece} {tail : List Char} (laid : Laid pieces tail)
    (place : Position) :
    let tokens := placed place pieces ++ [⟨.endOfInput, .atEnd (place.advance (layout pieces ++ tail))⟩]
    Ordered tokens ∧ ∀ token ∈ tokens, place.offset ≤ token.span.start := by
  induction pieces generalizing place with
  | nil =>
    refine ⟨.cons (Nat.le_refl _) nofun ⟨nofun, .nil⟩, List.forall_mem_singleton.mpr ?_⟩
    rw [Position.advance_eq]
    exact Nat.le_add_right _ _
  | cons p pieces ih =>
    obtain ⟨-, forms, others⟩ := laid
    obtain ⟨ordered, follow⟩ := ih others (place.advance p.text)
    have positive := forms.positive
    have proper : (p.token place).span.Proper := by
      simp only [Span.Proper, Piece.token, Span.along]
      omega
    have before {s : Span} (follows : (place.advance p.text).offset ≤ s.start) :
        (p.token place).span.Precedes s := by
      simp only [Position.advance_eq, Piece.text, List.length_append] at follows
      simp only [Span.Precedes, Piece.token, Span.along, Position.advance_eq]
      omega
    have own : place.offset ≤ (p.token place).span.start := by
      simp only [Piece.token, Span.along, Position.advance_eq]
      omega
    simp only [placed, layout_cons, List.append_assoc, Position.advance_append place p.text, List.cons_append]
    refine ⟨.cons proper (fun other member => before (follow other member)) ordered, ?_⟩
    refine List.forall_mem_cons.mpr ⟨own, fun other member => ?_⟩
    exact own.trans (Nat.le_trans proper (before (follow other member)).le)

theorem tokenize_ordered {source : String} {tokens : List Token} (lexed : tokenize source = .ok tokens) :
    Ordered tokens := by
  obtain ⟨pieces, tail, whole, laid, -, rfl⟩ := laid_of_tokensAt lexed
  rw [whole]
  exact (placed_ordered laid .start).1

theorem mem_placed {place : Position} {pieces : List Piece} {token : Token}
    (member : token ∈ placed place pieces) :
    ∃ (front : List Piece) (p : Piece) (behind : List Piece), pieces = front ++ p :: behind ∧
      token = p.token (place.advance (layout front)) := by
  obtain ⟨before, after, cut⟩ := List.append_of_mem member
  obtain ⟨front, behind, rfl, rfl, same⟩ := placed_eq_append cut
  cases behind with
  | nil => contradiction
  | cons p behind => exact ⟨front, p, behind, rfl, (List.cons.inj same).1⟩

/-- The last token is the end of input, and it is the only one. -/
theorem tokenize_ends {source : String} {tokens : List Token} (lexed : tokenize source = .ok tokens) :
    ∃ (body : List Token) (last : Token), tokens = body ++ [last] ∧ last.kind = .endOfInput ∧
      ∀ token ∈ body, token.kind ≠ .endOfInput := by
  obtain ⟨pieces, tail, -, laid, -, rfl⟩ := laid_of_tokensAt lexed
  refine ⟨_, _, rfl, rfl, fun token member => ?_⟩
  obtain ⟨front, p, behind, rfl, rfl⟩ := mem_placed member
  exact ((laid_append front _ tail).mp laid).2.2.1.proper

/-- The last token ends where its piece does. -/
theorem placed_stop {pieces : List Piece} {rest : List Char} (laid : Laid pieces rest) {place : Position}
    {last : Token} (end_ : (placed place pieces).getLast? = some last) :
    last.span.stop + 1 = place.offset + (layout pieces).length := by
  obtain ⟨before, cut⟩ := List.getLast?_eq_some_iff.mp end_
  obtain ⟨front, behind, rfl, -, same⟩ := placed_eq_append cut
  obtain ⟨p, rfl⟩ : ∃ p, behind = [p] := by
    rcases behind with _ | ⟨p, _ | ⟨q, more⟩⟩
    · contradiction
    · exact ⟨p, rfl⟩
    · simp [placed] at same
  have positive := ((laid_append front [p] rest).mp laid).2.2.1.positive
  obtain ⟨rfl, -⟩ := List.cons.inj same
  simp only [Piece.token, Span.along, Position.advance_eq, layout_append, layout_cons, layout_nil,
    Piece.text, List.length_append, List.length_nil]
  omega

/-! ## Slices -/

theorem slice_eq {source : String} {front middle back : List Char}
    (whole : source.toList = front ++ (middle ++ back)) {start stop : Nat} (first : start = front.length)
    (last : stop = front.length + middle.length) : slice source start stop = String.ofList middle := by
  subst first last
  rw [slice, whole, ← List.append_assoc, ← List.length_append, List.take_left', List.drop_left']
  · rfl
  · rfl

/-- Without the trivia in front of it the first token stands at the start of a text. -/
theorem placed_alone {p : Piece} {pieces : List Piece} {rest : List Char} (laid : Laid (p :: pieces) rest)
    (place : Position) :
    placed place (p :: pieces) = (placed .start (⟨[], p.kind, p.own⟩ :: pieces)).map
      (shift ((p.token place).span.startLine - 1) (p.token place).span.start) := by
  obtain ⟨-, forms, others⟩ := laid
  have alone : Laid (⟨[], p.kind, p.own⟩ :: pieces) rest := ⟨.nil, forms, others⟩
  have origin : Position.start.shift ((p.token place).span.startLine - 1) (p.token place).span.start =
      place.advance p.gap := by
    simp only [Piece.token, Span.along, Position.advance_eq, Position.start, Position.shift,
      UInt32.sub_add_cancel, Nat.add_zero]
  rw [← placed_shift alone, origin]
  simp [placed, Piece.token, Piece.text, Position.advance_append]

/-- Tokens that stand together, cut out of their text, are split the same way. -/
theorem tokenize_slice {source : String} {before own after : List Token} {first last : Token}
    (lexed : tokenize source = .ok (before ++ own ++ after)) (more : after ≠ [])
    (head : own.head? = some first) (end_ : own.getLast? = some last) :
    ∃ (alone : List Token) (stop : Token),
      tokenize ((first.span.upTo last.span).slice source) = .ok (alone ++ [stop]) ∧
      stop.kind = .endOfInput ∧ own = alone.map (shift (first.span.startLine - 1) first.span.start) := by
  obtain ⟨pieces, tail, whole, laid, -, tokens⟩ := laid_of_tokensAt lexed
  rw [← List.dropLast_concat_getLast more, ← List.append_assoc] at tokens
  obtain ⟨cut, -⟩ := List.append_inj' tokens rfl
  rw [List.append_assoc] at cut
  obtain ⟨front, behind, rfl, rfl, behindCut⟩ := placed_eq_append cut.symm
  obtain ⟨mine, rest, rfl, rfl, -⟩ := placed_eq_append behindCut.symm
  cases mine with
  | nil => contradiction
  | cons p mine =>
    cases head
    obtain ⟨-, laid⟩ := (laid_append front _ tail).mp laid
    obtain ⟨laid, -⟩ := (laid_append _ rest tail).mp laid
    have stops := placed_stop laid end_
    have text : ((p.token (Position.start.advance (layout front))).span.upTo last.span).slice source =
        String.ofList (p.own ++ layout mine) := by
      have whole : source.toList =
          (layout front ++ p.gap) ++ ((p.own ++ layout mine) ++ (layout rest ++ tail)) := by
        simp [whole, Piece.text]
      refine slice_eq whole ?_ ?_
      · simp [Span.upTo, Piece.token, Span.along, Position.advance_eq, Position.start]
      · rw [Span.upTo, stops]
        simp [Position.advance_eq, Position.start, Piece.text, Nat.add_assoc]
    obtain ⟨-, forms, others⟩ := laid.shorten List.nil_prefix
    have alone : Laid (⟨[], p.kind, p.own⟩ :: mine) [] := ⟨.nil, forms, others⟩
    have lexed := tokensAt_whole alone (.trivia .nil) .start
    rw [List.append_nil] at lexed
    exact ⟨_, _, by rwa [text, tokenize_eq, String.toList_ofList], rfl, placed_alone laid _⟩

/-! ## The whole text -/

def kindsOf (source : String) : Except SourceError (List Kind) := (tokenize source).map (List.map Token.kind)

/-- Where the text between tokens starts and where it stops, from an offset on. -/
def gaps : Nat → List Token → List (Nat × Nat)
  | _, [] => []
  | start, token :: tokens => (start, token.span.start) :: gaps (token.span.stop + 1) tokens

def lineAt (source : String) (offset : Nat) : Nat := 1 + (source.toList.take offset).count '\n'

theorem lineAt_le (source : String) {first last : Nat} (before : first ≤ last) :
    lineAt source first ≤ lineAt source last :=
  Nat.add_le_add_left ((List.take_sublist_take_left before).count_le _) 1

/-- In a text of few enough lines the word for a line is its number. -/
theorem toNat_lineAt {source : String} (few : source.toList.count '\n' < UInt32.size - 1) (offset : Nat) :
    (UInt32.ofNat (lineAt source offset)).toNat = lineAt source offset := by
  have least : (source.toList.take offset).count '\n' ≤ source.toList.count '\n' :=
    (List.take_sublist _ _).count_le _
  rw [UInt32.toNat_ofNat_of_lt']
  rw [lineAt]
  omega

theorem kindsOf_closing {source : String} (closing : Closing source.toList) :
    kindsOf source = .ok [.endOfInput] := by
  rw [kindsOf, tokenize_eq, tokensAt_closing closing]
  rfl

theorem Forms.kindsOf {own : List Char} {kind : Kind} {rest : List Char} (forms : Forms own kind rest) :
    kindsOf (String.ofList own) = .ok [kind, .endOfInput] := by
  have alone : Laid [⟨[], kind, own⟩] [] := ⟨.nil, forms.local.2 _ (.shorten List.nil_prefix), trivial⟩
  have lexed := tokensAt_whole alone (.trivia .nil) .start
  simp only [layout_cons, layout_nil, Piece.text, List.nil_append, List.append_nil] at lexed
  rw [Token.kindsOf, tokenize_eq, String.toList_ofList, lexed]
  rfl

/-- The span of a piece's token, by the text in front of the piece. -/
theorem Piece.token_span (p : Piece) (front : List Char) :
    (p.token (Position.start.advance front)).span =
      ⟨.ofNat (1 + (front ++ p.gap).count '\n'), .ofNat (1 + (front ++ p.gap).count '\n'),
        (front ++ p.gap).length, (front ++ p.text).length - 1⟩ := by
  simp [Piece.token, Piece.text, Span.along, Position.advance_eq, Position.start, Nat.add_assoc,
    UInt32.add_assoc]

/-- A token by itself, in the text around its piece. -/
theorem Forms.token {source : String} {front rest : List Char} {p : Piece}
    (whole : source.toList = front ++ (p.text ++ rest)) (forms : Forms p.own p.kind rest) :
    let token := p.token (Position.start.advance front)
    token.span.start ≤ token.span.stop ∧ token.span.stop < source.length ∧
      token.span.slice source = String.ofList p.own ∧
      token.span.startLine = .ofNat (lineAt source token.span.start) ∧
      token.span.stopLine = .ofNat (lineAt source token.span.start) ∧
      lineAt source token.span.stop = lineAt source token.span.start := by
  have positive := forms.positive
  have split : source.toList = (front ++ p.gap) ++ (p.own ++ rest) := by simp [whole, Piece.text]
  have size : source.length = (front ++ p.gap).length + p.own.length + rest.length := by
    rw [← String.length_toList, split]
    simp only [List.length_append, Nat.add_assoc]
  have stop : (front ++ p.text).length = (front ++ p.gap).length + p.own.length := by
    simp [Piece.text, Nat.add_assoc]
  have line : lineAt source (front ++ p.gap).length = 1 + (front ++ p.gap).count '\n' := by
    rw [lineAt, split, List.take_left]
  have last : lineAt source ((front ++ p.text).length - 1) = lineAt source (front ++ p.gap).length := by
    have inside : '\n' ∉ p.own.take (p.own.length - 1) := fun member =>
      forms.local.1 (List.mem_of_mem_take member)
    rw [line, lineAt, split, stop, Nat.add_sub_assoc positive, List.take_length_add_append,
      List.take_append_of_le_length (Nat.sub_le _ _), List.count_append,
      List.count_eq_zero_of_not_mem inside, Nat.add_zero]
  simp only [p.token_span front]
  refine ⟨by omega, by omega, slice_eq split rfl (by dsimp only; omega), by rw [line], by rw [line], last⟩

/-- Between tokens stand trivia. -/
theorem gaps_closing {source : String} (front : List Char) {tail : List Char} {pieces : List Piece}
    (whole : source.toList = front ++ (layout pieces ++ tail)) (laid : Laid pieces tail)
    (closing : Closing tail) :
    ∀ gap ∈ gaps front.length (placed (Position.start.advance front) pieces ++
        [⟨.endOfInput, .atEnd (Position.start.advance source.toList)⟩]),
      gap.1 ≤ gap.2 ∧ Closing (slice source gap.1 gap.2).toList := by
  induction pieces generalizing front with
  | nil =>
    rw [layout_nil, List.nil_append] at whole
    have stop : (Span.atEnd (Position.start.advance source.toList)).start = front.length + tail.length := by
      simp [Span.atEnd, Position.advance_eq, Position.start, whole]
    refine List.forall_mem_singleton.mpr ⟨?_, ?_⟩
    · exact stop ▸ Nat.le_add_right _ _
    · rw [slice_eq (by rw [whole, List.append_nil]) rfl stop, String.toList_ofList]
      exact closing
  | cons p pieces ih =>
    obtain ⟨trivia, forms, others⟩ := laid
    have positive := forms.positive
    have span := p.token_span front
    refine List.forall_mem_cons.mpr ⟨⟨?_, ?_⟩, ?_⟩
    · simp [span]
    · have split : source.toList = front ++ (p.gap ++ (p.own ++ (layout pieces ++ tail))) := by
        simp [whole, Piece.text]
      rw [slice_eq split rfl (by simp [span]), String.toList_ofList]
      exact .trivia trivia
    · have stop : (p.token (Position.start.advance front)).span.stop + 1 = (front ++ p.text).length := by
        simp only [span, Piece.text, List.length_append]
        omega
      rw [stop, ← Position.advance_append]
      exact ih (front ++ p.text) (by simp [whole]) others

/-- Tokens that tile their text: each of them is what its characters by themselves are read as, they
stand one behind the other in the lines that the offsets say, and between them stand trivia only. -/
structure Tiled (source : String) (body : List Token) (last : Token) : Prop where
  ends : last.kind = .endOfInput ∧ last.span.start = source.length ∧ last.span.stop = source.length
  proper : ∀ token ∈ body, token.kind ≠ .endOfInput
  inside : ∀ token ∈ body, token.span.start ≤ token.span.stop ∧ token.span.stop < source.length
  apart : body.Pairwise fun a b => a.span.stop < b.span.start
  alone : ∀ token ∈ body, kindsOf (token.span.slice source) = .ok [token.kind, .endOfInput]
  between : ∀ gap ∈ gaps 0 (body ++ [last]), gap.1 ≤ gap.2 ∧ Closing (slice source gap.1 gap.2).toList ∧
    kindsOf (slice source gap.1 gap.2) = .ok [.endOfInput]
  single : ∀ token ∈ body, '\n' ∉ (token.span.slice source).toList
  lines : ∀ token ∈ body ++ [last], token.span.startLine = .ofNat (lineAt source token.span.start) ∧
    token.span.stopLine = .ofNat (lineAt source token.span.start)
  numbers : source.toList.count '\n' < UInt32.size - 1 → ∀ token ∈ body ++ [last],
    token.span.startLine.toNat = lineAt source token.span.start ∧
      token.span.stopLine.toNat = lineAt source token.span.start

/-- The text around a token's piece. -/
theorem Laid.around {source : String} {pieces : List Piece} {tail : List Char} {token : Token}
    (whole : source.toList = layout pieces ++ tail) (laid : Laid pieces tail)
    (member : token ∈ placed .start pieces) :
    ∃ (front : List Piece) (p : Piece) (behind : List Piece),
      source.toList = layout front ++ (p.text ++ (layout behind ++ tail)) ∧
      Forms p.own p.kind (layout behind ++ tail) ∧
      token = p.token (Position.start.advance (layout front)) := by
  obtain ⟨front, p, behind, rfl, rfl⟩ := mem_placed member
  exact ⟨front, p, behind, by simp [whole], ((laid_append front _ tail).mp laid).2.2.1, rfl⟩

theorem advance_source (source : String) :
    Position.start.advance source.toList = ⟨.ofNat (lineAt source source.length), source.length⟩ := by
  rw [Position.advance_eq, lineAt, ← String.length_toList, List.take_length, UInt32.ofNat_add]
  exact congrArg _ (Nat.zero_add _)

/-- Every token stands in the line that its offsets say. -/
theorem tokenize_lines {source : String} {tokens : List Token} (lexed : tokenize source = .ok tokens) :
    ∀ token ∈ tokens, token.span.startLine = .ofNat (lineAt source token.span.start) ∧
      token.span.stopLine = .ofNat (lineAt source token.span.start) ∧
      lineAt source token.span.stop = lineAt source token.span.start := by
  obtain ⟨pieces, tail, whole, laid, -, rfl⟩ := laid_of_tokensAt lexed
  intro token member
  rcases List.mem_append.mp member with inside | last
  · obtain ⟨front, p, behind, whole, forms, rfl⟩ := laid.around whole inside
    exact (forms.token whole).2.2.2
  · rw [List.mem_singleton.mp last, advance_source]
    exact ⟨rfl, rfl, rfl⟩

theorem tokens_tile {source : String} {tokens : List Token} (lexed : tokenize source = .ok tokens) :
    ∃ (body : List Token) (last : Token), tokens = body ++ [last] ∧ Tiled source body last := by
  obtain ⟨pieces, tail, whole, laid, closing, rfl⟩ := laid_of_tokensAt lexed
  have lines := tokenize_lines lexed
  refine ⟨_, _, rfl, ?_⟩
  constructor
  case ends => exact ⟨rfl, by rw [advance_source]; rfl, by rw [advance_source]; rfl⟩
  case apart =>
    have ordered := (tokenize_ordered lexed).precedes
    exact (List.pairwise_append.mp ordered).1
  case between =>
    intro gap member
    obtain ⟨proper, closing⟩ := gaps_closing [] whole laid closing gap member
    exact ⟨proper, closing, kindsOf_closing closing⟩
  case lines => exact fun token member => ⟨(lines token member).1, (lines token member).2.1⟩
  case numbers =>
    intro few token member
    obtain ⟨startLine, stopLine, -⟩ := lines token member
    rw [startLine, stopLine, toNat_lineAt few]
    exact ⟨rfl, rfl⟩
  all_goals
    intro token member
    obtain ⟨front, p, behind, whole, forms, rfl⟩ := laid.around whole member
    obtain ⟨proper, inside, text, -⟩ := forms.token whole
  case proper => exact forms.proper
  case inside => exact ⟨proper, inside⟩
  case alone => rw [text, forms.kindsOf]; rfl
  case single =>
    rw [text, String.toList_ofList]
    exact forms.local.1

/-- A point behind a number that is no decimal, a decimal, an escape, and a comment that ends the text. -/
theorem tokens_tile_numbers :
    let source := "7_.x 1_0.5\n\"\\n\" //"
    let body : List Token := [⟨.integer 7, ⟨1, 1, 0, 1⟩⟩, ⟨.dot, ⟨1, 1, 2, 2⟩⟩, ⟨.identifier "x", ⟨1, 1, 3, 3⟩⟩,
      ⟨.decimal (.ofDigits [1, 0] [5]), ⟨1, 1, 5, 9⟩⟩, ⟨.text "\n", ⟨2, 2, 11, 14⟩⟩]
    tokenize source = .ok (body ++ [⟨.endOfInput, ⟨2, 2, 18, 18⟩⟩]) ∧
      Tiled source body ⟨.endOfInput, ⟨2, 2, 18, 18⟩⟩ := by
  intro source body
  have lexed : tokenize source = .ok (body ++ [⟨.endOfInput, ⟨2, 2, 18, 18⟩⟩]) := by decide +kernel
  obtain ⟨own, last, same, tiled⟩ := tokens_tile lexed
  obtain ⟨rfl, only⟩ := List.append_inj' same rfl
  cases only
  exact ⟨lexed, tiled⟩

end Token

end UnitCompiler
