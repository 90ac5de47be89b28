import UnitCompiler.Proofs.Lexing

/-! Texts from left to right. Between tokens stand blanks and comments; a token is a run of characters on
one line, and it is read the same in front of any text that it does not go on with. Four equations say how
a text is split from a place on: where trivia come first, where a token comes first, at a fault and at the
end. -/

namespace UnitCompiler

namespace Position

@[simp] theorem advance_nil (p : Position) : p.advance [] = p := rfl

theorem advance_cons (p : Position) (c : Char) (text : List Char) :
    p.advance (c :: text) = (p.step c).advance text := rfl

theorem advance_append (p : Position) (front behind : List Char) :
    p.advance (front ++ behind) = (p.advance front).advance behind := by
  simp [advance]

theorem advance_eq (p : Position) (text : List Char) :
    p.advance text = ⟨p.line + .ofNat (text.count '\n'), p.offset + text.length⟩ := by
  induction text generalizing p with
  | nil => simp
  | cons c text ih =>
    rw [advance_cons, ih, step, List.length_cons, List.count_cons]
    by_cases line : c = '\n'
    · simp only [line, if_true, beq_self_eq_true, UInt32.ofNat_add]
      congr 1
      · rw [UInt32.add_assoc, UInt32.add_comm 1]
        rfl
      · omega
    · simp only [line, if_false, beq_iff_eq, Nat.add_zero]
      congr 1
      omega

/-- A text on one line. -/
theorem advance_of_line (p : Position) {text : List Char} (line : '\n' ∉ text) :
    p.advance text = p.along text.length := by
  rw [advance_eq, List.count_eq_zero_of_not_mem line]
  simp [along]

end Position

namespace Token

open Text

/-! ## Trivia -/

inductive Trivia : List Char → Prop where
  | nil : Trivia []
  | blank {c : Char} {gap : List Char} (blank : isBlank c = true) (behind : Trivia gap) :
      Trivia (c :: gap)
  | comment {words gap : List Char} (line : '\n' ∉ words) (behind : Trivia gap) :
      Trivia ('/' :: '/' :: (words ++ '\n' :: gap))

inductive Closing : List Char → Prop where
  | trivia {gap : List Char} (trivia : Trivia gap) : Closing gap
  | comment {gap words : List Char} (trivia : Trivia gap) (line : '\n' ∉ words) :
      Closing (gap ++ '/' :: '/' :: words)

/-- A text that begins with neither a blank nor a comment. -/
def Solid (c : Char) (rest : List Char) : Prop := isBlank c = false ∧ ¬ (c = '/' ∧ rest.head? = some '/')

theorem skipTrivia_line {words : List Char} (line : '\n' ∉ words) (place : Position) (rest : List Char) :
    skipTrivia true place (words ++ '\n' :: rest) =
      skipTrivia false ((place.advance words).step '\n') rest := by
  induction words generalizing place with
  | nil => simp [skipTrivia]
  | cons c words ih =>
    rw [List.mem_cons, not_or] at line
    have inside : (c != '\n') = true := bne_iff_ne.mpr (Ne.symm line.1)
    simp [skipTrivia, inside, ih line.2, Position.advance_cons]

theorem skipTrivia_last {words : List Char} (line : '\n' ∉ words) (place : Position) :
    skipTrivia true place words = (place.advance words, []) := by
  induction words generalizing place with
  | nil => rfl
  | cons c words ih =>
    rw [List.mem_cons, not_or] at line
    have inside : (c != '\n') = true := bne_iff_ne.mpr (Ne.symm line.1)
    simp [skipTrivia, inside, ih line.2, Position.advance_cons]

theorem skipTrivia_slashes (place : Position) (rest : List Char) :
    skipTrivia false place ('/' :: '/' :: rest) = skipTrivia true (place.step '/') ('/' :: rest) := by
  have solid : isBlank '/' = false := by decide
  rw [skipTrivia]
  simp [solid]

theorem Trivia.skip {gap : List Char} (trivia : Trivia gap) (place : Position) (rest : List Char) :
    skipTrivia false place (gap ++ rest) = skipTrivia false (place.advance gap) rest := by
  induction trivia generalizing place with
  | nil => rfl
  | blank blank _ ih => simp [skipTrivia, blank, ih, Position.advance_cons]
  | @comment words gap line _ ih =>
    have slashed : '\n' ∉ '/' :: words := by simp [line]
    have skipped := skipTrivia_line slashed (place.step '/') (gap ++ rest)
    simp only [List.cons_append, List.append_assoc] at skipped ⊢
    rw [skipTrivia_slashes, skipped, ih]
    simp only [Position.advance_cons, Position.advance_append]

theorem Closing.skip {gap : List Char} (closing : Closing gap) (place : Position) :
    skipTrivia false place gap = (place.advance gap, []) := by
  cases closing with
  | trivia trivia =>
    have skipped := trivia.skip place []
    rwa [List.append_nil] at skipped
  | @comment gap words trivia line =>
    have slashed : '\n' ∉ '/' :: words := by simp [line]
    rw [trivia.skip, skipTrivia_slashes, skipTrivia_last slashed, Position.advance_append]
    rfl

theorem Solid.skip {c : Char} {rest : List Char} (solid : Solid c rest) (place : Position) :
    skipTrivia false place (c :: rest) = (place, c :: rest) := by
  rw [skipTrivia]
  simp [solid.1, solid.2]

theorem Trivia.append {gap more : List Char} (trivia : Trivia gap) (behind : Trivia more) :
    Trivia (gap ++ more) := by
  induction trivia with
  | nil => exact behind
  | blank blank _ ih => exact .blank blank ih
  | comment line _ ih => simpa using Trivia.comment line ih

theorem Trivia.closing {gap more : List Char} (trivia : Trivia gap) (closing : Closing more) :
    Closing (gap ++ more) := by
  cases closing with
  | trivia behind => exact .trivia (trivia.append behind)
  | comment behind line =>
    rw [← List.append_assoc]
    exact .comment (trivia.append behind) line

/-- Every text is trivia up to its end or up to something else. -/
theorem closing_or_solid (text : List Char) :
    Closing text ∨ ∃ (gap : List Char) (c : Char) (rest : List Char), text = gap ++ c :: rest ∧
      Trivia gap ∧ Solid c rest := by
  induction size : text.length using Nat.strongRecOn generalizing text with
  | ind size ih =>
  subst size
  -- What is known behind some trivia is known of the whole.
  have behind {gap : List Char} (trivia : Trivia gap) (more : List Char) (whole : text = gap ++ more)
      (shorter : more.length < text.length) :
      Closing text ∨ ∃ (gap : List Char) (c : Char) (rest : List Char), text = gap ++ c :: rest ∧
        Trivia gap ∧ Solid c rest := by
    rcases ih more.length shorter more rfl with closing | ⟨inner, c, rest, rfl, trivia', solid⟩
    · exact .inl (whole ▸ trivia.closing closing)
    · exact .inr ⟨gap ++ inner, c, rest, by simp [whole], trivia.append trivia', solid⟩
  cases text with
  | nil => exact .inl (.trivia .nil)
  | cons c rest =>
    by_cases blank : isBlank c = true
    · exact behind (.blank blank .nil) rest rfl (Nat.lt_succ_self _)
    by_cases comment : c = '/' ∧ rest.head? = some '/'
    · obtain ⟨rfl, slash⟩ := comment
      obtain ⟨words, rfl⟩ := List.head?_eq_some_iff.mp slash
      by_cases line : '\n' ∈ words
      · obtain ⟨inside, more, rfl, free⟩ := List.eq_append_cons_of_mem line
        refine behind (.comment free .nil) more (by simp) ?_
        simp only [List.length_cons, List.length_append]
        omega
      · exact .inl (.comment .nil line)
    · exact .inr ⟨[], c, rest, rfl, .nil, by simpa using blank, comment⟩

/-! ## Tokens by themselves -/

/-- Some characters on one line are read, and what comes behind them has no say. -/
def Isolates {α : Type} (reader : List Char → Except SourceFault (α × Nat × List Char)) (text : List Char)
    (value : α) (width : Nat) (behind : List Char) : Prop :=
  ∃ own, text = own ++ behind ∧ width = own.length ∧ '\n' ∉ own ∧
    ∀ other, reader (own ++ other) = .ok (value, width, other)

theorem readString_local {text value behind : List Char} {width : Nat}
    (read : readString text = .ok (value, width, behind)) : Isolates readString text value width behind := by
  fun_induction readString text generalizing value width behind with
  | case1 | case3 | case4 | case5 => contradiction
  | case2 rest =>
    cases read
    exact ⟨['\"'], rfl, rfl, by simp, fun other => by rw [List.singleton_append, readString.eq_def]; rfl⟩
  | case6 e rest c escape quote line ih =>
    obtain ⟨⟨values, inner, behind'⟩, taken, returned⟩ := bind_eq_ok read
    cases returned
    obtain ⟨own, rfl, rfl, free, same⟩ := ih taken
    have plain : e ≠ '\n' := by
      rintro rfl
      contradiction
    refine ⟨'\\' :: e :: own, rfl, rfl, by simp [free, plain.symm], fun other => ?_⟩
    simp [readString, escape, same]
  | case7 c rest quote line slash ih =>
    obtain ⟨⟨values, inner, behind'⟩, taken, returned⟩ := bind_eq_ok read
    cases returned
    obtain ⟨own, rfl, rfl, free, same⟩ := ih taken
    refine ⟨c :: own, rfl, rfl, by simp [free, Ne.symm line], fun other => ?_⟩
    rw [List.cons_append, readString.eq_def]
    simp [quote, line, slash, same]

theorem readQuotedCharacter_local {text behind : List Char} {value : Char} {width : Nat}
    (read : readQuotedCharacter text = .ok (value, width, behind)) : Isolates readQuotedCharacter text value width behind := by
  unfold readQuotedCharacter at read
  split at read
  · contradiction
  · split at read
    · contradiction
    · next e rest =>
      split at read
      · contradiction
      · next c escape =>
        cases read
        have plain : e ≠ '\n' := by
          rintro rfl
          contradiction
        exact ⟨['\\', e], rfl, rfl, by simp [plain.symm], fun other => by simp [readQuotedCharacter, escape]⟩
  · next c rest slash =>
    split at read
    · contradiction
    · next plain =>
      cases read
      rw [not_or] at plain
      refine ⟨[value], rfl, rfl, by simp [Ne.symm plain.2], fun other => ?_⟩
      simp [readQuotedCharacter, plain]

theorem readCharacter_local {text behind : List Char} {value : Char} {width : Nat}
    (read : readCharacter text = .ok (value, width, behind)) : Isolates readCharacter text value width behind := by
  unfold readCharacter at read
  obtain ⟨⟨c, inner, rest⟩, taken, closed⟩ := bind_eq_ok read
  obtain ⟨own, rfl, rfl, free, same⟩ := readQuotedCharacter_local taken
  dsimp only at closed
  split at closed
  · next more =>
    cases closed
    refine ⟨own ++ ['\''], by simp, by simp, by simp [free], fun other => ?_⟩
    rw [readCharacter, List.append_assoc, same]
    rfl
  · contradiction

theorem readQuotedType_local {text name behind : List Char} {width : Nat}
    (read : readQuotedType text = .ok (name, width, behind)) : Isolates readQuotedType text name width behind := by
  fun_induction readQuotedType text generalizing name width behind with
  | case1 | case3 => contradiction
  | case2 rest =>
    cases read
    exact ⟨[backtick], rfl, rfl, by decide, fun other => by simp [readQuotedType]⟩
  | case4 c rest quote line ih =>
    obtain ⟨⟨names, inner, behind'⟩, taken, returned⟩ := bind_eq_ok read
    cases returned
    obtain ⟨own, rfl, rfl, free, same⟩ := ih taken
    refine ⟨c :: own, rfl, rfl, by simp [free, Ne.symm line], fun other => ?_⟩
    simp [readQuotedType, quote, line, same]

theorem isWordPart_line : isWordPart '\n' = false := by decide

/-- Another text that may stand behind a token: where neither a word nor a number goes on with the one,
neither goes on with the other. -/
structure Replaces (text other : List Char) : Prop where
  word : Shuns isWordPart text → Shuns isWordPart other
  number : Shuns isDigitOrGap text → Shuns isDigitOrGap other
  point : Pointless text → Pointless other

namespace Replaces

/-- A text may end earlier. -/
theorem shorten {text other : List Char} (among : other <+: text) : Replaces text other := by
  obtain ⟨rest, rfl⟩ := among
  have shuns {p : Char → Bool} (shuns : Shuns p (other ++ rest)) : Shuns p other := by
    cases other with
    | nil => exact shuns_nil p
    | cons c more => exact shuns
  refine ⟨shuns, shuns, ?_⟩
  rintro pointless d more rfl
  exact pointless d (more ++ rest) rfl

/-- The end of a line is as good as the end of a text. -/
theorem line (text more : List Char) : Replaces text (text ++ '\n' :: more) := by
  have shuns {p : Char → Bool} (apart : p '\n' = false) (shuns : Shuns p text) :
      Shuns p (text ++ '\n' :: more) := shuns.append (shuns_cons apart)
  refine ⟨shuns isWordPart_line, shuns (by decide), ?_⟩
  intro pointless d others same
  cases text with
  | nil => simp at same
  | cons point behind =>
    cases behind with
    | nil =>
      cases same
      decide
    | cons digit behind =>
      cases same
      exact pointless d behind rfl

end Replaces

theorem readNumber_decimal {run fraction text : List Char} {d : Char}
    (each : ∀ c ∈ run, isDigitOrGap c = true) (digit : isDigit d = true)
    (others : ∀ c ∈ fraction, isDigitOrGap c = true) (shuns : Shuns isDigitOrGap text) :
    readNumber (run ++ '.' :: d :: (fraction ++ text)) =
      .ok ⟨.decimal (.ofDigits (digitValues run) (digitValues (d :: fraction))),
        run.length + 1 + (d :: fraction).length, text⟩ := by
  have stops : Shuns isDigitOrGap ('.' :: d :: (fraction ++ text)) := shuns_cons (by decide)
  obtain ⟨own, point⟩ := stops.takeWhile each
  have gap : isDigitOrGap d = true := by rw [isDigitOrGap, digit, Bool.true_or]
  obtain ⟨taken, behind⟩ := shuns.takeWhile (List.forall_mem_cons.mpr ⟨gap, others⟩)
  rw [List.cons_append] at taken behind
  unfold readNumber
  rw [own, point]
  simp [digit, taken, behind]

inductive Numeral (first : Char) : List Char → Lexeme → Prop where
  | integer {run text : List Char} (each : ∀ c ∈ first :: run, isDigitOrGap c = true)
      (shuns : Shuns isDigitOrGap text) (pointless : Pointless text)
      (small : Binary64.digitsValue (digitValues (first :: run)) < 0x8000000000000000) :
      Numeral first (run ++ text)
        ⟨.integer (Int64.ofNat (Binary64.digitsValue (digitValues (first :: run)))), run.length + 1, text⟩
  | decimal {run fraction text : List Char} {d : Char} (each : ∀ c ∈ first :: run, isDigitOrGap c = true)
      (digit : isDigit d = true) (others : ∀ c ∈ fraction, isDigitOrGap c = true)
      (shuns : Shuns isDigitOrGap text) :
      Numeral first (run ++ '.' :: d :: (fraction ++ text))
        ⟨.decimal (.ofDigits (digitValues (first :: run)) (digitValues (d :: fraction))),
          run.length + 1 + 1 + (d :: fraction).length, text⟩

theorem shuns_dropWhile (p : Char → Bool) (text : List Char) : Shuns p (text.dropWhile p) := by
  intro c first
  have stops := List.head?_dropWhile_not p text
  rw [Option.mem_def.mp first] at stops
  simpa using stops

theorem readNumber_numeral {first : Char} {rest : List Char} {lexeme : Lexeme}
    (begins : isDigit first = true) (read : readNumber (first :: rest) = .ok lexeme) :
    Numeral first rest lexeme := by
  have gap {d : Char} (digit : isDigit d = true) : isDigitOrGap d = true := by
    rw [isDigitOrGap, digit, Bool.true_or]
  have each (text : List Char) : ∀ c ∈ text.takeWhile isDigitOrGap, isDigitOrGap c = true :=
    fun c member => List.mem_takeWhile_imp member
  have own : ∀ c ∈ first :: rest.takeWhile isDigitOrGap, isDigitOrGap c = true :=
    List.forall_mem_cons.mpr ⟨gap begins, each rest⟩
  have shuns := shuns_dropWhile isDigitOrGap
  have integer (pointless : Pointless (rest.dropWhile isDigitOrGap)) (read : readNumber.integer
      (first :: rest.takeWhile isDigitOrGap) (rest.dropWhile isDigitOrGap) = .ok lexeme) :
      Numeral first rest lexeme := by
    rw [readNumber.integer] at read
    split at read
    · next small =>
      cases read
      have numeral := Numeral.integer own (shuns rest) pointless small
      rwa [List.takeWhile_append_dropWhile] at numeral
    · cases read
  unfold readNumber at read
  dsimp only at read
  rw [List.takeWhile_cons_of_pos (gap begins), List.dropWhile_cons_of_pos (gap begins)] at read
  split at read
  · next d more point =>
    split at read
    · next digit =>
      cases read
      have numeral := Numeral.decimal own digit (each more) (shuns more)
      rw [List.takeWhile_append_dropWhile, ← point, List.takeWhile_append_dropWhile] at numeral
      rwa [List.takeWhile_cons_of_pos (gap digit), List.dropWhile_cons_of_pos (gap digit)]
    · next plain =>
      refine integer ?_ (point ▸ read)
      intro d' more' same
      rw [point] at same
      cases same
      simpa using plain
  · next other => exact integer (fun d more same => absurd same (other d more)) read

theorem line_notin_of_gap {run : List Char} (each : ∀ c ∈ run, isDigitOrGap c = true) : '\n' ∉ run := by
  intro inside
  have member := each _ inside
  contradiction

/-- How far a number reaches. -/
theorem readNumber_local {first : Char} {rest : List Char} {lexeme : Lexeme}
    (begins : isDigit first = true) (read : readNumber (first :: rest) = .ok lexeme) :
    ∃ own, rest = own ++ lexeme.rest ∧ lexeme.width = own.length + 1 ∧ '\n' ∉ first :: own ∧
      ∀ other, Replaces lexeme.rest other →
        readNumber (first :: (own ++ other)) = .ok ⟨lexeme.kind, lexeme.width, other⟩ := by
  cases readNumber_numeral begins read with
  | @integer run text each shuns pointless small =>
    refine ⟨run, rfl, rfl, line_notin_of_gap each, fun other replaces => ?_⟩
    rw [← List.cons_append, readNumber_integer each (replaces.number shuns) (replaces.point pointless),
      readNumber.integer]
    simp only [small, if_true, List.length_cons]
  | @decimal run fraction text d each digit others shuns =>
    refine ⟨run ++ '.' :: d :: fraction, by simp, ?_, ?_, fun other replaces => ?_⟩
    · simp only [List.length_append, List.length_cons]
      omega
    · have gap : isDigitOrGap d = true := by rw [isDigitOrGap, digit, Bool.true_or]
      have own := line_notin_of_gap each
      have tail := line_notin_of_gap (List.forall_mem_cons.mpr ⟨gap, others⟩)
      simp only [List.mem_cons, List.mem_append, not_or] at own tail ⊢
      exact ⟨own.1, own.2, by decide, tail⟩
    · simpa using readNumber_decimal each digit others (replaces.number shuns)

/-- A token is a run of characters on one line. It is the same in front of any text that it does not go
on with. -/
theorem readLexeme_local {c : Char} {rest : List Char} {lexeme : Lexeme}
    (read : readLexeme c rest = .ok lexeme) :
    ∃ own, rest = own ++ lexeme.rest ∧ lexeme.width = own.length + 1 ∧ '\n' ∉ c :: own ∧
      ∀ other, Replaces lexeme.rest other →
        readLexeme c (own ++ other) = .ok ⟨lexeme.kind, lexeme.width, other⟩ := by
  cases readLexeme_lexes read with
  | mark kind mark =>
    have plain : c ≠ '\n' := by
      rintro rfl
      contradiction
    refine ⟨[], rfl, rfl, by simp [plain.symm], fun other _ => ?_⟩
    simp [readLexeme, mark]
  | string value width behind quote taken =>
    subst quote
    obtain ⟨own, rfl, rfl, free, same⟩ := readString_local taken
    refine ⟨own, rfl, rfl, by simp [free], fun other _ => ?_⟩
    simp [readLexeme, Kind.ofMark, same]
  | character value width behind quote taken =>
    subst quote
    obtain ⟨own, rfl, rfl, free, same⟩ := readCharacter_local taken
    refine ⟨own, rfl, rfl, by simp [free], fun other _ => ?_⟩
    simp [readLexeme, Kind.ofMark, same]
  | quotedType name width behind quote taken =>
    subst quote
    obtain ⟨own, rfl, rfl, free, same⟩ := readQuotedType_local taken
    have plain : '\n' ≠ backtick := by decide
    refine ⟨own, rfl, rfl, by simp [free, plain], fun other _ => ?_⟩
    rw [readLexeme, same]
    rfl
  | integer whole digit | decimal whole fraction d more digit =>
    have part : isWordPart c = true :=
      isWordPart_of_isDigitOrGap (by rw [isDigitOrGap, digit, Bool.true_or])
    simp only [readLexeme_of_isWordPart part, digit, if_true] at read ⊢
    exact readNumber_local digit read
  | word start =>
    have part := isWordPart_of_isWordStart start
    refine ⟨rest.takeWhile isWordPart, List.takeWhile_append_dropWhile.symm, rfl, ?_, fun other replaces => ?_⟩
    · rw [List.mem_cons, not_or]
      exact ⟨(ne_of_isWordPart part isWordPart_line).symm, fun inside => by
        simpa [isWordPart_line] using List.mem_takeWhile_imp inside⟩
    · obtain ⟨own, behind⟩ := (replaces.word (shuns_dropWhile isWordPart rest)).takeWhile
        fun c (member : c ∈ rest.takeWhile isWordPart) => List.mem_takeWhile_imp member
      rw [readLexeme_of_isWordPart part, isDigit_of_isWordStart start]
      simp [start, readWord, own, behind]

/-! ## Whole texts -/

theorem readLexeme_shorter {c : Char} {rest : List Char} {lexeme : Lexeme}
    (read : readLexeme c rest = .ok lexeme) : lexeme.rest.length ≤ rest.length := by
  obtain ⟨own, whole, -⟩ := readLexeme_local read
  rw [whole, List.length_append]
  exact Nat.le_add_left _ _

/-- Any fuel that is enough gives the same tokens. -/
theorem tokensFrom_fuel {fuel other : Nat} {place : Position} {text : List Char}
    (enough : text.length ≤ fuel) (enough' : text.length ≤ other) :
    tokensFrom fuel place text = tokensFrom other place text := by
  induction fuel generalizing other place text with
  | zero =>
    rw [List.eq_nil_of_length_eq_zero (Nat.le_zero.mp enough), tokensFrom, tokensFrom]
    rfl
  | succ fuel ih =>
    rcases closing_or_solid text with closing | ⟨gap, c, rest, rfl, trivia, solid⟩
    · rw [tokensFrom, tokensFrom, closing.skip]
    · rw [tokensFrom, tokensFrom, trivia.skip, solid.skip]
      rw [List.length_append, List.length_cons] at enough enough'
      obtain ⟨other, rfl⟩ := Nat.exists_eq_add_of_le' (by omega : 1 ≤ other)
      cases read : readLexeme c rest with
      | error fault => simp only [read]
      | ok lexeme =>
        have shorter := readLexeme_shorter read
        have same : tokensFrom fuel ((place.advance gap).along lexeme.width) lexeme.rest =
            tokensFrom other ((place.advance gap).along lexeme.width) lexeme.rest :=
          ih (by omega) (by omega)
        simp only [read, same]

def tokensAt (place : Position) (text : List Char) : Except SourceError (List Token) :=
  tokensFrom text.length place text

theorem tokenize_eq (source : String) : tokenize source = tokensAt .start source.toList := rfl

theorem tokensAt_trivia {gap : List Char} (trivia : Trivia gap) (place : Position) (text : List Char) :
    tokensAt place (gap ++ text) = tokensAt (place.advance gap) text := by
  rw [tokensAt, tokensAt, tokensFrom, trivia.skip, ← tokensFrom]
  exact tokensFrom_fuel (by simp) (Nat.le_refl _)

theorem tokensAt_closing {gap : List Char} (closing : Closing gap) (place : Position) :
    tokensAt place gap = .ok [⟨.endOfInput, .atEnd (place.advance gap)⟩] := by
  rw [tokensAt, tokensFrom, closing.skip]

theorem tokensAt_token {c : Char} {rest : List Char} {lexeme : Lexeme}
    (read : readLexeme c rest = .ok lexeme) (place : Position) :
    tokensAt place (c :: rest) = (⟨lexeme.kind, .along place lexeme.width⟩ :: ·) <$>
      tokensAt (place.along lexeme.width) lexeme.rest := by
  obtain ⟨blank, slash⟩ := readLexeme_solid read
  have solid : Solid c rest := ⟨blank, fun comment => slash comment.1⟩
  rw [tokensAt, tokensFrom, solid.skip]
  simp only [read, List.length_cons]
  rw [tokensFrom_fuel (readLexeme_shorter read) (Nat.le_refl _), ← tokensAt]
  rfl

theorem tokensAt_fault {c : Char} {rest : List Char} {fault : SourceFault} (solid : Solid c rest)
    (read : readLexeme c rest = .error fault) (place : Position) :
    tokensAt place (c :: rest) = .error ⟨fault, place⟩ := by
  rw [tokensAt, tokensFrom, solid.skip]
  simp only [read]

end Token

end UnitCompiler
