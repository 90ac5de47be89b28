import UnitCompiler.Proofs.Derivation

/-! Reading with one token of lookahead. On tokens that end, a reader takes some of them and leaves the
next one, or it fails at a token; in both cases nothing behind that token has any say, and no end of
input is passed. What is taken has a derivation, and what is read is its tree; what stands before a token
at which a reader fails is the beginning of a derivation. -/

namespace UnitCompiler.Tree

open Token (Kind)
open UnitCompiler.Derivation

variable {α β γ δ ι : Type}

def Ends (tokens : List Token) : Prop := ∃ token ∈ tokens, token.kind = .endOfInput

theorem Ends.cons {tokens : List Token} (ends : Ends tokens) :
    ∃ next behind, tokens = next :: behind := by
  obtain ⟨token, member, -⟩ := ends
  exact List.exists_cons_of_ne_nil (List.ne_nil_of_mem member)

theorem Ends.behind {taken rest : List Token} (ends : Ends (taken ++ rest))
    (inside : ∀ token ∈ taken, token.kind ≠ .endOfInput) : Ends rest := by
  obtain ⟨token, member, last⟩ := ends
  rcases List.mem_append.mp member with before | behind
  · exact absurd last (inside token before)
  · exact ⟨token, behind, last⟩

/-- What a reader makes of some tokens. The reader may depend on a bound, which has to exceed the number
of tokens that are taken; `meaning` relates what is taken, the kind of the next token and what is
read, and `begun` holds of what stands before a token at which the reader fails. -/
inductive Looks (bound : ι → Nat) (run : ι → Reader α) (meaning : List Kind → Kind → α → Prop)
    (begun : List Kind → Prop) (tokens : List Token) : Prop where
  | stops (taken : List Token) (next : Token) (behind : List Token) (value : α)
      (whole : tokens = taken ++ next :: behind)
      (inside : ∀ token ∈ taken, token.kind ≠ .endOfInput)
      (means : meaning (taken.map Token.kind) next.kind value)
      (same : ∀ i more, taken.length < bound i →
        run i (taken ++ next :: more) = .ok (value, next :: more))
  | fails (taken : List Token) (next : Token) (behind : List Token) (expected : Expectation)
      (whole : tokens = taken ++ next :: behind)
      (same : ∀ i more, taken.length < bound i →
        run i (taken ++ next :: more) = unexpected expected (next :: more))
      (viable : begun (taken.map Token.kind))

namespace Looks

variable {bound : ι → Nat} {run : ι → Reader α} {meaning : List Kind → Kind → α → Prop}
  {begun : List Kind → Prop} {tokens : List Token}

/-- Another reader that does the same on the tokens in question. -/
theorem transfer {κ : Type} {bound' : κ → Nat} {run' : κ → Reader α}
    (looks : Looks bound run meaning begun tokens)
    (agrees : ∀ j taken next more behind, tokens = taken ++ next :: behind →
      taken.length < bound' j →
      ∃ i, taken.length < bound i ∧ run' j (taken ++ next :: more) = run i (taken ++ next :: more)) :
    Looks bound' run' meaning begun tokens := by
  cases looks with
  | stops taken next behind value whole inside means same =>
    refine .stops taken next behind value whole inside means fun j more enough => ?_
    obtain ⟨i, enough', equal⟩ := agrees j taken next more behind whole enough
    rw [equal, same i more enough']
  | fails taken next behind expected whole same viable =>
    refine .fails taken next behind expected whole (fun j more enough => ?_) viable
    obtain ⟨i, enough', equal⟩ := agrees j taken next more behind whole enough
    rw [equal, same i more enough']

/-- A smaller bound asks for less. -/
theorem weaken {bound' : ι → Nat} (looks : Looks bound run meaning begun tokens)
    (smaller : ∀ i, bound' i ≤ bound i) : Looks bound' run meaning begun tokens :=
  looks.transfer fun i _ _ _ _ _ enough => ⟨i, Nat.lt_of_lt_of_le enough (smaller i), rfl⟩

/-- A reader without a bound. -/
theorem lift {reader : Reader α} (looks : Looks id (fun _ : Nat => reader) meaning begun tokens) :
    Looks bound (fun _ => reader) meaning begun tokens :=
  looks.transfer fun _ taken _ _ _ _ _ => ⟨taken.length + 1, Nat.lt_succ_self _, rfl⟩

/-- A bound that is the number of tokens exceeds what is taken. -/
theorem counted {count : Nat → Reader α} (looks : Looks id count meaning begun tokens) :
    Looks bound (fun _ tokens => count tokens.length tokens) meaning begun tokens := by
  refine looks.transfer fun _ taken next more _ _ _ => ⟨(taken ++ next :: more).length, ?_, rfl⟩
  simp only [id, List.length_append, List.length_cons]
  omega

/-- Nothing is taken. -/
theorem pure (ends : Ends tokens) (value : α) (means : meaning [] (peek tokens).kind value) :
    Looks bound (fun _ tokens => .ok (value, tokens)) meaning begun tokens := by
  obtain ⟨next, behind, rfl⟩ := ends.cons
  exact .stops [] next behind value rfl (by simp) means fun _ _ _ => rfl

/-- The first token is taken, and what happens behind it is known. -/
theorem descend {κ : Type} {bound' : κ → Nat} {run' : κ → Reader α} {next : Token}
    {behind : List Token} (proper : next.kind ≠ .endOfInput)
    (later : Looks bound' run' (fun kinds => meaning (next.kind :: kinds))
      (fun kinds => begun (next.kind :: kinds)) behind)
    (agrees : ∀ i n more, n + 1 < bound i →
      ∃ j, n < bound' j ∧ run i (next :: more) = run' j more) :
    Looks bound run meaning begun (next :: behind) := by
  cases later with
  | stops taken last rest value whole inside means same =>
    refine .stops (next :: taken) last rest value (by rw [whole]; rfl) ?_ means ?_
    · simpa [proper] using inside
    · intro i more enough
      obtain ⟨j, enough', equal⟩ := agrees i taken.length (taken ++ last :: more) enough
      rw [List.cons_append, equal, same j more enough']
  | fails taken last rest expected whole same viable =>
    refine .fails (next :: taken) last rest expected (by rw [whole]; rfl) ?_ viable
    intro i more enough
    obtain ⟨j, enough', equal⟩ := agrees i taken.length (taken ++ last :: more) enough
    rw [List.cons_append, equal, same j more enough']

theorem step {run' : ι → Reader α} {next : Token} {behind : List Token}
    (proper : next.kind ≠ .endOfInput)
    (later : Looks bound run' (fun kinds => meaning (next.kind :: kinds))
      (fun kinds => begun (next.kind :: kinds)) behind)
    (agrees : ∀ i more, run i (next :: more) = run' i more) :
    Looks bound run meaning begun (next :: behind) :=
  later.descend proper fun i _ more enough => ⟨i, by omega, agrees i more⟩

/-- A reader that does like another one when it sees the first token. -/
theorem congr {run' : ι → Reader α} {next : Token} {behind : List Token}
    (looks : Looks bound run' meaning begun (next :: behind))
    (agrees : ∀ i more, run i (next :: more) = run' i (next :: more)) :
    Looks bound run meaning begun (next :: behind) := by
  refine looks.transfer fun i taken last more rest whole enough => ⟨i, enough, ?_⟩
  cases taken with
  | nil =>
    obtain ⟨rfl, -⟩ := List.cons.inj whole
    exact agrees i more
  | cons first taken =>
    obtain ⟨rfl, -⟩ := List.cons.inj whole
    exact agrees i _

/-- The first token is the wrong one. -/
theorem refuse {next : Token} {behind : List Token} (expected : Expectation) (viable : begun [])
    (same : ∀ i more, 0 < bound i → run i (next :: more) = unexpected expected (next :: more)) :
    Looks bound run meaning begun (next :: behind) :=
  .fails [] next behind expected rfl (fun i more enough => same i more enough) viable

/-- One reader behind another, for which the tokens that are taken already do not count. -/
theorem bind {first : ι → Reader α} {second : ι → Parsed α → Except SourceError (Parsed β)}
    {meaning' : List Kind → Kind → β → Prop} {begun' : List Kind → Prop} (ends : Ends tokens)
    (head : Looks bound first meaning begun tokens) (begins : ∀ kinds, begun kinds → begun' kinds)
    (tail : ∀ kinds value, ∀ rest, rest.length ≤ tokens.length → Ends rest →
      meaning kinds (peek rest).kind value → (kinds ≠ [] → rest.length < tokens.length) →
      Looks (fun i => bound i - kinds.length) (fun i rest => second i (value, rest))
        (fun more => meaning' (kinds ++ more)) (fun more => begun' (kinds ++ more)) rest) :
    Looks bound (fun i tokens => first i tokens >>= second i) meaning' begun' tokens := by
  cases head with
  | fails taken next behind expected whole same viable =>
    refine .fails taken next behind expected whole (fun i more enough => ?_) (begins _ viable)
    rw [same i more enough]
    rfl
  | stops taken next behind value whole inside means same =>
    have rest : Ends (next :: behind) := (whole ▸ ends).behind inside
    have shorter : taken.map Token.kind ≠ [] → (next :: behind).length < tokens.length := by
      intro some
      have long := List.length_pos_iff.mpr some
      rw [List.length_map] at long
      rw [whole, List.length_append]
      omega
    have short : (next :: behind).length ≤ tokens.length := by
      rw [whole, List.length_append]
      omega
    -- What the second reader sees begins with the token that the first one has left.
    have front (taken' : List Token) (next' : Token) (behind' more : List Token)
        (split : next :: behind = taken' ++ next' :: behind') :
        ∃ more', taken' ++ next' :: more = next :: more' := by
      cases taken' with
      | nil =>
        obtain ⟨rfl, -⟩ := List.cons.inj split
        exact ⟨more, rfl⟩
      | cons token taken' =>
        obtain ⟨rfl, -⟩ := List.cons.inj split
        exact ⟨_, rfl⟩
    cases tail _ value (next :: behind) short rest means shorter with
    | stops taken' next' behind' value' whole' inside' means' same' =>
      refine .stops (taken ++ taken') next' behind' value' ?_ ?_ ?_ ?_
      · rw [whole, whole', List.append_assoc]
      · intro token member
        rcases List.mem_append.mp member with before | after
        · exact inside token before
        · exact inside' token after
      · rw [List.map_append]
        exact means'
      · intro i more enough
        rw [List.length_append] at enough
        obtain ⟨more', seen⟩ := front taken' next' behind' more whole'
        rw [List.append_assoc, seen, same i more' (by omega), ← seen]
        exact same' i more (by rw [List.length_map]; omega)
    | fails taken' next' behind' expected whole' same' viable' =>
      refine .fails (taken ++ taken') next' behind' expected ?_ ?_ (by rwa [List.map_append])
      · rw [whole, whole', List.append_assoc]
      · intro i more enough
        rw [List.length_append] at enough
        obtain ⟨more', seen⟩ := front taken' next' behind' more whole'
        rw [List.append_assoc, seen, same i more' (by omega), ← seen]
        exact same' i more (by rw [List.length_map]; omega)

end Looks

/-! ## Meanings -/

/-- What is taken is derived, and what is read is the tree of the derivation, spans ignored. -/
def Stands (yield : δ → List Kind) (bare : α → γ) (tree : δ → γ) (kinds : List Kind) (_ : Kind)
    (value : α) : Prop :=
  ∃ d, kinds = yield d ∧ bare value = tree d

/-- Kinds that are enough to complete whatever has begun. -/
def fillers : List Kind :=
  [.identifier "x", .importWord, .fnWord, .openParen, .closeParen, .openBrace, .closeBrace, .closeBracket]

/-- The beginning of a derivation, which some fillers complete. -/
def Begun (yield : δ → List Kind) (kinds : List Kind) : Prop :=
  ∃ d more, yield d = kinds ++ more ∧ more ⊆ fillers

/-- A part that has begun begins the whole, if fillers complete the whole behind the part. -/
theorem Begun.inside {δ' : Type} {yield : δ → List Kind} {outer : δ' → List Kind} {kinds word : List Kind}
    (begun : Begun yield kinds) (back : List Kind) (filled : back ⊆ fillers)
    (fits : ∀ d more, yield d = kinds ++ more → ∃ d', outer d' = word ++ (more ++ back)) :
    Begun outer word := by
  obtain ⟨d, more, yielded, fill⟩ := begun
  obtain ⟨d', whole⟩ := fits d more yielded
  exact ⟨d', more ++ back, whole, List.append_subset.mpr ⟨fill, filled⟩⟩

def Reads (reader : Reader α) (yield : δ → List Kind) (bare : α → γ) (tree : δ → γ) : Prop :=
  ∀ tokens, Ends tokens → Looks id (fun _ : Nat => reader) (Stands yield bare tree) (Begun yield) tokens

/-- The tokens behind one that is no end. -/
theorem Ends.tail {next : Token} {behind : List Token} (ends : Ends (next :: behind))
    (proper : next.kind ≠ .endOfInput) : Ends behind := by
  obtain ⟨token, member, last⟩ := ends
  rcases List.mem_cons.mp member with rfl | later
  · exact absurd last proper
  · exact ⟨token, later, last⟩

theorem expect_here (next : Token) (more : List Token) :
    expect next.kind (next :: more) = .ok (next.span, more) := by
  simp [expect, accept?, peek]

theorem expect_looks {kind : Kind} (proper : kind ≠ .endOfInput) {tokens : List Token}
    (ends : Ends tokens) :
    Looks id (fun _ : Nat => expect kind) (fun kinds _ _ => kinds = [kind]) (· = []) tokens := by
  obtain ⟨next, behind, rfl⟩ := ends.cons
  by_cases here : next.kind = kind
  · subst here
    exact .step proper (.pure (ends.tail proper) next.span rfl) fun _ more => expect_here next more
  · refine .refuse (.token kind) rfl fun _ more _ => ?_
    simp [expect, accept?, here]

theorem identifier_reads :
    Reads identifier (fun name => [.identifier name]) Prod.fst id := by
  intro tokens ends
  obtain ⟨⟨kind, span⟩, behind, rfl⟩ := ends.cons
  cases kind with
  | identifier name =>
    exact .step (by simp) (.pure (ends.tail (by simp)) (name, span) ⟨name, rfl, rfl⟩) fun _ _ => rfl
  | text | character | integer | decimal | quotedType | importWord | fnWord | asWord | trueWord
  | falseWord | nullWord | openParen | closeParen | openBrace | closeBrace | openBracket
  | closeBracket | comma | colon | semicolon | dot | equals | endOfInput =>
    exact .refuse .identifier ⟨"x", [.identifier "x"], rfl, by simp [fillers]⟩ fun _ _ _ => rfl

/-! ## Rows -/

def StandsRow (separator : Kind) (yield : δ → List Kind) (bare : α → γ) (tree : δ → γ)
    (kinds : List Kind) (_ : Kind) (values : List α) : Prop :=
  ∃ list : List δ, list ≠ [] ∧ kinds = separatedBy separator (list.map yield) ∧
    values.map bare = list.map tree

def BegunRow (separator : Kind) (yield : δ → List Kind) : List Kind → Prop :=
  Begun fun list : {list : List δ // list ≠ []} => separatedBy separator (list.1.map yield)

/-- What follows the first item of a row, where `count` more items may be read. -/
def rowAfter (separator : Kind) (item : Reader α) (count : Nat) (first : α × List Token) :
    Except SourceError (Parsed (List α)) :=
  match accept? separator first.2 with
  | some more => separated separator item count more >>= fun r => return (first.1 :: r.1, r.2)
  | none => return ([first.1], first.2)

theorem separated_looks {bound : ι → Nat} {item : ι → Reader α} {yield : δ → List Kind}
    {bare : α → γ} {tree : δ → γ} {separator : Kind} (proper : separator ≠ .endOfInput)
    {tokens : List Token} (ends : Ends tokens)
    (reads : ∀ rest, rest.length ≤ tokens.length → Ends rest →
      Looks bound item (Stands yield bare tree) (Begun yield) rest) :
    Looks (fun p : ι × Nat => min (bound p.1) p.2)
      (fun p => separated separator (item p.1) p.2) (StandsRow separator yield bare tree)
      (BegunRow separator yield) tokens := by
  induction size : tokens.length using Nat.strongRecOn generalizing tokens with
  | ind size ih =>
  subst size
  have first : Looks (fun p : ι × Nat => min (bound p.1) p.2) (fun p => item p.1)
      (Stands yield bare tree) (Begun yield) tokens := by
    refine (reads tokens (Nat.le_refl _) ends).transfer fun p taken next more behind _ enough => ?_
    exact ⟨p.1, by omega, rfl⟩
  have unfolded : Looks (fun p : ι × Nat => min (bound p.1) p.2)
      (fun p tokens => item p.1 tokens >>= rowAfter separator (item p.1) (p.2 - 1))
      (StandsRow separator yield bare tree) (BegunRow separator yield) tokens := by
    refine first.bind ends (fun kinds begun => ?_) fun kinds value rest short restEnds means _ =>
      Looks.weaken ?_ fun _ => Nat.sub_le _ _
    · exact begun.inside [] (by simp) fun d more yielded =>
        ⟨⟨[d], by simp⟩, by simp [separatedBy, yielded]⟩
    obtain ⟨d, rfl, stands⟩ := means
    obtain ⟨next, behind, rfl⟩ := restEnds.cons
    by_cases more : separator = next.kind
    · subst more
      have behindEnds : Ends behind := restEnds.tail proper
      have others := ih behind.length (Nat.lt_of_succ_le short) behindEnds
        (fun rest shorter => reads rest (by simp at short; omega)) rfl
      have row : Looks (fun p : ι × Nat => min (bound p.1) p.2)
          (fun p more => separated next.kind (item p.1) p.2 more >>= fun r =>
            return (value :: r.1, r.2))
          (fun kinds => StandsRow next.kind yield bare tree (yield d ++ next.kind :: kinds))
          (fun kinds => BegunRow next.kind yield (yield d ++ next.kind :: kinds)) behind := by
        refine others.bind behindEnds (fun kinds begun => ?_) ?_
        · refine begun.inside [] (by simp) ?_
          rintro ⟨list, nonempty⟩ more yielded
          refine ⟨⟨d :: list, by simp⟩, ?_⟩
          obtain ⟨second, others, rfl⟩ := List.exists_cons_of_ne_nil nonempty
          simp_all [separatedBy]
        · rintro kinds values rest - restEnds' ⟨list, nonempty, rfl, same⟩ -
          refine .pure restEnds' (value :: values) ⟨d :: list, by simp, ?_, by simp [stands, same]⟩
          obtain ⟨second, others, rfl⟩ := List.exists_cons_of_ne_nil nonempty
          simp [separatedBy]
      refine row.descend proper fun p n rest enough => ⟨(p.1, p.2 - 1), ?_, ?_⟩
      · simp only [Nat.lt_min] at enough ⊢
        omega
      · simp [rowAfter, accept?]
    · refine Looks.congr (.pure restEnds [value] ⟨[d], by simp, by simp [separatedBy],
        by simp [stands]⟩) fun p rest => ?_
      simp [rowAfter, accept?, Ne.symm more]
      rfl
  -- A count that exceeds the number of tokens taken is not zero.
  refine unfolded.transfer fun p taken next more behind _ enough => ?_
  obtain ⟨i, count⟩ := p
  cases count with
  | zero => simp at enough
  | succ count => exact ⟨(i, count + 1), enough, rfl⟩

/-- A row that may be empty, and the kind that closes it. -/
def StandsEnclosed (close : Kind) (yield : δ → List Kind) (bare : α → γ) (tree : δ → γ)
    (kinds : List Kind) (_ : Kind) (value : List α × Span) : Prop :=
  ∃ list : List δ, kinds = separatedBy .comma (list.map yield) ++ [close] ∧
    value.1.map bare = list.map tree

/-- The beginning of a row that may be empty, with the kind that closes it. -/
def BegunEnclosed (close : Kind) (yield : δ → List Kind) : List Kind → Prop :=
  Begun fun list : List δ => separatedBy .comma (list.map yield) ++ [close]

theorem enclosed_looks {bound : ι → Nat} {item : ι → Reader α} {yield : δ → List Kind}
    {bare : α → γ} {tree : δ → γ} {close : Kind} (proper : close ≠ .endOfInput) (fill : close ∈ fillers)
    {tokens : List Token} (ends : Ends tokens)
    (reads : ∀ rest, rest.length ≤ tokens.length → Ends rest →
      Looks bound item (Stands yield bare tree) (Begun yield) rest) :
    Looks bound (fun i => enclosed (item i) close) (StandsEnclosed close yield bare tree)
      (BegunEnclosed close yield) tokens := by
  obtain ⟨next, behind, rfl⟩ := ends.cons
  by_cases here : close = next.kind
  · subst here
    refine .step proper (.pure (ends.tail proper) ([], next.span) ⟨[], rfl, rfl⟩) fun i more => ?_
    simp only [enclosed, peek, List.headD_cons, if_true]
    change (expect next.kind (next :: more) >>= _) = _
    rw [expect_here]
    rfl
  · have row : Looks bound (fun i tokens => separated .comma (item i) tokens.length tokens)
        (StandsRow .comma yield bare tree) (BegunRow .comma yield) (next :: behind) := by
      refine (separated_looks (by simp) ends reads).transfer
        fun i taken last more rest _ enough => ⟨(i, (taken ++ last :: more).length), ?_, rfl⟩
      simp only [List.length_append, List.length_cons, Nat.lt_min]
      omega
    have closed : Looks bound
        (fun i tokens => separated .comma (item i) tokens.length tokens >>= fun q =>
          expect close q.2 >>= fun r => return ((q.1, r.1), r.2))
        (StandsEnclosed close yield bare tree) (BegunEnclosed close yield) (next :: behind) := by
      refine row.bind ends (fun kinds begun => ?_) ?_
      · exact begun.inside [close] (by simpa using fill) fun list more yielded =>
          ⟨list.1, by simp [yielded]⟩
      rintro kinds values rest - restEnds ⟨list, -, rfl, same⟩ -
      dsimp only
      refine (expect_looks proper restEnds).lift.bind restEnds ?_ ?_
      · rintro _ rfl
        exact ⟨list, [close], by simp, by simpa using fill⟩
      rintro kinds span rest - restEnds' rfl -
      exact .pure restEnds' (values, span) ⟨list, by simp, same⟩
    refine closed.congr fun i more => ?_
    simp [enclosed, peek, Ne.symm here]

/-! ## Paths and imports -/

/-- A row of items that are read without a bound. -/
theorem row_reads {item : Reader α} {yield : δ → List Kind} {bare : α → γ} {tree : δ → γ}
    {separator : Kind} (proper : separator ≠ .endOfInput) (reads : Reads item yield bare tree)
    (tokens : List Token) (ends : Ends tokens) :
    Looks id (fun _ : Nat => fun tokens => separated separator item tokens.length tokens)
      (StandsRow separator yield bare tree) (BegunRow separator yield) tokens := by
  refine (separated_looks proper ends fun rest _ => reads rest).transfer
    fun i taken next more behind _ enough => ⟨(i, (taken ++ next :: more).length), ?_, rfl⟩
  simp only [List.length_append, List.length_cons, Nat.lt_min, id] at enough ⊢
  omega

theorem path_reads : Reads path (Names.yield .dot) Prod.fst Names.dotted := by
  intro tokens ends
  refine (row_reads (by simp) identifier_reads tokens ends).bind ends (fun kinds begun => ?_) ?_
  · exact begun.inside [] (by simp) fun list more yielded =>
      ⟨⟨list.1, list.2⟩, by simpa [Names.yield] using yielded⟩
  rintro kinds names rest - restEnds ⟨list, nonempty, rfl, same⟩ -
  refine .pure restEnds _ ⟨⟨list, nonempty⟩, ?_, ?_⟩
  · simp [Names.yield]
  · rw [List.map_id] at same
    simp [Names.dotted, same]

/-- A part that is there if a kind of its own comes first. -/
def optional (start : Kind) (inner : Reader α) : Reader (Option α) := fun tokens =>
  match accept? start tokens with
  | none => .ok (none, tokens)
  | some more => inner more >>= fun q => return (some q.1, q.2)

theorem optional_reads {inner : Reader α} {start : Kind} {part : Option δ → List Kind}
    {yield : δ → List Kind} {bare : α → γ} {tree : δ → γ} (proper : start ≠ .endOfInput)
    (reads : Reads inner yield bare tree) (nothing : part none = [])
    (something : ∀ d, part (some d) = start :: yield d) :
    Reads (optional start inner) part (Option.map bare) (Option.map tree) := by
  intro tokens ends
  obtain ⟨next, behind, rfl⟩ := ends.cons
  by_cases here : start = next.kind
  · subst here
    have behindEnds := ends.tail proper
    have rest : Looks id (fun _ : Nat => fun more => inner more >>= fun q => return (some q.1, q.2))
        (fun kinds => Stands part (Option.map bare) (Option.map tree) (next.kind :: kinds))
        (fun kinds => Begun part (next.kind :: kinds)) behind := by
      refine (reads behind behindEnds).bind behindEnds (fun kinds begun => ?_) ?_
      · exact begun.inside [] (by simp) fun d more yielded => ⟨some d, by simp [something, yielded]⟩
      rintro kinds value rest - restEnds ⟨d, rfl, same⟩ -
      exact .pure restEnds (some value) ⟨some d, by simp [something], by simp [same]⟩
    exact rest.step proper fun _ more => by simp [optional, accept?]
  · exact Looks.congr (.pure ends none ⟨none, nothing.symm, rfl⟩) fun _ more => by
      simp [optional, accept?, Ne.symm here]

def nameRow : Reader (List String × Span) := fun tokens => do
  let (names, rest) ← separated .comma identifier tokens.length tokens
  let (close, rest) ← expect .closeBracket rest
  return ((names.map Prod.fst, close), rest)

theorem importNames_eq (tokens : List Token) :
    importNames tokens = optional .openBracket nameRow tokens := by
  unfold importNames optional
  cases accept? .openBracket tokens <;> simp [nameRow]

theorem importAlias_eq (tokens : List Token) :
    importAlias tokens = optional .asWord identifier tokens := by
  unfold importAlias optional
  cases accept? .asWord tokens <;> rfl

theorem importNames_reads :
    Reads importNames Derivation.ImportLine.bracketed (Option.map Prod.fst) (Option.map Names.list) := by
  have inner : Reads nameRow (fun names : Names => names.yield .comma ++ [Kind.closeBracket]) Prod.fst
      Names.list := by
    intro tokens ends
    refine (row_reads (by simp) identifier_reads tokens ends).bind ends (fun kinds begun => ?_) ?_
    · refine begun.inside [.closeBracket] (by simp [fillers]) fun list more yielded =>
        ⟨⟨list.1, list.2⟩, ?_⟩
      simp [Names.yield, yielded]
    rintro kinds names rest - restEnds ⟨list, nonempty, rfl, same⟩ -
    dsimp only
    refine (expect_looks (by simp) restEnds).lift.bind restEnds ?_ ?_
    · rintro _ rfl
      exact ⟨⟨list, nonempty⟩, [.closeBracket], by simp [Names.yield], by simp [fillers]⟩
    rintro kinds close rest - restEnds' rfl -
    exact .pure restEnds' (names.map Prod.fst, close) ⟨⟨list, nonempty⟩, rfl, by simpa using same⟩
  rw [funext importNames_eq]
  exact optional_reads (by simp) inner rfl fun _ => rfl

theorem importAlias_reads :
    Reads importAlias Derivation.ImportLine.aliased (Option.map Prod.fst) (Option.map id) := by
  rw [funext importAlias_eq]
  exact optional_reads (by simp) identifier_reads rfl fun _ => rfl

/-- A semicolon is skipped if there is one. -/
theorem skipSemicolon_looks {bound : ι → Nat} {meaning : List Kind → Kind → α → Prop}
    {begun : List Kind → Prop} {tokens : List Token} (ends : Ends tokens) (value : α)
    (means : ∀ semicolon next, meaning (ending semicolon) next value) :
    Looks bound (fun _ tokens => .ok (value, skipSemicolon tokens)) meaning begun tokens := by
  obtain ⟨next, behind, rfl⟩ := ends.cons
  by_cases here : next.kind = .semicolon
  · have proper : next.kind ≠ .endOfInput := by simp [here]
    refine .step proper (.pure (ends.tail proper) value ?_) fun _ more => ?_
    · rw [here]
      exact means true _
    · simp [skipSemicolon, accept?, here]
  · refine Looks.congr (.pure ends value (means false _)) fun _ more => ?_
    simp [skipSemicolon, accept?, here]

theorem importLine_reads :
    Reads importLine Derivation.ImportLine.yield ImportLine.bare Derivation.ImportLine.tree := by
  intro tokens ends
  refine (expect_looks (by simp) ends).bind ends ?_ ?_
  · rintro _ rfl
    exact ⟨⟨⟨["x"], by simp⟩, none, none, false⟩, [.importWord, .identifier "x"], rfl, by simp [fillers]⟩
  rintro _ start rest - ends rfl -
  refine (path_reads rest ends).lift.bind ends (fun kinds begun => ?_) ?_
  · exact begun.inside [] (by simp) fun path more yielded =>
      ⟨⟨path, none, none, false⟩, by simp [Derivation.ImportLine.yield, Derivation.ImportLine.bracketed,
        Derivation.ImportLine.aliased, ending, yielded]⟩
  rintro _ path rest - ends ⟨path', rfl, samePath⟩ -
  refine (importNames_reads rest ends).lift.bind ends (fun kinds begun => ?_) ?_
  · exact begun.inside [] (by simp) fun names more yielded =>
      ⟨⟨path', names, none, false⟩, by
        simp [Derivation.ImportLine.yield, Derivation.ImportLine.aliased, ending, yielded]⟩
  rintro _ names rest - ends ⟨names', rfl, sameNames⟩ -
  refine (importAlias_reads rest ends).lift.bind ends (fun kinds begun => ?_) ?_
  · exact begun.inside [] (by simp) fun shortName more yielded =>
      ⟨⟨path', names', shortName, false⟩, by simp [Derivation.ImportLine.yield, ending, yielded]⟩
  rintro _ shortName rest - ends ⟨shortName', rfl, sameAlias⟩ -
  refine skipSemicolon_looks ends _ fun semicolon _ => ?_
  refine ⟨⟨path', names', shortName', semicolon⟩, by simp [Derivation.ImportLine.yield], ?_⟩
  simp [ImportLine.bare, Derivation.ImportLine.tree, samePath, ← sameNames, sameAlias]

/-! ## Expressions -/

abbrev StandsExpr : List Kind → Kind → Expr → Prop :=
  Stands Derivation.Expr.yield Expr.bare Derivation.Expr.tree

/-- A token that is an expression of its own. -/
theorem constant_looks {next : Token} {behind : List Token} (ends : Ends (next :: behind))
    (value : Expr) (constant : Constant) (kind : constant.kind = next.kind)
    (bare : value.bare = constant.tree)
    (agrees : ∀ fuel more, expr fuel (next :: more) = .ok (value, more)) :
    Looks id expr StandsExpr (Begun Derivation.Expr.yield) (next :: behind) := by
  have proper : next.kind ≠ .endOfInput := by
    intro last
    have opened := constant.opens
    rw [kind, last] at opened
    contradiction
  refine .step proper (.pure (ends.tail proper) value ⟨.constant constant, ?_, ?_⟩) agrees
  · simp [Derivation.Expr.yield, kind]
  · rw [bare, Derivation.Expr.tree]

/-- What becomes of a name, which the token behind it decides. -/
def nameAfter (name : String) (span : Span) (fuel : Nat) (rest : List Token) :
    Except SourceError (Parsed Expr) :=
  match accept? .openParen rest, fuel with
  | some rest, fuel + 1 => enclosed (expr fuel) .closeParen rest >>= fun r =>
    return (.call name r.1.1 (span.upTo r.1.2), r.2)
  | _, _ => .ok (.name name span, rest)

theorem expr_looks (tokens : List Token) (ends : Ends tokens) :
    Looks id expr StandsExpr (Begun Derivation.Expr.yield) tokens := by
  induction size : tokens.length using Nat.strongRecOn generalizing tokens with
  | ind size ih =>
  subst size
  obtain ⟨⟨kind, span⟩, behind, rfl⟩ := ends.cons
  cases kind with
  | identifier name =>
    have behindEnds := ends.tail (by simp)
    have rest : Looks id (nameAfter name span) (fun kinds => StandsExpr (.identifier name :: kinds))
        (fun kinds => Begun Derivation.Expr.yield (.identifier name :: kinds)) behind := by
      obtain ⟨next, rest, rfl⟩ := behindEnds.cons
      by_cases call : .openParen = next.kind
      · have proper : next.kind ≠ .endOfInput := by simp [← call]
        have restEnds := behindEnds.tail proper
        have closes : Kind.closeParen ≠ .endOfInput := by simp
        have arguments := enclosed_looks closes (by simp [fillers]) restEnds fun more shorter moreEnds =>
          ih more.length (by simp only [List.length_cons]; omega) more moreEnds rfl
        have whole : Looks id
            (fun fuel rest => enclosed (expr fuel) .closeParen rest >>= fun r =>
              return (Expr.call name r.1.1 (span.upTo r.1.2), r.2))
            (fun kinds => StandsExpr (.identifier name :: next.kind :: kinds))
            (fun kinds => Begun Derivation.Expr.yield (.identifier name :: next.kind :: kinds)) rest := by
          refine arguments.bind restEnds (fun kinds begun => ?_) ?_
          · exact begun.inside [] (by simp) fun list more yielded =>
              ⟨.call name list, by simp [Derivation.Expr.yield, ← call, yielded]⟩
          rintro kinds ⟨arguments, close⟩ rest - ends ⟨list, rfl, same⟩ -
          refine .pure ends (Expr.call name arguments (span.upTo close)) ⟨.call name list, ?_, ?_⟩
          · simp [Derivation.Expr.yield, ← call]
          · simpa [Expr.bare, Derivation.Expr.tree] using same
        refine whole.descend proper fun fuel n more enough => ?_
        cases fuel with
        | zero => simp at enough
        | succ fuel => exact ⟨fuel, by simpa using enough, by simp [nameAfter, accept?, ← call]⟩
      · refine Looks.congr (.pure behindEnds (.name name span) ⟨.name name, ?_, ?_⟩) fun fuel more => ?_
        · simp [Derivation.Expr.yield]
        · simp [Expr.bare, Derivation.Expr.tree]
        · simp [nameAfter, accept?, Ne.symm call]
    refine rest.step (by simp) fun fuel more => ?_
    unfold expr
    rfl
  | text value =>
    exact constant_looks ends (.literal (.string value) span) (.value (.string value)) rfl
      (by rw [Expr.bare, Constant.tree]) fun fuel more => by unfold expr; rfl
  | character value =>
    exact constant_looks ends (.literal (.char value) span) (.value (.char value)) rfl
      (by rw [Expr.bare, Constant.tree]) fun fuel more => by unfold expr; rfl
  | integer value =>
    exact constant_looks ends (.literal (.int value) span) (.value (.int value)) rfl
      (by rw [Expr.bare, Constant.tree]) fun fuel more => by unfold expr; rfl
  | decimal value =>
    exact constant_looks ends (.literal (.decimal value) span) (.value (.decimal value)) rfl
      (by rw [Expr.bare, Constant.tree]) fun fuel more => by unfold expr; rfl
  | trueWord =>
    exact constant_looks ends (.literal (.bool true) span) (.value (.bool true)) rfl
      (by rw [Expr.bare, Constant.tree]) fun fuel more => by unfold expr; rfl
  | falseWord =>
    exact constant_looks ends (.literal (.bool false) span) (.value (.bool false)) rfl
      (by rw [Expr.bare, Constant.tree]) fun fuel more => by unfold expr; rfl
  | nullWord =>
    exact constant_looks ends (.null span) .null rfl (by rw [Expr.bare, Constant.tree])
      fun fuel more => by unfold expr; rfl
  | quotedType | importWord | fnWord | asWord | openParen | closeParen | openBrace | closeBrace
  | openBracket | closeBracket | comma | colon | semicolon | dot | equals | endOfInput =>
    exact .refuse .expression ⟨.name "x", [.identifier "x"], by simp [Derivation.Expr.yield], by simp [fillers]⟩
      fun fuel more _ => by unfold expr; rfl

/-- An expression that is read with as much depth as there are tokens. -/
theorem expr_reads : Reads (fun tokens => expr tokens.length tokens) Derivation.Expr.yield Expr.bare
    Derivation.Expr.tree := by
  intro tokens ends
  exact (expr_looks tokens ends).counted

theorem statement_reads : Reads statement Statement.yield Expr.bare (·.expr.tree) := by
  intro tokens ends
  refine (expr_reads tokens ends).bind ends (fun kinds begun => ?_) ?_
  · exact begun.inside [] (by simp) fun d more yielded =>
      ⟨⟨d, false⟩, by simp [Statement.yield, ending, yielded]⟩
  rintro _ value rest - ends ⟨d, rfl, same⟩ -
  exact skipSemicolon_looks ends value fun semicolon _ => ⟨⟨d, semicolon⟩, rfl, same⟩

/-! ## Functions -/

theorem typeName_reads :
    Reads typeName Derivation.TypeName.yield TypeName.bare Derivation.TypeName.tree := by
  intro tokens ends
  obtain ⟨⟨kind, span⟩, behind, rfl⟩ := ends.cons
  cases kind with
  | quotedType name =>
    exact .step (by simp) (.pure (ends.tail (by simp)) ⟨name, span⟩ ⟨.quoted name, rfl, rfl⟩)
      fun _ _ => rfl
  | identifier | text | character | integer | decimal | importWord | fnWord | asWord | trueWord
  | falseWord | nullWord | openParen | closeParen | openBrace | closeBrace | openBracket
  | closeBracket | comma | colon | semicolon | dot | equals | endOfInput =>
    have named : Looks id (fun _ : Nat => fun tokens => path tokens >>= fun r =>
        return (⟨r.1.1, r.1.2⟩, r.2))
        (Stands Derivation.TypeName.yield TypeName.bare Derivation.TypeName.tree)
        (Begun Derivation.TypeName.yield) _ :=
      (path_reads _ ends).bind ends (fun kinds begun => begun.inside [] (by simp) fun names more yielded =>
          ⟨.path names, by simp [Derivation.TypeName.yield, yielded]⟩) (by
        rintro _ ⟨name, span⟩ rest - ends ⟨names, rfl, same⟩ -
        refine .pure ends (TypeName.mk name span) ⟨.path names, by simp [Derivation.TypeName.yield], ?_⟩
        simpa [TypeName.bare, Derivation.TypeName.tree] using same)
    exact named.congr fun _ _ => rfl

theorem paramType_eq (tokens : List Token) : paramType tokens = optional .colon typeName tokens := by
  unfold paramType optional
  cases accept? .colon tokens <;> rfl

theorem paramDefault_eq (tokens : List Token) :
    paramDefault tokens = optional .equals (fun more => expr more.length more) tokens := by
  unfold paramDefault optional
  cases accept? .equals tokens <;> rfl

theorem paramType_reads : Reads paramType Derivation.Param.typed (Option.map TypeName.bare)
    (Option.map Derivation.TypeName.tree) := by
  rw [funext paramType_eq]
  exact optional_reads (by simp) typeName_reads rfl fun _ => rfl

theorem paramDefault_reads : Reads paramDefault Derivation.Param.defaulted (Option.map Expr.bare)
    (Option.map Derivation.Expr.tree) := by
  rw [funext paramDefault_eq]
  exact optional_reads (by simp) expr_reads rfl fun _ => rfl

theorem param_reads : Reads param Derivation.Param.yield Param.bare Derivation.Param.tree := by
  intro tokens ends
  refine (identifier_reads tokens ends).bind ends (fun kinds begun => ?_) ?_
  · exact begun.inside [] (by simp) fun name more yielded => ⟨⟨name, none, none⟩, by
      simp [Derivation.Param.yield, Derivation.Param.typed, Derivation.Param.defaulted, yielded]⟩
  rintro _ ⟨name, start⟩ rest - ends ⟨_, rfl, rfl⟩ -
  refine (paramType_reads rest ends).lift.bind ends (fun kinds begun => ?_) ?_
  · exact begun.inside [] (by simp) fun type more yielded => ⟨⟨name, type, none⟩, by
      simp [Derivation.Param.yield, Derivation.Param.defaulted, yielded]⟩
  rintro _ type rest - ends ⟨type', rfl, sameType⟩ -
  refine (paramDefault_reads rest ends).lift.bind ends (fun kinds begun => ?_) ?_
  · exact begun.inside [] (by simp) fun value more yielded => ⟨⟨name, type', value⟩, by
      simp [Derivation.Param.yield, yielded]⟩
  rintro _ value rest - ends ⟨value', rfl, sameValue⟩ -
  refine .pure ends _ ⟨⟨name, type', value'⟩, by simp [Derivation.Param.yield], ?_⟩
  simp [Param.bare, Derivation.Param.tree, sameType, sameValue]

/-- Repetitions: item after item, until a kind comes that stops them. -/
def StandsRepeated (stop : Kind → Prop) (yield : δ → List Kind) (bare : α → γ) (tree : δ → γ)
    (kinds : List Kind) (next : Kind) (values : List α) : Prop :=
  stop next ∧ ∃ list : List δ, kinds = list.flatMap yield ∧ values.map bare = list.map tree

theorem repeated_looks {run : Nat → Reader (List α)} {item : Reader α} {stop : Kind → Prop}
    {yield : δ → List Kind} {bare : α → γ} {tree : δ → γ} {opening : Kind → Bool}
    (reads : Reads item yield bare tree) (begins : Begins yield opening)
    (halts : ∀ fuel next more, stop next.kind → run fuel (next :: more) = .ok ([], next :: more))
    (turns : ∀ fuel next more, ¬ stop next.kind → run (fuel + 1) (next :: more) = do
      let (first, rest) ← item (next :: more)
      let (others, rest) ← run fuel rest
      return (first :: others, rest))
    (tokens : List Token) (ends : Ends tokens) :
    Looks id run (StandsRepeated stop yield bare tree) (Begun (List.flatMap yield)) tokens := by
  induction size : tokens.length using Nat.strongRecOn generalizing tokens with
  | ind size ih =>
  subst size
  obtain ⟨next, behind, rfl⟩ := ends.cons
  by_cases stopped : stop next.kind
  · exact Looks.congr (.pure ends [] ⟨stopped, [], rfl, rfl⟩) fun fuel more => halts fuel next more stopped
  · have turned : Looks id (fun fuel tokens => do
        let (first, rest) ← item tokens
        let (others, rest) ← run (fuel - 1) rest
        return (first :: others, rest))
        (StandsRepeated stop yield bare tree) (Begun (List.flatMap yield)) (next :: behind) := by
      refine (reads _ ends).lift.bind ends (fun kinds begun => ?_) ?_
      · exact begun.inside [] (by simp) fun d more yielded => ⟨[d], by simp [yielded]⟩
      rintro _ first rest - restEnds ⟨d, rfl, same⟩ shorter
      obtain ⟨kind, kinds, yielded, -⟩ := begins d
      have others := ih rest.length (shorter (by simp [yielded])) rest restEnds rfl
      -- The first item has taken a token, so one round less is enough for the others.
      have fewer : Looks (fun fuel => id fuel - (yield d).length) (fun fuel => run (fuel - 1))
          (StandsRepeated stop yield bare tree) (Begun (List.flatMap yield)) rest := by
        refine others.transfer fun fuel taken _ _ _ _ enough => ⟨fuel - 1, ?_, rfl⟩
        simp only [yielded, List.length_cons, id] at enough ⊢
        omega
      refine fewer.bind restEnds (fun kinds begun => ?_) ?_
      · exact begun.inside [] (by simp) fun list more yielded => ⟨d :: list, by simp [yielded]⟩
      rintro _ values rest - ends ⟨stopped, list, rfl, sameOthers⟩ -
      exact .pure ends (first :: values) ⟨stopped, d :: list, by simp, by simp [same, sameOthers]⟩
    refine turned.transfer fun fuel taken last more rest whole enough => ?_
    cases fuel with
    | zero => simp at enough
    | succ fuel =>
      refine ⟨fuel + 1, enough, ?_⟩
      cases taken with
      | nil =>
        obtain ⟨rfl, -⟩ := List.cons.inj whole
        exact turns fuel next more stopped
      | cons token taken =>
        obtain ⟨rfl, -⟩ := List.cons.inj whole
        exact turns fuel next _ stopped

def endsBody (kind : Kind) : Prop := kind = .closeBrace ∨ kind = .endOfInput

theorem statements_halt (fuel : Nat) (next : Token) (more : List Token) (stop : endsBody next.kind) :
    statements fuel (next :: more) = .ok ([], next :: more) := by
  unfold statements
  rcases stop with here | here <;> simp [peek, here]

theorem statements_turn (fuel : Nat) (next : Token) (more : List Token) (go : ¬ endsBody next.kind) :
    statements (fuel + 1) (next :: more) = do
      let (first, rest) ← statement (next :: more)
      let (others, rest) ← statements fuel rest
      return (first :: others, rest) := by
  rw [statements.eq_def]
  dsimp only [peek, List.headD_cons]
  generalize next.kind = kind at go
  cases kind with
  | closeBrace => exact absurd (.inl rfl) go
  | endOfInput => exact absurd (.inr rfl) go
  | identifier | text | character | integer | decimal | quotedType | importWord | fnWord | asWord
  | trueWord | falseWord | nullWord | openParen | closeParen | openBrace | openBracket
  | closeBracket | comma | colon | semicolon | dot | equals => rfl

theorem statements_reads (tokens : List Token) (ends : Ends tokens) :
    Looks id (fun _ : Nat => fun tokens => statements tokens.length tokens)
      (StandsRepeated endsBody Statement.yield Expr.bare (·.expr.tree))
      (Begun (List.flatMap Statement.yield)) tokens :=
  (repeated_looks statement_reads Statement.begins statements_halt statements_turn tokens
    ends).counted

theorem function_reads :
    Reads function Derivation.Function.yield Function.bare Derivation.Function.tree := by
  intro tokens ends
  refine (expect_looks (by simp) ends).bind ends ?_ ?_
  · rintro _ rfl
    exact ⟨⟨"x", [], []⟩, _, rfl, by simp [separatedBy, fillers]⟩
  rintro _ start rest - ends rfl -
  refine (identifier_reads rest ends).lift.bind ends (fun kinds begun => ?_) ?_
  · refine begun.inside [.openParen, .closeParen, .openBrace, .closeBrace] (by simp [fillers])
      fun name more yielded => ⟨⟨name, [], []⟩, ?_⟩
    rw [List.append_assoc, ← List.append_assoc kinds, ← yielded]
    rfl
  rintro _ ⟨name, nameSpan⟩ rest - ends ⟨_, rfl, rfl⟩ -
  refine (expect_looks (by simp) ends).lift.bind ends ?_ ?_
  · rintro _ rfl
    exact ⟨⟨name, [], []⟩, [.openParen, .closeParen, .openBrace, .closeBrace], rfl, by simp [fillers]⟩
  rintro _ opened rest - ends rfl -
  have closes : Kind.closeParen ≠ .endOfInput := by simp
  refine (enclosed_looks closes (by simp [fillers]) ends fun rest _ => param_reads rest).lift.bind ends
    (fun kinds begun => ?_) ?_
  · refine begun.inside [.openBrace, .closeBrace] (by simp [fillers]) fun parameters more yielded =>
      ⟨⟨name, parameters, []⟩, ?_⟩
    simp [Derivation.Function.yield, ← List.append_assoc kinds, ← yielded]
  rintro _ ⟨parameters, closed⟩ rest - ends ⟨parameters', rfl, sameParameters⟩ -
  refine (expect_looks (by simp) ends).lift.bind ends ?_ ?_
  · rintro _ rfl
    exact ⟨⟨name, parameters', []⟩, [.openBrace, .closeBrace], by simp [Derivation.Function.yield],
      by simp [fillers]⟩
  rintro _ braced rest - ends rfl -
  refine (statements_reads rest ends).lift.bind ends (fun kinds begun => ?_) ?_
  · exact begun.inside [.closeBrace] (by simp [fillers]) fun body more yielded =>
      ⟨⟨name, parameters', body⟩, by simp [Derivation.Function.yield, yielded]⟩
  rintro _ body rest - ends ⟨-, body', rfl, sameBody⟩ -
  refine (expect_looks (by simp) ends).lift.bind ends ?_ ?_
  · rintro _ rfl
    exact ⟨⟨name, parameters', body'⟩, [.closeBrace], by simp [Derivation.Function.yield],
      by simp [fillers]⟩
  rintro _ close rest - ends rfl -
  refine .pure ends (Function.mk name parameters body (start.upTo close))
    ⟨⟨name, parameters', body'⟩, by simp [Derivation.Function.yield], ?_⟩
  simp [Function.bare, Derivation.Function.tree, sameParameters, sameBody]

/-! ## Units -/

theorem importLines_halt (fuel : Nat) (next : Token) (more : List Token)
    (stop : next.kind ≠ .importWord) :
    importLines fuel (next :: more) = .ok ([], next :: more) := by
  unfold importLines
  split
  · next here => exact absurd here stop
  · rfl

theorem importLines_turn (fuel : Nat) (next : Token) (more : List Token)
    (go : ¬ next.kind ≠ .importWord) :
    importLines (fuel + 1) (next :: more) = do
      let (first, rest) ← importLine (next :: more)
      let (others, rest) ← importLines fuel rest
      return (first :: others, rest) := by
  have here : (peek (next :: more)).kind = .importWord := Decidable.not_not.mp go
  rw [importLines.eq_def]
  simp only [here]

theorem importLines_reads (tokens : List Token) (ends : Ends tokens) :
    Looks id (fun _ : Nat => fun tokens => importLines tokens.length tokens)
      (StandsRepeated (· ≠ .importWord) Derivation.ImportLine.yield ImportLine.bare
        Derivation.ImportLine.tree) (Begun (List.flatMap Derivation.ImportLine.yield)) tokens :=
  (repeated_looks importLine_reads Derivation.ImportLine.begins importLines_halt importLines_turn
    tokens ends).counted

def item : Reader Item := fun tokens =>
  match (peek tokens).kind with
  | .importWord => unexpected .item tokens
  | .fnWord => do
    let (f, rest) ← function tokens
    return (.function f, rest)
  | _ => do
    let (value, rest) ← statement tokens
    return (.statement value, rest)

def itemRow : Nat → Reader (List Item)
  | fuel, tokens =>
    match (peek tokens).kind, fuel with
    | .endOfInput, _ | _, 0 => .ok ([], tokens)
    | _, fuel + 1 => do
      let (first, rest) ← item tokens
      let (others, rest) ← itemRow fuel rest
      return (first :: others, rest)

theorem items_eq (fuel : Nat) (tokens : List Token) :
    items fuel tokens = Prod.fst <$> itemRow fuel tokens := by
  induction fuel generalizing tokens with
  | zero =>
    unfold items itemRow
    cases (peek tokens).kind <;> rfl
  | succ fuel ih =>
    -- Functions and statements go on in the same way.
    have next {β : Type} (first : Except SourceError (Parsed β)) (wrap : β → Item) :
        (do
          let (value, rest) ← first
          return wrap value :: (← items fuel rest)) =
        Prod.fst <$> (do
          let (value, rest) ← (do
            let (value, rest) ← first
            return (wrap value, rest))
          let (others, rest) ← itemRow fuel rest
          return (value :: others, rest)) := by
      simp [ih]
    rw [items.eq_def, itemRow.eq_def]
    dsimp only [item]
    generalize (peek tokens).kind = kind
    cases kind with
    | importWord | endOfInput => rfl
    | fnWord => exact next (function tokens) .function
    | identifier | text | character | integer | decimal | quotedType | asWord | trueWord | falseWord
    | nullWord | openParen | closeParen | openBrace | closeBrace | openBracket | closeBracket | comma
    | colon | semicolon | dot | equals => exact next (statement tokens) .statement

theorem item_reads : Reads item Derivation.Item.yield Item.bare Derivation.Item.tree := by
  intro tokens ends
  obtain ⟨⟨kind, span⟩, behind, rfl⟩ := ends.cons
  cases kind with
  | importWord =>
    refine .refuse .item ⟨.statement ⟨.name "x", false⟩, [.identifier "x"], ?_, by simp [fillers]⟩
      fun _ _ _ => rfl
    simp [Derivation.Item.yield, Statement.yield, Derivation.Expr.yield, ending]
  | fnWord =>
    have function : Looks id (fun _ : Nat => fun tokens => do
        let (f, rest) ← function tokens
        return (Item.function f, rest))
        (Stands Derivation.Item.yield Item.bare Derivation.Item.tree) (Begun Derivation.Item.yield) _ :=
      (function_reads _ ends).bind ends (fun kinds begun => begun.inside [] (by simp) fun f more yielded =>
          ⟨.function f, by simp [Derivation.Item.yield, yielded]⟩) (by
        rintro _ f rest - ends ⟨d, rfl, same⟩ -
        refine .pure ends (Item.function f) ⟨.function d, by simp [Derivation.Item.yield], ?_⟩
        simp [Item.bare, Derivation.Item.tree, same])
    exact function.congr fun _ _ => rfl
  | identifier | text | character | integer | decimal | quotedType | asWord | trueWord | falseWord
  | nullWord | openParen | closeParen | openBrace | closeBrace | openBracket | closeBracket | comma
  | colon | semicolon | dot | equals | endOfInput =>
    have statement : Looks id (fun _ : Nat => fun tokens => do
        let (value, rest) ← statement tokens
        return (Item.statement value, rest))
        (Stands Derivation.Item.yield Item.bare Derivation.Item.tree) (Begun Derivation.Item.yield) _ :=
      (statement_reads _ ends).bind ends (fun kinds begun => begun.inside [] (by simp) fun s more yielded =>
          ⟨.statement s, by simp [Derivation.Item.yield, yielded]⟩) (by
        rintro _ value rest - ends ⟨d, rfl, same⟩ -
        refine .pure ends (Item.statement value) ⟨.statement d, by simp [Derivation.Item.yield], ?_⟩
        simp [Item.bare, Derivation.Item.tree, same])
    exact statement.congr fun _ _ => rfl

theorem itemRow_halt (fuel : Nat) (next : Token) (more : List Token)
    (stop : next.kind = .endOfInput) :
    itemRow fuel (next :: more) = .ok ([], next :: more) := by
  unfold itemRow
  simp [peek, stop]

theorem itemRow_turn (fuel : Nat) (next : Token) (more : List Token)
    (go : next.kind ≠ .endOfInput) :
    itemRow (fuel + 1) (next :: more) = do
      let (first, rest) ← item (next :: more)
      let (others, rest) ← itemRow fuel rest
      return (first :: others, rest) := by
  rw [itemRow.eq_def]
  dsimp only [peek, List.headD_cons]
  generalize next.kind = kind at go
  cases kind with
  | endOfInput => contradiction
  | identifier | text | character | integer | decimal | quotedType | importWord | fnWord | asWord
  | trueWord | falseWord | nullWord | openParen | closeParen | openBrace | closeBrace | openBracket
  | closeBracket | comma | colon | semicolon | dot | equals => rfl

theorem itemRow_reads (tokens : List Token) (ends : Ends tokens) :
    Looks id (fun _ : Nat => fun tokens => itemRow tokens.length tokens)
      (StandsRepeated (· = .endOfInput) Derivation.Item.yield Item.bare Derivation.Item.tree)
      (Begun (List.flatMap Derivation.Item.yield)) tokens :=
  (repeated_looks item_reads Derivation.Item.begins itemRow_halt itemRow_turn tokens ends).counted

/-- The tree of a unit and the tokens from the end of input on. -/
def unitRow : Reader UnitTree := fun tokens => do
  let (imports, rest) ← importLines tokens.length tokens
  let (list, rest) ← itemRow rest.length rest
  return (⟨imports, list⟩, rest)

theorem unit_eq (tokens : List Token) : unit tokens = Prod.fst <$> unitRow tokens := by
  simp [unit, unitRow, items_eq]

theorem unitRow_looks (tokens : List Token) (ends : Ends tokens) :
    Looks id (fun _ : Nat => unitRow)
      (fun kinds next tree => next = .endOfInput ∧
        ∃ d : Derivation.Unit, kinds = d.yield ∧ tree.bare = d.tree)
      (Begun Derivation.Unit.yield) tokens := by
  refine (importLines_reads tokens ends).bind ends (fun kinds begun => ?_) ?_
  · exact begun.inside [] (by simp) fun imports more yielded =>
      ⟨⟨imports, []⟩, by simp [Derivation.Unit.yield, yielded]⟩
  rintro _ imports rest - ends ⟨-, imports', rfl, sameImports⟩ -
  refine (itemRow_reads rest ends).lift.bind ends (fun kinds begun => ?_) ?_
  · exact begun.inside [] (by simp) fun list more yielded =>
      ⟨⟨imports', list⟩, by simp [Derivation.Unit.yield, yielded]⟩
  rintro _ list rest - ends ⟨last, list', rfl, sameItems⟩ -
  refine .pure ends (UnitTree.mk imports list) ⟨last, ⟨imports', list'⟩, ?_, ?_⟩
  · simp [Derivation.Unit.yield]
  · simp [UnitTree.bare, Derivation.Unit.tree, sameImports, sameItems]

end UnitCompiler.Tree
