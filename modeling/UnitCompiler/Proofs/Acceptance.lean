import UnitCompiler.Proofs.Lookahead

/-! The parser accepts exactly what the grammar derives. A reader takes the yield of a derivation as
a whole if what follows cannot belong to it; together with what readers do on all tokens, every row of
tokens is accepted or not as its kinds have a derivation or not. -/

namespace UnitCompiler.Tree

open Token (Kind)
open UnitCompiler.Derivation

variable {α β δ : Type}

@[simp] theorem ok_bind {ε : Type} (value : α) (next : α → Except ε β) :
    (Except.ok value >>= next) = next value := rfl

/-- A reader takes tokens of given kinds, if those behind them are as they should. -/
def Takes (reader : Reader α) (word : List Kind) (follow : List Kind → Prop) : Prop :=
  ∀ taken rest : List Token, taken.map Token.kind = word → follow (rest.map Token.kind) →
    ∃ value, reader (taken ++ rest) = .ok (value, rest)

namespace Takes

variable {reader : Reader α} {word : List Kind} {follow : List Kind → Prop}

theorem mono {follow' : List Kind → Prop} (takes : Takes reader word follow)
    (implies : ∀ rest, follow' rest → follow rest) : Takes reader word follow' :=
  fun taken rest yields follows => takes taken rest yields (implies _ follows)

theorem pure (value : α) : Takes (fun tokens => .ok (value, tokens)) [] follow := by
  intro taken rest yields _
  obtain rfl := List.map_eq_nil_iff.mp yields
  exact ⟨value, rfl⟩

/-- One reader behind another. -/
theorem bind {second : Parsed α → Except SourceError (Parsed β)} {word' : List Kind}
    {follow' : List Kind → Prop} (head : Takes reader word follow)
    (between : ∀ rest, follow' rest → follow (word' ++ rest))
    (tail : ∀ value, Takes (fun rest => second (value, rest)) word' follow') :
    Takes (fun tokens => reader tokens >>= second) (word ++ word') follow' := by
  intro taken rest yields follows
  obtain ⟨taken, taken', rfl, first, last⟩ := List.map_eq_append_iff.mp yields
  obtain ⟨value, read⟩ := head taken (taken' ++ rest) first
    (by rw [List.map_append, last]; exact between _ follows)
  obtain ⟨value', read'⟩ := tail value taken' rest last follows
  refine ⟨value', ?_⟩
  rw [List.append_assoc]
  dsimp only at read' ⊢
  rw [read, ok_bind, read']

/-- What is read is changed at the end. -/
theorem finish {second : Parsed α → Except SourceError (Parsed β)} (head : Takes reader word follow)
    (tail : ∀ value rest, ∃ value', second (value, rest) = .ok (value', rest)) :
    Takes (fun tokens => reader tokens >>= second) word follow := by
  intro taken rest yields follows
  obtain ⟨value, read⟩ := head taken rest yields follows
  obtain ⟨value', read'⟩ := tail value rest
  exact ⟨value', by dsimp only; rw [read, ok_bind, read']⟩

/-- A reader that does like another one when it sees the first kind. -/
theorem congr {kind : Kind} {reader' : Reader α} (takes : Takes reader' (kind :: word) follow)
    (agrees : ∀ next more, next.kind = kind → reader (next :: more) = reader' (next :: more)) :
    Takes reader (kind :: word) follow := by
  intro taken rest yields follows
  obtain ⟨value, read⟩ := takes taken rest yields follows
  obtain ⟨next, more, rfl, here, -⟩ := List.map_eq_cons_iff.mp yields
  exact ⟨value, by rw [← read]; exact agrees next _ here⟩

/-- The first token is taken, and what happens behind it is known. -/
theorem step {kind : Kind} {inner : Token → Reader α}
    (later : ∀ next, next.kind = kind → Takes (inner next) word follow)
    (agrees : ∀ next more, next.kind = kind → reader (next :: more) = inner next more) :
    Takes reader (kind :: word) follow := by
  intro taken rest yields follows
  obtain ⟨next, more, rfl, here, yielded⟩ := List.map_eq_cons_iff.mp yields
  obtain ⟨value, read⟩ := later next here more rest yielded follows
  exact ⟨value, by rw [← read]; exact agrees next _ here⟩

/-- A bound that is the number of tokens is at least the number of those taken. -/
theorem counted {run : Nat → Reader α} (takes : ∀ fuel, word.length ≤ fuel → Takes (run fuel) word follow) :
    Takes (fun tokens => run tokens.length tokens) word follow := by
  intro taken rest yields follows
  refine takes (taken ++ rest).length ?_ taken rest yields follows
  rw [← yields, List.length_map, List.length_append]
  omega

end Takes

theorem expect_takes (kind : Kind) : Takes (expect kind) [kind] fun _ => True := by
  intro taken rest yields _
  obtain ⟨next, rfl, rfl⟩ := List.map_eq_singleton_iff.mp yields
  exact ⟨next.span, expect_here next rest⟩

theorem identifier_takes (name : String) :
    Takes identifier [.identifier name] fun _ => True := by
  intro taken rest yields _
  obtain ⟨⟨kind, span⟩, rfl, rfl⟩ := List.map_eq_singleton_iff.mp yields
  exact ⟨(name, span), rfl⟩

/-- A token that has to be there, and what is read behind it. -/
theorem expect_bind_takes (kind : Kind) {second : Parsed Span → Except SourceError (Parsed α)}
    {word : List Kind} {follow : List Kind → Prop}
    (tail : ∀ span, Takes (fun rest => second (span, rest)) word follow) :
    Takes (fun tokens => expect kind tokens >>= second) (kind :: word) follow :=
  Takes.bind (expect_takes kind) (fun _ _ => trivial) tail

/-- A name, and what is read behind it. -/
theorem identifier_bind_takes (name : String)
    {second : Parsed (String × Span) → Except SourceError (Parsed α)} {word : List Kind}
    {follow : List Kind → Prop}
    (tail : ∀ name, Takes (fun rest => second (name, rest)) word follow) :
    Takes (fun tokens => identifier tokens >>= second) (.identifier name :: word) follow :=
  Takes.bind (identifier_takes name) (fun _ _ => trivial) tail

theorem accept_eq_none {kind : Kind} {rest : List Token}
    (avoids : Avoids [kind] (rest.map Token.kind)) : accept? kind rest = none := by
  cases rest with
  | nil => rfl
  | cons next behind =>
    have other : next.kind ≠ kind := by simpa using avoids
    simp [accept?, other]

theorem skipSemicolon_takes (value : α) (semicolon : Bool) :
    Takes (fun tokens => .ok (value, skipSemicolon tokens)) (ending semicolon)
      (Avoids [.semicolon]) := by
  intro taken rest yields avoids
  cases semicolon with
  | true =>
    obtain ⟨next, rfl, here⟩ := List.map_eq_singleton_iff.mp yields
    exact ⟨value, by simp [skipSemicolon, accept?, here]⟩
  | false =>
    obtain rfl := List.map_eq_nil_iff.mp yields
    exact ⟨value, by simp [skipSemicolon, accept_eq_none avoids]⟩

/-! ## Rows -/

theorem length_le_separatedBy (separator : Kind) (parts : List (List Kind)) :
    parts.length ≤ (separatedBy separator parts).length + 1 := by
  induction parts with
  | nil => simp
  | cons first rest ih =>
    cases rest with
    | nil => simp
    | cons second others =>
      simp only [separatedBy, List.length_append, List.length_cons] at ih ⊢
      omega

theorem separated_takes {item : Reader α} {yield : δ → List Kind} {kinds : List Kind}
    {separator : Kind} (other : separator ∉ kinds) {list : List δ} (nonempty : list ≠ [])
    (each : ∀ d ∈ list, Takes item (yield d) (Avoids kinds)) {count : Nat}
    (enough : list.length ≤ count + 1) :
    Takes (separated separator item count) (separatedBy separator (list.map yield))
      (Avoids (separator :: kinds)) := by
  induction list generalizing count with
  | nil => contradiction
  | cons d list ih =>
    have own := each d List.mem_cons_self
    cases list with
    | nil =>
      intro taken rest yields avoids
      obtain ⟨value, read⟩ := own taken rest yields
        (avoids.mono fun kind member => List.mem_cons_of_mem _ member)
      refine ⟨[value], ?_⟩
      cases count with
      | zero => rw [separated, read, ok_bind]; rfl
      | succ count =>
        have last : accept? separator rest = none := accept_eq_none (avoids.mono (by simp))
        rw [separated, read, ok_bind]
        simp only [last]
        rfl
    | cons second others =>
      cases count with
      | zero => simp at enough
      | succ count =>
        have later := ih (by simp) (fun d member => each d (List.mem_cons_of_mem _ member))
          (Nat.le_of_succ_le_succ enough)
        refine own.bind (fun rest _ => ?_) fun value => ?_
        · simpa using other
        · -- Behind the first item stands a separator.
          have row : Takes (fun more => separated separator item count more >>= fun r =>
              return (value :: r.1, r.2))
              (separatedBy separator ((second :: others).map yield)) (Avoids (separator :: kinds)) :=
            later.finish fun _ _ => ⟨_, rfl⟩
          exact .step (fun _ _ => row) fun next more here => by simp [accept?, here]

/-- A row that may be empty, up to the kind that closes it. -/
theorem enclosed_takes {item : Reader α} {yield : δ → List Kind} {kinds : List Kind}
    {opening : Kind → Bool} {close : Kind} (begins : Begins yield opening)
    (shut : opening close = false) (other : .comma ∉ kinds) (closes : close ∉ .comma :: kinds)
    {list : List δ} (each : ∀ d ∈ list, Takes item (yield d) (Avoids kinds))
    {follow : List Kind → Prop} :
    Takes (enclosed item close) (separatedBy .comma (list.map yield) ++ [close]) follow := by
  cases list with
  | nil =>
    have none (next : Token) (_ : next.kind = close) :
        Takes (fun more => .ok ((([], next.span) : List α × Span), more)) [] follow := .pure _
    refine .step none ?_
    rintro next more rfl
    simp only [enclosed, peek, List.headD_cons, if_true]
    change (expect next.kind (next :: more) >>= _) = _
    rw [expect_here]
    rfl
  | cons d others =>
    obtain ⟨first, more, begun, opened⟩ := begins.separatedBy_cons .comma d others
    have unclosed : first ≠ close := by
      rintro rfl
      rw [shut] at opened
      contradiction
    have row : Takes (fun tokens => separated .comma item tokens.length tokens)
        (separatedBy .comma ((d :: others).map yield)) (Avoids (.comma :: kinds)) := by
      refine .counted fun count enough => separated_takes other (by simp) each ?_
      have bound := length_le_separatedBy .comma ((d :: others).map yield)
      rw [List.length_map] at bound
      omega
    have closed : Takes (fun tokens => separated .comma item tokens.length tokens >>= fun q =>
        expect close q.2 >>= fun r => return ((q.1, r.1), r.2))
        (separatedBy .comma ((d :: others).map yield) ++ [close]) follow := by
      apply row.bind fun _ _ => by simpa using closes
      intro items
      dsimp only
      apply Takes.finish
      · exact (expect_takes close).mono fun _ _ => trivial
      · exact fun span _ => ⟨(items, span), rfl⟩
    rw [begun] at closed ⊢
    refine closed.congr fun next more here => ?_
    subst here
    simp [enclosed, peek, unclosed]

theorem optional_takes {inner : Reader α} {start : Kind} {part : Option δ → List Kind}
    {yield : δ → List Kind} {kinds : List Kind}
    (each : ∀ d, Takes inner (yield d) (Avoids kinds)) (nothing : part none = [])
    (something : ∀ d, part (some d) = start :: yield d) (option : Option δ) :
    Takes (optional start inner) (part option) (Avoids (start :: kinds)) := by
  cases option with
  | none =>
    intro taken rest yields avoids
    rw [nothing, List.map_eq_nil_iff] at yields
    subst yields
    have absent : accept? start rest = none := accept_eq_none (avoids.mono (by simp))
    exact ⟨none, by simp [optional, absent]⟩
  | some d =>
    rw [something]
    have inside : Takes (fun more => inner more >>= fun q => return (some q.1, q.2)) (yield d)
        (Avoids (start :: kinds)) :=
      ((each d).mono fun rest avoids => avoids.mono fun _ => List.mem_cons_of_mem _).finish
        fun _ _ => ⟨_, rfl⟩
    exact .step (fun _ _ => inside) fun next more here => by simp [optional, accept?, here]

/-! ## Paths and imports -/

theorem row_takes (separator : Kind) (names : Names) :
    Takes (fun tokens => separated separator identifier tokens.length tokens)
      (names.yield separator) (Avoids [separator]) := by
  refine .counted fun count enough => separated_takes (by simp) names.nonempty
    (fun name _ => (identifier_takes name).mono fun _ _ => trivial) ?_
  have bound := length_le_separatedBy separator (names.list.map fun name => [Kind.identifier name])
  rw [List.length_map] at bound
  rw [Names.yield] at enough
  omega

theorem path_takes (names : Names) : Takes path (names.yield .dot) (Avoids [.dot]) :=
  (row_takes .dot names).finish fun _ _ => ⟨_, rfl⟩

theorem importNames_takes (names : Option Names) :
    Takes importNames (Derivation.ImportLine.bracketed names) (Avoids [.openBracket]) := by
  have inner (names : Names) : Takes nameRow (names.yield .comma ++ [Kind.closeBracket]) (Avoids []) :=
    (row_takes .comma names).bind (fun _ _ => by simp) fun _ =>
      ((expect_takes _).mono fun _ _ => trivial).finish fun _ _ => ⟨_, rfl⟩
  rw [funext importNames_eq]
  exact optional_takes inner rfl (fun _ => rfl) names

theorem importAlias_takes (name : Option String) :
    Takes importAlias (Derivation.ImportLine.aliased name) (Avoids [.asWord]) := by
  have inner (name : String) : Takes identifier [.identifier name] (Avoids []) :=
    (identifier_takes name).mono fun _ _ => trivial
  rw [funext importAlias_eq]
  exact optional_takes inner rfl (fun _ => rfl) name

theorem importLine_takes (line : Derivation.ImportLine) :
    Takes importLine line.yield (Avoids Derivation.ImportLine.continuing) := by
  obtain ⟨path, names, shortName, semicolon⟩ := line
  have behind (rest : List Kind) (avoids : Avoids Derivation.ImportLine.continuing rest) :=
    Derivation.ImportLine.avoids_behind avoids names shortName semicolon
  refine expect_bind_takes .importWord fun _ => ?_
  refine (path_takes path).bind (fun rest avoids => ?_) fun _ => ?_
  · simpa using (behind rest avoids).1
  refine (importNames_takes names).bind (fun rest avoids => ?_) fun _ => ?_
  · simpa using (behind rest avoids).2.1
  refine (importAlias_takes shortName).bind (fun rest avoids => (behind rest avoids).2.2.1) fun _ => ?_
  exact (skipSemicolon_takes _ semicolon).mono fun rest avoids => (behind rest avoids).2.2.2

/-! ## Expressions -/

theorem length_le_separatedBy_of_mem (separator : Kind) {part : List Kind} {parts : List (List Kind)}
    (member : part ∈ parts) : part.length ≤ (separatedBy separator parts).length := by
  induction parts with
  | nil => contradiction
  | cons first rest ih =>
    cases rest with
    | nil =>
      rw [List.mem_singleton.mp member]
      exact Nat.le_refl _
    | cons second others =>
      simp only [separatedBy, List.length_append, List.length_cons]
      rcases List.mem_cons.mp member with rfl | later
      · omega
      · have := ih later
        omega

theorem constant_takes (constant : Constant) (fuel : Nat) {follow : List Kind → Prop} :
    Takes (expr fuel) [constant.kind] follow := by
  intro taken rest yields _
  obtain ⟨⟨kind, span⟩, rfl, rfl⟩ := List.map_eq_singleton_iff.mp yields
  cases constant with
  | null => exact ⟨_, by unfold expr; rfl⟩
  | value literal =>
    cases literal with
    | bool b => cases b <;> exact ⟨_, by unfold expr; rfl⟩
    | string | int | decimal | char => exact ⟨_, by unfold expr; rfl⟩

/-- An expression is not longer than the depth that is left. -/
theorem expr_takes (d : Derivation.Expr) (fuel : Nat) (enough : d.yield.length ≤ fuel) :
    Takes (expr fuel) d.yield (Avoids [.openParen]) := by
  match d with
  | .constant constant =>
    rw [Derivation.Expr.yield]
    exact constant_takes constant fuel
  | .name word =>
    intro taken rest yields avoids
    rw [Derivation.Expr.yield] at yields
    obtain ⟨⟨kind, span⟩, rfl, rfl⟩ := List.map_eq_singleton_iff.mp yields
    refine ⟨.name word span, ?_⟩
    rw [expr.eq_def]
    simp [accept_eq_none avoids]
  | .call function arguments =>
    simp only [Derivation.Expr.yield, Derivation.Expr.yields_eq, List.length_cons,
      List.length_append] at enough ⊢
    obtain ⟨fuel, rfl⟩ : ∃ less, fuel = less + 1 := ⟨fuel - 1, by omega⟩
    have each (argument : Derivation.Expr) (member : argument ∈ arguments) :
        Takes (expr fuel) argument.yield (Avoids [.openParen]) := by
      refine expr_takes argument fuel ?_
      have short := length_le_separatedBy_of_mem .comma
        (List.mem_map_of_mem (f := Derivation.Expr.yield) member)
      omega
    intro taken rest yields avoids
    obtain ⟨⟨kind, span⟩, behind, rfl, rfl, tail⟩ := List.map_eq_cons_iff.mp yields
    obtain ⟨opened, inside, rfl, here, row⟩ := List.map_eq_cons_iff.mp tail
    obtain ⟨⟨values, close⟩, read⟩ := enclosed_takes Derivation.Expr.begins rfl (by simp) (by simp)
      each inside rest row avoids
    refine ⟨.call function values (span.upTo close), ?_⟩
    have accepted : accept? .openParen (opened :: (inside ++ rest)) = some (inside ++ rest) := by
      simp [accept?, here]
    rw [expr.eq_def]
    simp only [List.cons_append, accepted, read, ok_bind]
    rfl

theorem expr_counted_takes (d : Derivation.Expr) :
    Takes (fun tokens => expr tokens.length tokens) d.yield (Avoids [.openParen]) :=
  .counted (expr_takes d)

theorem statement_takes (d : Statement) :
    Takes statement d.yield (Avoids [.openParen, .semicolon]) := by
  refine (expr_counted_takes d.expr).bind (fun rest avoids => ?_) fun value => ?_
  · exact (avoids_ending (by simp) _).append (avoids.mono (by simp))
  · exact (skipSemicolon_takes value d.semicolon).mono fun rest avoids => avoids.mono (by simp)

/-! ## Functions -/

theorem typeName_takes (d : Derivation.TypeName) : Takes typeName d.yield (Avoids [.dot]) := by
  cases d with
  | path names =>
    have named : Takes (fun tokens => path tokens >>= fun r =>
        return ((⟨r.1.1, r.1.2⟩ : TypeName), r.2)) (names.yield .dot) (Avoids [.dot]) :=
      (path_takes names).finish fun _ _ => ⟨_, rfl⟩
    obtain ⟨name, more, yielded⟩ := names.begins .dot
    simp only [Derivation.TypeName.yield, yielded] at named ⊢
    refine named.congr fun next more here => ?_
    obtain ⟨kind, span⟩ := next
    subst here
    rfl
  | quoted name =>
    intro taken rest yields _
    obtain ⟨⟨kind, span⟩, rfl, rfl⟩ := List.map_eq_singleton_iff.mp yields
    exact ⟨⟨name, span⟩, rfl⟩

theorem param_takes (d : Derivation.Param) :
    Takes param d.yield (Avoids Derivation.Param.continuing) := by
  obtain ⟨name, type, value⟩ := d
  have typed : Takes paramType (Derivation.Param.typed type) (Avoids [.colon, .dot]) := by
    rw [funext paramType_eq]
    exact optional_takes typeName_takes rfl (fun _ => rfl) type
  have defaulted :
      Takes paramDefault (Derivation.Param.defaulted value) (Avoids [.equals, .openParen]) := by
    rw [funext paramDefault_eq]
    exact optional_takes expr_counted_takes rfl (fun _ => rfl) value
  refine identifier_bind_takes name fun _ => ?_
  refine typed.bind (fun rest avoids => (Derivation.Param.avoids_behind avoids value).1) fun _ => ?_
  exact (defaulted.mono fun rest avoids => (Derivation.Param.avoids_behind avoids value).2).finish
    fun _ _ => ⟨_, rfl⟩

/-- A kind that ends a repetition comes next, and none that belongs to its last item. -/
def Stops (stop : Kind → Prop) (kinds rest : List Kind) : Prop :=
  ∃ next behind, rest = next :: behind ∧ stop next ∧ next ∉ kinds

theorem repeated_takes {run : Nat → Reader (List α)} {item : Reader α} {stop : Kind → Prop}
    {yield : δ → List Kind} {kinds : List Kind} {opening : Kind → Bool}
    (each : ∀ d, Takes item (yield d) (Avoids kinds)) (begins : Begins yield opening)
    (goes : ∀ kind, opening kind = true → ¬ stop kind)
    (apart : ∀ kind ∈ kinds, opening kind = false)
    (halts : ∀ fuel next more, stop next.kind → run fuel (next :: more) = .ok ([], next :: more))
    (turns : ∀ fuel next more, ¬ stop next.kind → run (fuel + 1) (next :: more) = do
      let (first, rest) ← item (next :: more)
      let (others, rest) ← run fuel rest
      return (first :: others, rest))
    (list : List δ) :
    Takes (fun tokens => run tokens.length tokens) (list.flatMap yield) (Stops stop kinds) := by
  refine .counted fun fuel enough => ?_
  induction list generalizing fuel with
  | nil =>
    rintro taken rest yields ⟨kind, kinds, begun, stopped, -⟩
    obtain rfl := List.map_eq_nil_iff.mp yields
    obtain ⟨next, behind, rfl, rfl, -⟩ := List.map_eq_cons_iff.mp begun
    exact ⟨[], halts fuel next behind stopped⟩
  | cons d list ih =>
    obtain ⟨first, more, yielded, opened⟩ := begins d
    rw [List.flatMap_cons, yielded] at enough ⊢
    rw [List.length_append, List.length_cons] at enough
    obtain ⟨fuel, rfl⟩ : ∃ less, fuel = less + 1 := ⟨fuel - 1, by omega⟩
    have others := ih fuel (by omega)
    have turned : Takes (fun tokens => do
        let (first, rest) ← item tokens
        let (others, rest) ← run fuel rest
        return (first :: others, rest)) (yield d ++ list.flatMap yield) (Stops stop kinds) := by
      refine (each d).bind (fun rest stops => ?_) fun _ => others.finish fun _ _ => ⟨_, rfl⟩
      obtain ⟨next, behind, rfl, -, other⟩ := stops
      exact begins.avoids_flatMap apart (by simpa using other)
    rw [yielded] at turned
    exact turned.congr fun next more here => turns fuel next more (here ▸ goes first opened)

theorem statements_takes (body : List Statement) :
    Takes (fun tokens => statements tokens.length tokens) (body.flatMap Statement.yield)
      (Stops endsBody [.openParen, .semicolon]) := by
  refine repeated_takes statement_takes Statement.begins ?_ (by decide) statements_halt
    statements_turn body
  rintro kind opened (rfl | rfl) <;> contradiction

theorem function_takes (d : Derivation.Function) : Takes function d.yield fun _ => True := by
  obtain ⟨name, parameters, body⟩ := d
  have parameterRow : Takes (enclosed param .closeParen)
      (separatedBy .comma (parameters.map Derivation.Param.yield) ++ [Kind.closeParen]) fun _ => True :=
    enclosed_takes Derivation.Param.begins rfl (by simp [Derivation.Param.continuing])
      (by simp [Derivation.Param.continuing]) fun param _ => param_takes param
  have whole : Takes function (.fnWord :: .identifier name :: .openParen ::
      (separatedBy .comma (parameters.map Derivation.Param.yield) ++ [Kind.closeParen] ++
        Kind.openBrace :: (body.flatMap Statement.yield ++ [Kind.closeBrace]))) fun _ => True := by
    refine expect_bind_takes .fnWord fun _ => identifier_bind_takes name fun _ =>
      expect_bind_takes .openParen fun _ => ?_
    refine parameterRow.bind (fun _ _ => trivial) fun _ => expect_bind_takes .openBrace fun _ => ?_
    refine (statements_takes body).bind (fun rest _ => ?_) fun _ => ?_
    · exact ⟨.closeBrace, rest, rfl, .inl rfl, by simp⟩
    · exact (expect_takes .closeBrace).finish fun _ _ => ⟨_, rfl⟩
  simpa [Derivation.Function.yield] using whole

/-! ## Units -/

theorem item_statement (next : Token) (more : List Token) (opened : opens next.kind = true) :
    item (next :: more) = do
      let (value, rest) ← statement (next :: more)
      return (.statement value, rest) := by
  unfold item
  dsimp only [peek, List.headD_cons]
  generalize next.kind = kind at opened
  cases kind <;> first | rfl | contradiction

theorem item_takes (d : Derivation.Item) :
    Takes item d.yield (Avoids [.openParen, .semicolon]) := by
  cases d with
  | function f =>
    have read : Takes (fun tokens => function tokens >>= fun r => return (Item.function r.1, r.2))
        f.yield (Avoids [.openParen, .semicolon]) :=
      ((function_takes f).mono fun _ _ => trivial).finish fun _ _ => ⟨_, rfl⟩
    exact read.congr fun next more here => by simp [item, peek, here]
  | statement s =>
    have read : Takes (fun tokens => statement tokens >>= fun r => return (Item.statement r.1, r.2))
        s.yield (Avoids [.openParen, .semicolon]) :=
      (statement_takes s).finish fun _ _ => ⟨_, rfl⟩
    obtain ⟨first, more, yielded, opened⟩ := Statement.begins s
    rw [Derivation.Item.yield]
    rw [yielded] at read ⊢
    exact read.congr fun next more here => item_statement next more (here ▸ opened)

theorem unitRow_takes (d : Derivation.Unit) :
    Takes unitRow d.yield (fun rest => ∃ behind, rest = .endOfInput :: behind) := by
  have imports : Takes (fun tokens => importLines tokens.length tokens)
      (d.imports.flatMap Derivation.ImportLine.yield)
      (Stops (· ≠ .importWord) Derivation.ImportLine.continuing) :=
    repeated_takes importLine_takes Derivation.ImportLine.begins (by simp)
      (by simp [Derivation.ImportLine.continuing]) importLines_halt importLines_turn d.imports
  have list : Takes (fun tokens => itemRow tokens.length tokens) (d.items.flatMap Derivation.Item.yield)
      (Stops (· = .endOfInput) [.openParen, .semicolon]) := by
    refine repeated_takes item_takes Derivation.Item.begins ?_ (by decide)
      itemRow_halt itemRow_turn d.items
    rintro kind opened rfl
    contradiction
  refine imports.bind ?_ fun _ => (list.mono ?_).finish fun _ _ => ⟨_, rfl⟩
  · rintro _ ⟨behind, rfl⟩
    have stops : Avoids (.importWord :: Derivation.ImportLine.continuing)
        (d.items.flatMap Derivation.Item.yield ++ .endOfInput :: behind) :=
      Derivation.Item.begins.avoids_flatMap (by decide)
        (by simp [Derivation.ImportLine.continuing])
    obtain ⟨next, more, begun⟩ := List.exists_cons_of_ne_nil
      (List.append_ne_nil_of_right_ne_nil (d.items.flatMap Derivation.Item.yield)
        (List.cons_ne_nil Kind.endOfInput behind))
    rw [begun] at stops ⊢
    simp only [avoids_cons, List.mem_cons, not_or] at stops
    exact ⟨next, more, rfl, stops.1, stops.2⟩
  · rintro _ ⟨behind, rfl⟩
    exact ⟨.endOfInput, behind, rfl, rfl, by simp⟩

/-- The first end of input is found in one way. -/
theorem split_at_end {taken body behind : List Token} {next last : Token}
    (whole : body ++ [last] = taken ++ next :: behind) (ends : next.kind = .endOfInput)
    (inside : ∀ token ∈ body, token.kind ≠ .endOfInput) : body = taken ∧ last = next := by
  rcases List.eq_nil_or_concat behind with rfl | ⟨init, final, rfl⟩
  · have same := List.append_inj' whole rfl
    exact ⟨same.1, (List.cons.inj same.2).1⟩
  · have longer : body ++ [last] = (taken ++ next :: init) ++ [final] := by simpa using whole
    have bodies := (List.append_inj' longer rfl).1
    exact absurd ends (inside next (by simp [bodies]))

def misplaced (expected : Expectation) (token : Token) : SourceError :=
  ⟨.unexpectedToken expected token.kind, ⟨token.span.startLine, token.span.start⟩⟩

/-- Tokens up to the end of input have a derivation, or one of them is misplaced; what comes behind
the end does not count. -/
theorem unit_outcome (body : List Token) (last : Token)
    (inside : ∀ token ∈ body, token.kind ≠ .endOfInput) (ends : last.kind = .endOfInput) :
    (∃ (d : Derivation.Unit) (tree : UnitTree), d.yield = body.map Token.kind ∧ tree.bare = d.tree ∧
      ∀ more, unit (body ++ last :: more) = .ok tree) ∨
    ∃ token ∈ body ++ [last], ∃ expected,
      ∀ more, unit (body ++ last :: more) = .error (misplaced expected token) := by
  cases unitRow_looks (body ++ [last]) ⟨last, by simp, ends⟩ with
  | stops taken next behind tree whole _ means same =>
    obtain ⟨stopped, d, yielded, bare⟩ := means
    obtain ⟨rfl, rfl⟩ := split_at_end whole stopped inside
    refine .inl ⟨d, tree, yielded.symm, bare, fun more => ?_⟩
    rw [unit_eq, same (body.length + 1) more (Nat.lt_succ_self _)]
    rfl
  | fails taken next behind expected whole same =>
    refine .inr ⟨next, by simp [whole], expected, fun more => ?_⟩
    have longer : body ++ last :: more = taken ++ next :: (behind ++ more) := by
      rw [List.append_cons, whole]
      simp
    rw [longer, unit_eq, same (taken.length + 1) _ (Nat.lt_succ_self _)]
    rfl

/-- The parser accepts exactly the tokens that the grammar derives, and reads the tree of their only
derivation; otherwise it fails at one of them. What stands behind the end of input has no say. -/
theorem unit_accepts_derived (body : List Token) (last : Token)
    (inside : ∀ token ∈ body, token.kind ≠ .endOfInput) (ends : last.kind = .endOfInput) :
    ((∃ tree, unit (body ++ [last]) = .ok tree) ↔
      ∃ d : Derivation.Unit, d.yield = body.map Token.kind) ∧
    (∀ tree, unit (body ++ [last]) = .ok tree →
      ∃ d : Derivation.Unit, d.yield = body.map Token.kind ∧ tree.bare = d.tree ∧
        ∀ d' : Derivation.Unit, d'.yield = body.map Token.kind → d' = d) ∧
    (∀ error, unit (body ++ [last]) = .error error →
      ∃ token ∈ body ++ [last], ∃ expected, error = misplaced expected token) ∧
    ∀ more, unit (body ++ last :: more) = unit (body ++ [last]) := by
  have derived (d : Derivation.Unit) (yields : d.yield = body.map Token.kind) :
      ∃ tree, unit (body ++ [last]) = .ok tree := by
    obtain ⟨tree, read⟩ := unitRow_takes d body [last] yields.symm ⟨[], by simp [ends]⟩
    exact ⟨tree, by rw [unit_eq, read]; rfl⟩
  have unique (d d' : Derivation.Unit) (yields : d.yield = body.map Token.kind)
      (yields' : d'.yield = body.map Token.kind) : d' = d :=
    Derivation.Unit.yield_injective (yields'.trans yields.symm)
  rcases unit_outcome body last inside ends with
    ⟨d, tree, yields, bare, read⟩ | ⟨token, member, expected, refused⟩
  · refine ⟨⟨fun _ => ⟨d, yields⟩, fun _ => ⟨tree, read []⟩⟩, fun tree' read' => ?_,
      fun error failed => ?_, fun more => by rw [read more, read []]⟩
    · obtain rfl := Except.ok.inj ((read []).symm.trans read')
      exact ⟨d, yields, bare, fun d' yields' => unique d d' yields yields'⟩
    · rw [read []] at failed
      contradiction
  · have never (tree : UnitTree) : unit (body ++ [last]) ≠ .ok tree := by
      rw [refused []]
      exact nofun
    refine ⟨⟨fun ⟨tree, read⟩ => absurd read (never tree), fun ⟨d, yields⟩ => derived d yields⟩,
      fun tree read => absurd read (never tree), fun error failed => ?_,
      fun more => by rw [refused more, refused []]⟩
    exact ⟨token, member, expected, Except.error.inj (failed.symm.trans (refused []))⟩

/-- The derivation of `import a.b[c] f g(x, null);`. -/
def juxtaposed : Derivation.Unit :=
  ⟨[⟨⟨["a", "b"], by simp⟩, some ⟨["c"], by simp⟩, none, false⟩],
    [.statement ⟨.name "f", false⟩, .statement ⟨.call "g" [.name "x", .constant .null], true⟩]⟩

/-- Two statements without a mark between them are read as two. -/
theorem juxtaposed_accepted :
    juxtaposed.yield = [.importWord, .identifier "a", .dot, .identifier "b", .openBracket,
      .identifier "c", .closeBracket, .identifier "f", .identifier "g", .openParen, .identifier "x",
      .comma, .nullWord, .closeParen, .semicolon] ∧
    ∃ tree, unit (juxtaposed.yield.map (Token.mk · nowhere) ++ [⟨.endOfInput, nowhere⟩]) = .ok tree ∧
      tree.bare = juxtaposed.tree := by
  have yields : juxtaposed.yield = [.importWord, .identifier "a", .dot, .identifier "b", .openBracket,
      .identifier "c", .closeBracket, .identifier "f", .identifier "g", .openParen, .identifier "x",
      .comma, .nullWord, .closeParen, .semicolon] := by
    simp [juxtaposed, Unit.yield, Derivation.ImportLine.yield, Names.yield, separatedBy,
      Derivation.ImportLine.bracketed, Derivation.ImportLine.aliased, ending, Derivation.Item.yield,
      Statement.yield, Derivation.Expr.yield, Constant.kind]
  have kinds : (juxtaposed.yield.map (Token.mk · nowhere)).map Token.kind = juxtaposed.yield := by
    simp [Function.comp_def]
  obtain ⟨accepts, stands, -, -⟩ := unit_accepts_derived (juxtaposed.yield.map (Token.mk · nowhere))
    ⟨.endOfInput, nowhere⟩ (by simp [yields]) rfl
  obtain ⟨tree, read⟩ := accepts.mpr ⟨juxtaposed, kinds.symm⟩
  obtain ⟨d, -, bare, unique⟩ := stands tree read
  exact ⟨yields, tree, read, by rw [bare, ← unique juxtaposed kinds.symm]⟩

end UnitCompiler.Tree
