import UnitCompiler.Proofs.Acceptance

/-! Derivations on tokens. A derivation yields the kinds of some tokens, and on tokens of these kinds its
tree has spans: every node reaches from its first token to its last one. What a reader reads is the tree
of a derivation on the tokens that it takes. -/

namespace UnitCompiler

namespace Derivation

open Token (Kind)

variable {δ : Type}

def final (own : List Token) : Span := (own.getLastD Tree.endToken).span

/-- From the first to the last of some tokens. -/
def extent (own : List Token) : Span := (own.headD Tree.endToken).span.upTo (final own)

/-- Derivations with their tokens, where some number of other tokens stands between neighbours. -/
def cut (gap : Nat) (yield : δ → List Kind) : List δ → List Token → List (δ × List Token)
  | [], _ => []
  | d :: rest, own =>
    (d, own.take (yield d).length) :: cut gap yield rest (own.drop ((yield d).length + gap))

/-! ## Trees with spans -/

def Constant.place (own : List Token) : Constant → UnitCompiler.Expr
  | .value literal => .literal literal (extent own)
  | .null => .null (extent own)

namespace Expr

mutual

def place : Expr → List Token → UnitCompiler.Expr
  | .call function arguments, own =>
    .call function (places arguments (own.drop 2).dropLast) (extent own)
  | .name word, own => .name word (extent own)
  | .constant value, own => value.place own

def places : List Expr → List Token → List UnitCompiler.Expr
  | [], _ => []
  | expr :: rest, own =>
    place expr (own.take (yield expr).length) :: places rest (own.drop ((yield expr).length + 1))

end

@[simp] theorem places_eq (list : List Expr) (own : List Token) :
    places list own = (cut 1 yield list own).map fun p => p.1.place p.2 := by
  induction list generalizing own with
  | nil => rfl
  | cons expr rest ih => simp [places, cut, ih]

end Expr

/-- A semicolon behind an expression is no part of it. -/
def Statement.place (statement : Statement) (own : List Token) : UnitCompiler.Expr :=
  statement.expr.place (own.take statement.expr.yield.length)

def TypeName.place (own : List Token) : TypeName → UnitCompiler.TypeName
  | .path names => ⟨names.dotted, extent own⟩
  | .quoted name => ⟨name, extent own⟩

def Param.place (param : Param) (own : List Token) : UnitCompiler.Param :=
  ⟨param.name, param.type.map fun type => type.place ((own.drop 2).take type.yield.length),
    param.default.map fun value => value.place (own.drop ((typed param.type).length + 2)), extent own⟩

namespace Function

def inParens (function : Function) (own : List Token) : List Token :=
  (own.drop 3).take (separatedBy .comma (function.parameters.map Param.yield)).length

def inBraces (function : Function) (own : List Token) : List Token :=
  (own.drop ((separatedBy .comma (function.parameters.map Param.yield)).length + 5)).dropLast

theorem inside {name : String} {parameters : List Param} {body : List Statement} {inner : List Token}
    (yields : inner.map Token.kind = separatedBy .comma (parameters.map Param.yield))
    (first second third closing opening last : Token) (behind : List Token) :
    let own := first :: (second :: third :: (inner ++ closing :: opening :: behind) ++ [last])
    inParens ⟨name, parameters, body⟩ own = inner ∧ inBraces ⟨name, parameters, body⟩ own = behind := by
  constructor
  · simp [inParens, ← yields]
  · rw [inBraces, ← yields, List.length_map]
    simp

def place (function : Function) (own : List Token) : UnitCompiler.Function :=
  ⟨function.name,
    (cut 1 Param.yield function.parameters (function.inParens own)).map fun p => p.1.place p.2,
    (cut 0 Statement.yield function.body (function.inBraces own)).map fun p => p.1.place p.2, extent own⟩

end Function

namespace ImportLine

def core (line : ImportLine) : ImportLine := { line with semicolon := false }

def place (line : ImportLine) (own : List Token) : UnitCompiler.ImportLine :=
  ⟨line.path.dotted, (line.names.map Names.list).getD [], line.shortName, extent own⟩

/-- A semicolon behind an import is no part of it. -/
def placeEnded (line : ImportLine) (own : List Token) : UnitCompiler.ImportLine :=
  line.place (own.take line.core.yield.length)

end ImportLine

def Item.place (own : List Token) : Item → UnitCompiler.Item
  | .function f => .function (f.place own)
  | .statement s => .statement (s.place own)

namespace Unit

def ofImports (unit : Unit) (own : List Token) : List Token :=
  own.take (unit.imports.flatMap ImportLine.yield).length

def ofItems (unit : Unit) (own : List Token) : List Token :=
  own.drop (unit.imports.flatMap ImportLine.yield).length

def place (unit : Unit) (own : List Token) : UnitTree :=
  ⟨(cut 0 ImportLine.yield unit.imports (unit.ofImports own)).map fun p => p.1.placeEnded p.2,
    (cut 0 Item.yield unit.items (unit.ofItems own)).map fun p => p.1.place p.2⟩

end Unit

@[simp] theorem Expr.place_span (expr : Expr) (own : List Token) : (expr.place own).span = extent own := by
  cases expr with
  | call | name => simp [Expr.place, UnitCompiler.Expr.span]
  | constant value => cases value <;> rfl

@[simp] theorem TypeName.place_span (type : TypeName) (own : List Token) :
    (type.place own).span = extent own := by
  cases type <;> rfl

theorem Expr.yield_ne_nil (expr : Expr) : expr.yield ≠ [] := by
  obtain ⟨first, rest, yielded, -⟩ := Expr.begins expr
  simp [yielded]

theorem TypeName.yield_ne_nil (type : TypeName) : type.yield ≠ [] := by
  cases type with
  | path names =>
    obtain ⟨first, rest, yielded⟩ := names.begins .dot
    simp [yield, yielded]
  | quoted name => simp [yield]

/-! ## Extents and cuts -/

theorem extent_of_ne_nil {own : List Token} (nonempty : own ≠ []) :
    ∃ first last, own.head? = some first ∧ own.getLast? = some last ∧
      extent own = first.span.upTo last.span := by
  refine ⟨own.head nonempty, own.getLast nonempty, List.head?_eq_some_head nonempty,
    List.getLast?_eq_some_getLast nonempty, ?_⟩
  rw [extent, final, List.headD_eq_head?_getD, List.getLastD_eq_getLast?, List.head?_eq_some_head nonempty,
    List.getLast?_eq_some_getLast nonempty]
  rfl

theorem final_append (front : List Token) {behind : List Token} (nonempty : behind ≠ []) :
    final (front ++ behind) = final behind := by
  rw [final, final, List.getLastD_eq_getLast?, List.getLastD_eq_getLast?, List.getLast?_append,
    List.getLast?_eq_some_getLast nonempty]
  rfl

/-- The last token of a part, or of what comes before it if the part is missing. -/
theorem final_optional {part : Option δ → List Kind} (absent : part none = [])
    (present : ∀ d, part (some d) ≠ []) {option : Option δ} {own : List Token}
    (yields : own.map Token.kind = part option) (front : List Token) :
    final (front ++ own) = (option.map fun _ => final own).getD (final front) := by
  cases option with
  | none =>
    rw [absent, List.map_eq_nil_iff] at yields
    rw [yields, List.append_nil]
    rfl
  | some d =>
    apply final_append
    rintro rfl
    exact present d yields.symm

theorem extent_cons (first : Token) {behind : List Token} (nonempty : behind ≠ []) :
    extent (first :: behind) = first.span.upTo (final behind) := by
  rw [extent, ← List.singleton_append, final_append [first] nonempty]
  rfl

/-- The last token of a part that another token opens. -/
theorem final_drop {start : Kind} {inner : List Kind} (nonempty : inner ≠ []) {own : List Token}
    (yields : own.map Token.kind = start :: inner) : final own = final (own.drop 1) := by
  obtain ⟨first, behind, rfl, -, yields⟩ := List.map_eq_cons_iff.mp yields
  apply final_append [first]
  rintro rfl
  exact nonempty yields.symm

theorem extent_enclosed (first : Token) (inner : List Token) (last : Token) :
    extent (first :: (inner ++ [last])) = first.span.upTo last.span := by
  rw [extent_cons _ (by simp), final_append _ (by simp)]
  rfl

section Cut

variable {gap : Nat} {yield : δ → List Kind}

theorem cut_single {d : δ} {own : List Token} (fits : own.length = (yield d).length) :
    cut gap yield [d] own = [(d, own)] := by
  simp [cut, ← fits]

theorem cut_row {d : δ} {own : List Token} (fits : own.length = (yield d).length) (rest : List δ)
    (separator : Token) (behind : List Token) :
    cut 1 yield (d :: rest) (own ++ separator :: behind) = (d, own) :: cut 1 yield rest behind := by
  simp [cut, ← fits]

theorem cut_next {d : δ} {own : List Token} (fits : own.length = (yield d).length) (rest : List δ)
    (behind : List Token) :
    cut 0 yield (d :: rest) (own ++ behind) = (d, own) :: cut 0 yield rest behind := by
  simp [cut, ← fits]

theorem cut_fst (list : List δ) (own : List Token) : (cut gap yield list own).map Prod.fst = list := by
  induction list generalizing own with
  | nil => rfl
  | cons d rest ih => simp [cut, ih]

theorem mem_of_cut {list : List δ} {own : List Token} {p : δ × List Token}
    (member : p ∈ cut gap yield list own) : p.1 ∈ list := by
  have given : p.1 ∈ (cut gap yield list own).map Prod.fst := List.mem_map_of_mem member
  rwa [cut_fst] at given

end Cut

end Derivation

/-! ## Readers -/

/-- What succeeds in two steps succeeds in each. -/
theorem bind_eq_ok {ε α β : Type} {x : Except ε α} {f : α → Except ε β} {result : β}
    (succeeded : x >>= f = .ok result) : ∃ value, x = .ok value ∧ f value = .ok result := by
  cases x with
  | error e => contradiction
  | ok value => exact ⟨value, rfl, succeeded⟩

namespace Tree

open Token (Kind)
open UnitCompiler.Derivation

variable {α δ : Type}

/-- A reader takes tokens from the front, and what it makes of them has a property. -/
def Traces (property : List Token → α → Prop) (reader : Reader α) : Prop :=
  ∀ tokens value rest, reader tokens = .ok (value, rest) →
    ∃ taken, tokens = taken ++ rest ∧ property taken value

/-- What is read is a derivation on the tokens that are taken. -/
def Sets (yield : δ → List Kind) (place : δ → List Token → α) (taken : List Token) (value : α) : Prop :=
  ∃ d, taken.map Token.kind = yield d ∧ value = place d taken

def SetsRow (separator : Kind) (yield : δ → List Kind) (place : δ → List Token → α) (taken : List Token)
    (values : List α) : Prop :=
  ∃ list : List δ, list ≠ [] ∧ taken.map Token.kind = separatedBy separator (list.map yield) ∧
    values = (cut 1 yield list taken).map fun p => place p.1 p.2

def SetsEnclosed (close : Kind) (yield : δ → List Kind) (place : δ → List Token → α) (taken : List Token)
    (value : List α × Span) : Prop :=
  ∃ (list : List δ) (inner : List Token) (last : Token), taken = inner ++ [last] ∧ last.kind = close ∧
    value.2 = last.span ∧ inner.map Token.kind = separatedBy .comma (list.map yield) ∧
    value.1 = (cut 1 yield list inner).map fun p => place p.1 p.2

def SetsRepeated (yield : δ → List Kind) (place : δ → List Token → α) (taken : List Token)
    (values : List α) : Prop :=
  ∃ list : List δ, taken.map Token.kind = list.flatMap yield ∧
    values = (cut 0 yield list taken).map fun p => place p.1 p.2

theorem accept_taken {kind : Kind} {tokens rest : List Token} (accepted : accept? kind tokens = some rest) :
    ∃ token, tokens = token :: rest ∧ token.kind = kind := by
  unfold accept? at accepted
  split at accepted
  · contradiction
  · next token behind =>
    split at accepted
    · next same =>
      cases accepted
      exact ⟨token, rfl, same⟩
    · contradiction

theorem expect_traces (kind : Kind) :
    Traces (fun taken span => ∃ token, taken = [token] ∧ token.kind = kind ∧ span = token.span)
      (expect kind) := by
  intro tokens span rest read
  unfold expect at read
  split at read
  · next behind accepted =>
    obtain ⟨token, rfl, same⟩ := accept_taken accepted
    cases read
    exact ⟨[token], rfl, token, rfl, same, rfl⟩
  · contradiction

theorem identifier_traces :
    Traces (Sets (fun name => [.identifier name]) fun name own => (name, extent own)) identifier := by
  intro tokens value rest read
  unfold identifier at read
  split at read
  · next name span behind =>
    cases read
    exact ⟨[⟨.identifier name, span⟩], rfl, name, rfl, rfl⟩
  · contradiction

section Rows

variable {yield : δ → List Kind} {place : δ → List Token → α} {item : Reader α}

theorem Sets.row {separator : Kind} {taken : List Token} {value : α} (sets : Sets yield place taken value) :
    SetsRow separator yield place taken [value] := by
  obtain ⟨d, yields, rfl⟩ := sets
  refine ⟨[d], by simp, by simpa [separatedBy] using yields, ?_⟩
  rw [cut_single (by simp [← yields])]
  rfl

theorem Sets.cons_row {token : Token} {taken later : List Token} {value : α} {values : List α}
    (sets : Sets yield place taken value) (others : SetsRow token.kind yield place later values) :
    SetsRow token.kind yield place (taken ++ token :: later) (value :: values) := by
  obtain ⟨d, yields, rfl⟩ := sets
  obtain ⟨list, nonempty, yields', rfl⟩ := others
  refine ⟨d :: list, by simp, ?_, ?_⟩
  · obtain ⟨second, more, rfl⟩ := List.exists_cons_of_ne_nil nonempty
    simp [separatedBy, yields, yields']
  · rw [cut_row (by simp [← yields])]
    rfl

theorem separated_traces (traces : Traces (Sets yield place) item) (separator : Kind) (fuel : Nat) :
    Traces (SetsRow separator yield place) (separated separator item fuel) := by
  induction fuel with
  | zero =>
    intro tokens values rest read
    unfold separated at read
    obtain ⟨⟨first, behind⟩, head, returned⟩ := bind_eq_ok read
    obtain ⟨taken, rfl, sets⟩ := traces tokens first behind head
    cases returned
    exact ⟨taken, rfl, sets.row⟩
  | succ fuel ih =>
    intro tokens values rest read
    unfold separated at read
    obtain ⟨⟨first, behind⟩, head, continued⟩ := bind_eq_ok read
    obtain ⟨taken, rfl, sets⟩ := traces tokens first behind head
    dsimp only at continued
    split at continued
    · next more accepted =>
      obtain ⟨⟨items, last⟩, tail, returned⟩ := bind_eq_ok continued
      obtain ⟨token, rfl, rfl⟩ := accept_taken accepted
      obtain ⟨later, rfl, others⟩ := ih more items last tail
      cases returned
      exact ⟨taken ++ token :: later, by simp, sets.cons_row others⟩
    · cases continued
      exact ⟨taken, rfl, sets.row⟩

theorem enclosed_traces (traces : Traces (Sets yield place) item) (close : Kind) :
    Traces (SetsEnclosed close yield place) (enclosed item close) := by
  intro tokens value rest read
  unfold enclosed at read
  dsimp only at read
  -- Whatever was read inside, the closing token comes next.
  have after (list : List δ) (inner behind : List Token)
      (yields : inner.map Token.kind = separatedBy .comma (list.map yield))
      (continued : (expect close behind >>= fun p => return (((cut 1 yield list inner).map
        fun p => place p.1 p.2, p.1), p.2)) = Except.ok (value, rest)) :
      ∃ taken, inner ++ behind = taken ++ rest ∧ SetsEnclosed close yield place taken value := by
    obtain ⟨⟨span, last⟩, closed, returned⟩ := bind_eq_ok continued
    obtain ⟨taken, rfl, token, rfl, same, rfl⟩ := expect_traces close _ _ _ closed
    cases returned
    exact ⟨inner ++ [token], by simp, list, inner, token, rfl, same, rfl, yields, rfl⟩
  split at read
  · obtain ⟨⟨items, behind⟩, inner, continued⟩ := bind_eq_ok read
    cases inner
    exact after [] [] tokens rfl continued
  · obtain ⟨⟨items, behind⟩, inner, continued⟩ := bind_eq_ok read
    obtain ⟨taken, rfl, list, -, yields, rfl⟩ := separated_traces traces _ _ _ _ _ inner
    exact after list taken behind yields continued

/-- Rounds of reading, each of which reads an item or ends the repetition. -/
theorem repeated_traces (traces : Traces (Sets yield place) item) {run : Nat → Reader (List α)}
    (rounds : ∀ fuel tokens result, run fuel tokens = .ok result → result = ([], tokens) ∨
      ∃ fuel', fuel = fuel' + 1 ∧ (item tokens >>= fun first => run fuel' first.2 >>= fun others =>
        return (first.1 :: others.1, others.2)) = Except.ok result) (fuel : Nat) :
    Traces (SetsRepeated yield place) (run fuel) := by
  induction fuel with
  | zero =>
    intro tokens values rest read
    obtain ⟨⟨⟩⟩ | ⟨fuel', impossible, -⟩ := rounds 0 tokens _ read
    · exact ⟨[], rfl, [], rfl, rfl⟩
    · contradiction
  | succ fuel ih =>
    intro tokens values rest read
    obtain ⟨⟨⟩⟩ | ⟨fuel', ⟨⟩, round⟩ := rounds (fuel + 1) tokens _ read
    · exact ⟨[], rfl, [], rfl, rfl⟩
    · obtain ⟨⟨first, behind⟩, head, continued⟩ := bind_eq_ok round
      obtain ⟨⟨others, last⟩, tail, returned⟩ := bind_eq_ok continued
      obtain ⟨taken, rfl, d, yields, rfl⟩ := traces _ _ _ head
      obtain ⟨later, rfl, list, yields', rfl⟩ := ih _ _ _ tail
      cases returned
      refine ⟨taken ++ later, by simp, d :: list, by simp [yields, yields'], ?_⟩
      rw [cut_next (by simp [← yields])]
      rfl

end Rows

/-! ## Paths and imports -/

/-- A row of names reaches from its first name to its last one. -/
theorem names_extent {separator : Kind} {list : List String} (nonempty : list ≠ []) {taken : List Token}
    (yields : taken.map Token.kind = separatedBy separator (list.map fun name => [.identifier name]))
    (default : String × Span) :
    let names := (cut 1 (fun name => [Kind.identifier name]) list taken).map fun p => (p.1, extent p.2)
    (names.headD default).2.upTo (names.getLastD default).2 = extent taken := by
  induction list generalizing taken default with
  | nil => contradiction
  | cons name others ih =>
    cases others with
    | nil =>
      obtain ⟨token, rfl, -⟩ := List.map_eq_singleton_iff.mp yields
      rfl
    | cons second others =>
      obtain ⟨token, behind, rfl, -, yields⟩ := List.map_eq_cons_iff.mp yields
      obtain ⟨mark, behind, rfl, -, yields⟩ := List.map_eq_cons_iff.mp yields
      have filled : behind ≠ [] := by
        rintro rfl
        cases others <;> simp [separatedBy] at yields
      have later := ih (by simp) yields (name, extent [token])
      have last : final (mark :: behind) = final behind := final_append [mark] filled
      have whole : extent (token :: mark :: behind) = token.span.upTo (extent behind) := by
        rw [extent_cons _ (by simp), last]
        rfl
      rw [whole, ← later]
      rfl

theorem path_traces :
    Traces (Sets (Names.yield .dot) fun names own => (names.dotted, extent own)) path := by
  intro tokens value rest read
  unfold path at read
  obtain ⟨⟨names, behind⟩, row, returned⟩ := bind_eq_ok read
  obtain ⟨taken, rfl, list, nonempty, yields, rfl⟩ := separated_traces identifier_traces _ _ _ _ _ row
  cases returned
  refine ⟨taken, rfl, ⟨list, nonempty⟩, yields, ?_⟩
  rw [names_extent nonempty yields, List.map_map]
  exact congrArg (fun names => (".".intercalate names, extent taken)) (cut_fst list taken)

/-- A part that may be missing. -/
theorem optional_traces {property : List Token → α → Prop} {inner : Reader α}
    (traces : Traces property inner) (start : Kind) :
    Traces (fun taken value => taken = [] ∧ value = none ∨ ∃ token own part, taken = token :: own ∧
      token.kind = start ∧ value = some part ∧ property own part) (optional start inner) := by
  intro tokens value rest read
  unfold optional at read
  split at read
  · cases read
    exact ⟨[], rfl, .inl ⟨rfl, rfl⟩⟩
  · next more accepted =>
    obtain ⟨⟨part, behind⟩, own, returned⟩ := bind_eq_ok read
    obtain ⟨token, rfl, same⟩ := accept_taken accepted
    obtain ⟨taken, rfl, holds⟩ := traces _ _ _ own
    cases returned
    exact ⟨token :: taken, rfl, .inr ⟨token, taken, part, rfl, same, rfl, holds⟩⟩

theorem importNames_traces :
    Traces (Sets ImportLine.bracketed fun names own => names.map fun names => (names.list, final own))
      importNames := by
  have row : Traces (fun taken value => ∃ (names : Names) (inner : List Token) (last : Token),
      taken = inner ++ [last] ∧ last.kind = .closeBracket ∧ inner.map Token.kind = names.yield .comma ∧
      value = (names.list, last.span)) nameRow := by
    intro tokens value rest read
    unfold nameRow at read
    obtain ⟨⟨names, behind⟩, inner, continued⟩ := bind_eq_ok read
    obtain ⟨⟨close, last⟩, closed, returned⟩ := bind_eq_ok continued
    obtain ⟨taken, rfl, list, nonempty, yields, rfl⟩ := separated_traces identifier_traces _ _ _ _ _ inner
    obtain ⟨_, rfl, token, rfl, same, rfl⟩ := expect_traces _ _ _ _ closed
    cases returned
    refine ⟨taken ++ [token], by simp, ⟨list, nonempty⟩, taken, token, rfl, same, yields, ?_⟩
    rw [List.map_map]
    exact congrArg (·, token.span) (cut_fst list taken)
  intro tokens value rest read
  rw [importNames_eq] at read
  obtain ⟨taken, rfl, ⟨rfl, rfl⟩ | ⟨token, own, part, rfl, same, rfl, holds⟩⟩ :=
    optional_traces row _ _ _ _ read
  · exact ⟨[], rfl, none, rfl, rfl⟩
  · obtain ⟨names, inner, last, rfl, close, yields, rfl⟩ := holds
    refine ⟨token :: (inner ++ [last]), rfl, some names, ?_, ?_⟩
    · simp [ImportLine.bracketed, same, close, yields]
    · have closing : final (token :: (inner ++ [last])) = last.span :=
        final_append (token :: inner) (by simp)
      exact congrArg (fun span => some (names.list, span)) closing.symm

theorem importAlias_traces :
    Traces (Sets ImportLine.aliased fun name own => name.map fun name => (name, final own)) importAlias := by
  intro tokens value rest read
  rw [importAlias_eq] at read
  obtain ⟨taken, rfl, ⟨rfl, rfl⟩ | ⟨token, own, part, rfl, same, rfl, name, yields, rfl⟩⟩ :=
    optional_traces identifier_traces _ _ _ _ read
  · exact ⟨[], rfl, none, rfl, rfl⟩
  · obtain ⟨word, rfl, -⟩ := List.map_eq_singleton_iff.mp yields
    exact ⟨[token, word], rfl, some name, by simp [ImportLine.aliased, same, ← yields], rfl⟩

theorem skipSemicolon_taken (tokens : List Token) : ∃ taken semicolon,
    tokens = taken ++ skipSemicolon tokens ∧ taken.map Token.kind = ending semicolon := by
  unfold skipSemicolon
  cases accepted : accept? .semicolon tokens with
  | none => exact ⟨[], false, rfl, rfl⟩
  | some rest =>
    obtain ⟨token, rfl, same⟩ := accept_taken accepted
    exact ⟨[token], true, rfl, by simp [ending, same]⟩

theorem importLine_traces : Traces (Sets ImportLine.yield ImportLine.placeEnded) importLine := by
  intro tokens value rest read
  unfold importLine at read
  obtain ⟨⟨start, afterWord⟩, word, continued⟩ := bind_eq_ok read
  obtain ⟨⟨⟨dotted, pathSpan⟩, afterPath⟩, path, continued⟩ := bind_eq_ok continued
  obtain ⟨⟨names, afterNames⟩, bracketed, continued⟩ := bind_eq_ok continued
  obtain ⟨⟨shortName, afterAlias⟩, aliased, returned⟩ := bind_eq_ok continued
  obtain ⟨_, rfl, token, rfl, same, rfl⟩ := expect_traces _ _ _ _ word
  obtain ⟨pathTokens, rfl, path', pathYields, ⟨⟩⟩ := path_traces _ _ _ path
  obtain ⟨nameTokens, rfl, names', nameYields, rfl⟩ := importNames_traces _ _ _ bracketed
  obtain ⟨aliasTokens, rfl, alias', aliasYields, rfl⟩ := importAlias_traces _ _ _ aliased
  obtain ⟨marks, semicolon, split, markYields⟩ := skipSemicolon_taken afterAlias
  cases returned
  have core : (token :: (pathTokens ++ (nameTokens ++ aliasTokens))).map Token.kind =
      (Derivation.ImportLine.core ⟨path', names', alias', semicolon⟩).yield := by
    simp [ImportLine.core, ImportLine.yield, ending, same, pathYields, nameYields, aliasYields]
  have filled : pathTokens ++ (nameTokens ++ aliasTokens) ≠ [] := by
    obtain ⟨name, more, begun⟩ := path'.begins .dot
    rw [begun] at pathYields
    obtain ⟨first, others, rfl, -⟩ := List.map_eq_cons_iff.mp pathYields
    exact List.cons_ne_nil _ _
  refine ⟨token :: (pathTokens ++ (nameTokens ++ aliasTokens)) ++ marks, ?_,
    ⟨path', names', alias', semicolon⟩, ?_, ?_⟩
  · simp only [List.append_assoc, List.cons_append, ← split]
    rfl
  · simp [ImportLine.yield, same, pathYields, nameYields, aliasYields, markYields]
  · have last := final_optional rfl (by simp [ImportLine.aliased]) aliasYields (pathTokens ++ nameTokens)
    rw [final_optional rfl (by simp [ImportLine.bracketed]) nameYields pathTokens] at last
    have span : extent (token :: (pathTokens ++ (nameTokens ++ aliasTokens))) = token.span.upTo
        ((alias'.map fun _ => final aliasTokens).getD
          ((names'.map fun _ => final nameTokens).getD (final pathTokens))) := by
      rw [extent_cons _ filled, ← List.append_assoc, last]
    rw [ImportLine.placeEnded, ← core, List.length_map, List.take_left, ImportLine.place, span]
    cases names' <;> cases alias' <;> rfl

/-! ## Expressions and functions -/

theorem literal_kind {kind : Kind} {value : Literal} (literal : literal? kind = some value) :
    kind = (Constant.value value).kind := by
  cases kind <;> cases literal <;> rfl

theorem expr_traces (fuel : Nat) :
    Traces (Sets Derivation.Expr.yield Derivation.Expr.place) (expr fuel) := by
  induction fuel using Nat.strongRecOn with
  | ind fuel ih =>
  intro tokens value rest read
  have single {token : Token} (d : Derivation.Expr) (yields : [token.kind] = d.yield)
      (placed : value = d.place [token]) :
      ∃ taken, token :: rest = taken ++ rest ∧
        Sets Derivation.Expr.yield Derivation.Expr.place taken value :=
    ⟨[token], rfl, d, yields, placed⟩
  unfold expr at read
  split at read
  · next name span behind =>
    split at read
    · next inside fuel accepted =>
      obtain ⟨⟨⟨arguments, close⟩, last⟩, inner, returned⟩ := bind_eq_ok read
      obtain ⟨token, rfl, opens⟩ := accept_taken accepted
      obtain ⟨_, rfl, list, own, closing, rfl, closes, rfl, yields, rfl⟩ :=
        enclosed_traces (ih fuel (Nat.lt_succ_self _)) _ _ _ _ inner
      cases returned
      refine ⟨⟨.identifier name, span⟩ :: token :: (own ++ [closing]), by simp, .call name list, ?_, ?_⟩
      · simp [Derivation.Expr.yield, opens, closes, yields]
      · rw [Derivation.Expr.place, Derivation.Expr.places_eq, ← List.cons_append, extent_enclosed]
        simp
    · cases read
      exact single (.name name) rfl rfl
  · cases read
    exact single (.constant .null) rfl rfl
  · split at read
    · next literal =>
      cases read
      exact single (.constant (.value _)) (congrArg ([·]) (literal_kind literal)) rfl
    · contradiction
  · contradiction

theorem statement_traces : Traces (Sets Statement.yield Statement.place) statement := by
  intro tokens value rest read
  unfold statement at read
  obtain ⟨⟨first, behind⟩, inner, returned⟩ := bind_eq_ok read
  obtain ⟨taken, rfl, d, yields, rfl⟩ := expr_traces _ _ _ _ inner
  obtain ⟨marks, semicolon, split, markYields⟩ := skipSemicolon_taken behind
  cases returned
  refine ⟨taken ++ marks, by rw [List.append_assoc, ← split], ⟨d, semicolon⟩, ?_, ?_⟩
  · simp [Statement.yield, yields, markYields]
  · rw [Statement.place, ← yields, List.length_map, List.take_left]

theorem typeName_traces :
    Traces (Sets Derivation.TypeName.yield fun type own => type.place own) typeName := by
  intro tokens value rest read
  unfold typeName at read
  split at read
  · next name span behind =>
    cases read
    exact ⟨[⟨.quotedType name, span⟩], rfl, .quoted name, rfl, rfl⟩
  · obtain ⟨⟨⟨name, span⟩, behind⟩, path, returned⟩ := bind_eq_ok read
    obtain ⟨taken, rfl, names, yields, ⟨⟩⟩ := path_traces _ _ _ path
    cases returned
    exact ⟨taken, rfl, .path names, yields, rfl⟩

theorem paramType_traces :
    Traces (Sets Derivation.Param.typed fun type own => type.map fun type => type.place (own.drop 1))
      paramType := by
  intro tokens value rest read
  rw [paramType_eq] at read
  obtain ⟨taken, rfl, ⟨rfl, rfl⟩ | ⟨token, own, part, rfl, same, rfl, type, yields, rfl⟩⟩ :=
    optional_traces typeName_traces _ _ _ _ read
  · exact ⟨[], rfl, none, rfl, rfl⟩
  · exact ⟨token :: own, rfl, some type, by simp [Derivation.Param.typed, same, yields], rfl⟩

theorem paramDefault_traces :
    Traces (Sets Derivation.Param.defaulted fun value own => value.map fun value => value.place (own.drop 1))
      paramDefault := by
  intro tokens value rest read
  rw [paramDefault_eq] at read
  obtain ⟨taken, rfl, ⟨rfl, rfl⟩ | ⟨token, own, part, rfl, same, rfl, d, yields, rfl⟩⟩ :=
    optional_traces (fun tokens => expr_traces tokens.length tokens) _ _ _ _ read
  · exact ⟨[], rfl, none, rfl, rfl⟩
  · exact ⟨token :: own, rfl, some d, by simp [Derivation.Param.defaulted, same, yields], rfl⟩

/-- A parameter on its tokens: its name, a type behind a colon and a default behind a mark of its own. -/
theorem param_placed {name : String} {token : Token} {type : Option Derivation.TypeName}
    {default : Option Derivation.Expr} {typeTokens defaultTokens : List Token}
    (typeYields : typeTokens.map Token.kind = Derivation.Param.typed type)
    (defaultYields : defaultTokens.map Token.kind = Derivation.Param.defaulted default) :
    let type' := type.map fun type => type.place (typeTokens.drop 1)
    let default' := default.map fun value => value.place (defaultTokens.drop 1)
    Param.mk name type' default'
      (token.span.upTo ((default'.map Expr.span).getD ((type'.map TypeName.span).getD token.span))) =
    Derivation.Param.place ⟨name, type, default⟩ (token :: (typeTokens ++ defaultTokens)) := by
  have whole : extent (token :: (typeTokens ++ defaultTokens)) = token.span.upTo
      ((default.map fun _ => final defaultTokens).getD
        ((type.map fun _ => final typeTokens).getD token.span)) := by
    have last := final_optional rfl (by simp [Derivation.Param.defaulted]) defaultYields
      ([token] ++ typeTokens)
    rw [final_optional rfl (by simp [Derivation.Param.typed]) typeYields [token]] at last
    exact congrArg token.span.upTo last
  have typed : (type.map fun type => type.place (typeTokens.drop 1)) =
      type.map fun type => type.place (((typeTokens ++ defaultTokens).drop 1).take type.yield.length) := by
    cases type with
    | none => rfl
    | some type =>
      obtain ⟨colon, inner, rfl, -, yields⟩ := List.map_eq_cons_iff.mp typeYields
      simp [← yields]
  rw [Derivation.Param.place, whole]
  simp only [List.drop_succ_cons]
  rw [← typed, ← typeYields, List.length_map, List.drop_length_add_append]
  cases default with
  | some value =>
    have last := final_drop value.yield_ne_nil defaultYields
    simp only [Option.map_some, Option.getD_some, Expr.place_span, last]
    rfl
  | none =>
    cases type with
    | none => rfl
    | some type =>
      have last := final_drop type.yield_ne_nil typeYields
      simp only [Option.map_some, Option.map_none, Option.getD_some, Option.getD_none,
        TypeName.place_span, last]
      rfl

theorem param_traces : Traces (Sets Derivation.Param.yield Derivation.Param.place) param := by
  intro tokens value rest read
  unfold param at read
  obtain ⟨⟨⟨name, start⟩, afterName⟩, named, continued⟩ := bind_eq_ok read
  obtain ⟨⟨type, afterType⟩, typed, continued⟩ := bind_eq_ok continued
  obtain ⟨⟨default, afterDefault⟩, defaulted, returned⟩ := bind_eq_ok continued
  obtain ⟨nameTokens, rfl, word, nameYields, ⟨⟩⟩ := identifier_traces _ _ _ named
  obtain ⟨typeTokens, rfl, type', typeYields, rfl⟩ := paramType_traces _ _ _ typed
  obtain ⟨defaultTokens, rfl, default', defaultYields, rfl⟩ := paramDefault_traces _ _ _ defaulted
  obtain ⟨token, rfl, same⟩ := List.map_eq_singleton_iff.mp nameYields
  cases returned
  refine ⟨token :: (typeTokens ++ defaultTokens), by simp, ⟨name, type', default'⟩, ?_, ?_⟩
  · simp [Derivation.Param.yield, same, typeYields, defaultYields]
  · exact param_placed typeYields defaultYields

theorem statements_traces (fuel : Nat) :
    Traces (SetsRepeated Statement.yield Statement.place) (statements fuel) := by
  refine repeated_traces statement_traces (fun fuel tokens result read => ?_) fuel
  unfold statements at read
  split at read
  · exact .inl (Except.ok.inj read).symm
  · exact .inl (Except.ok.inj read).symm
  · exact .inl (Except.ok.inj read).symm
  · exact .inr ⟨_, rfl, read⟩

theorem importLines_traces (fuel : Nat) :
    Traces (SetsRepeated ImportLine.yield ImportLine.placeEnded) (importLines fuel) := by
  refine repeated_traces importLine_traces (fun fuel tokens result read => ?_) fuel
  unfold importLines at read
  split at read
  · exact .inr ⟨_, rfl, read⟩
  · exact .inl (Except.ok.inj read).symm

theorem function_traces : Traces (Sets Derivation.Function.yield Derivation.Function.place) function := by
  intro tokens value rest read
  unfold function at read
  obtain ⟨⟨start, afterFn⟩, fn, continued⟩ := bind_eq_ok read
  obtain ⟨⟨⟨name, nameSpan⟩, afterName⟩, named, continued⟩ := bind_eq_ok continued
  obtain ⟨⟨openSpan, afterOpen⟩, opened, continued⟩ := bind_eq_ok continued
  obtain ⟨⟨⟨parameters, closeSpan⟩, afterClose⟩, params, continued⟩ := bind_eq_ok continued
  obtain ⟨⟨braceSpan, afterBrace⟩, braced, continued⟩ := bind_eq_ok continued
  obtain ⟨⟨body, afterBody⟩, statements, continued⟩ := bind_eq_ok continued
  obtain ⟨⟨close, last⟩, closed, returned⟩ := bind_eq_ok continued
  obtain ⟨_, rfl, fnToken, rfl, isFn, rfl⟩ := expect_traces _ _ _ _ fn
  obtain ⟨_, rfl, word, nameYields, ⟨⟩⟩ := identifier_traces _ _ _ named
  obtain ⟨_, rfl, openToken, rfl, isOpen, rfl⟩ := expect_traces _ _ _ _ opened
  obtain ⟨_, rfl, list, inner, closeToken, rfl, isClose, ⟨⟩, paramYields, rfl⟩ :=
    enclosed_traces param_traces _ _ _ _ params
  obtain ⟨_, rfl, braceToken, rfl, isBrace, rfl⟩ := expect_traces _ _ _ _ braced
  obtain ⟨bodyTokens, rfl, body', bodyYields, rfl⟩ := statements_traces _ _ _ _ statements
  obtain ⟨_, rfl, endToken, rfl, isEnd, rfl⟩ := expect_traces _ _ _ _ closed
  obtain ⟨nameToken, rfl, isName⟩ := List.map_eq_singleton_iff.mp nameYields
  cases returned
  refine ⟨fnToken :: (nameToken :: openToken :: (inner ++ closeToken :: braceToken :: bodyTokens) ++
    [endToken]), by simp, ⟨name, list, body'⟩, ?_, ?_⟩
  · simp [Derivation.Function.yield, isFn, isName, isOpen, paramYields, isClose, isBrace, bodyYields, isEnd]
  · obtain ⟨parens, braces⟩ := Derivation.Function.inside paramYields fnToken nameToken openToken closeToken
      braceToken endToken bodyTokens
    rw [Derivation.Function.place, parens, braces, extent_enclosed]

/-! ## Units -/

theorem item_traces : Traces (Sets Derivation.Item.yield fun item own => item.place own) item := by
  intro tokens value rest read
  unfold item at read
  split at read
  · contradiction
  · obtain ⟨⟨f, behind⟩, function, returned⟩ := bind_eq_ok read
    obtain ⟨taken, rfl, d, yields, rfl⟩ := function_traces _ _ _ function
    cases returned
    exact ⟨taken, rfl, .function d, yields, rfl⟩
  · obtain ⟨⟨e, behind⟩, statement, returned⟩ := bind_eq_ok read
    obtain ⟨taken, rfl, d, yields, rfl⟩ := statement_traces _ _ _ statement
    cases returned
    exact ⟨taken, rfl, .statement d, yields, rfl⟩

theorem itemRow_traces (fuel : Nat) :
    Traces (SetsRepeated Derivation.Item.yield fun item own => item.place own) (itemRow fuel) := by
  refine repeated_traces item_traces (fun fuel tokens result read => ?_) fuel
  unfold itemRow at read
  split at read
  · exact .inl (Except.ok.inj read).symm
  · exact .inl (Except.ok.inj read).symm
  · exact .inr ⟨_, rfl, read⟩

theorem unitRow_traces : Traces (Sets Derivation.Unit.yield Derivation.Unit.place) unitRow := by
  intro tokens value rest read
  unfold unitRow at read
  obtain ⟨⟨imports, behind⟩, lines, continued⟩ := bind_eq_ok read
  obtain ⟨⟨list, last⟩, items, returned⟩ := bind_eq_ok continued
  obtain ⟨taken, rfl, imports', importYields, rfl⟩ := importLines_traces _ _ _ _ lines
  obtain ⟨later, rfl, items', itemYields, rfl⟩ := itemRow_traces _ _ _ _ items
  cases returned
  refine ⟨taken ++ later, by simp, ⟨imports', items'⟩, ?_, ?_⟩
  · simp [Derivation.Unit.yield, importYields, itemYields]
  · simp [Derivation.Unit.place, Derivation.Unit.ofImports, Derivation.Unit.ofItems, ← importYields]

/-- The tree of a unit is a derivation on tokens from the front. -/
theorem unit_traces {tokens : List Token} {tree : UnitTree} (read : unit tokens = .ok tree) :
    ∃ (d : Derivation.Unit) (taken : List Token), taken <+: tokens ∧ taken.map Token.kind = d.yield ∧
      tree = d.place taken := by
  rw [unit_eq] at read
  cases row : unitRow tokens with
  | error e =>
    rw [row] at read
    contradiction
  | ok parsed =>
    rw [row] at read
    cases read
    obtain ⟨taken, split, d, yields, same⟩ := unitRow_traces _ _ _ row
    exact ⟨d, taken, ⟨parsed.2, split.symm⟩, yields, same⟩

/-- The tree of a unit is its derivation on the tokens in front of the end of input. -/
theorem unit_placed {body : List Token} {last : Token} (inside : ∀ token ∈ body, token.kind ≠ .endOfInput)
    (ends : last.kind = .endOfInput) {tree : UnitTree} (read : unit (body ++ [last]) = .ok tree) :
    ∃ d : Derivation.Unit, body.map Token.kind = d.yield ∧ tree = d.place body := by
  rw [unit_eq] at read
  cases unitRow_looks (body ++ [last]) ⟨last, by simp, ends⟩ with
  | stops taken next behind value whole _ means same =>
    obtain ⟨rfl, rfl⟩ := split_at_end whole means.1 inside
    have row := same (body.length + 1) [] (Nat.lt_succ_self _)
    rw [row] at read
    cases read
    obtain ⟨taken, split, d, yields, rfl⟩ := unitRow_traces _ _ _ row
    obtain ⟨rfl, -⟩ := List.append_inj' split rfl
    exact ⟨d, yields, rfl⟩
  | fails taken next behind expected whole same =>
    rw [whole, same (taken.length + 1) behind (Nat.lt_succ_self _)] at read
    contradiction

/-- Every derivation is read from tokens of the kinds that it yields. -/
theorem unit_derived {d : Derivation.Unit} {body : List Token} {last : Token}
    (inside : ∀ token ∈ body, token.kind ≠ .endOfInput) (ends : last.kind = .endOfInput)
    (yields : body.map Token.kind = d.yield) :
    unit (body ++ [last]) = .ok (d.place body) ∧ (d.place body).bare = d.tree := by
  obtain ⟨row, read⟩ := unitRow_takes d body [last] yields ⟨[], by simp [ends]⟩
  rcases unit_outcome body last inside ends with
    ⟨d', tree, yields', bare, accepted⟩ | ⟨token, -, expected, refused⟩
  · obtain rfl := Derivation.Unit.yield_injective (yields'.trans yields)
    have accepted := accepted []
    obtain ⟨other, fits, rfl⟩ := unit_placed inside ends accepted
    obtain rfl := Derivation.Unit.yield_injective (fits.symm.trans yields)
    exact ⟨accepted, bare⟩
  · have refused := refused []
    rw [unit_eq, read] at refused
    contradiction

end Tree

end UnitCompiler
