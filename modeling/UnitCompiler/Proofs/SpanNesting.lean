import UnitCompiler.Proofs.DeclarationRendering
import UnitCompiler.Proofs.DerivationPlacement
import UnitCompiler.Proofs.TokenTiling

/-! Spans nest. The tokens of a text stand one behind the other, a node of a tree reaches from its first
to its last token, and the nodes below it are made of tokens between these two, each of tokens behind
those of the one before. -/

namespace UnitCompiler

namespace Span

structure Inside (inner outer : Span) : Prop where
  start : outer.start ≤ inner.start
  stop : inner.stop ≤ outer.stop

theorem Inside.refl (s : Span) : s.Inside s := ⟨Nat.le_refl _, Nat.le_refl _⟩

theorem Inside.trans {inner middle outer : Span} (first : inner.Inside middle)
    (second : middle.Inside outer) : inner.Inside outer :=
  ⟨second.start.trans first.start, first.stop.trans second.stop⟩

end Span

namespace Token

/-! ## The order of tokens -/

theorem Ordered.first_le {tokens : List Token} (ordered : Ordered tokens) {first token : Token}
    (head : tokens.head? = some first) (member : token ∈ tokens) :
    first.span.start ≤ token.span.start := by
  cases tokens with
  | nil => contradiction
  | cons other rest =>
    cases head
    rcases List.mem_cons.mp member with rfl | later
    · exact Nat.le_refl _
    · have before := List.rel_of_pairwise_cons ordered.precedes later
      exact Nat.le_trans (ordered.proper first List.mem_cons_self) before.le

theorem Ordered.le_last {tokens : List Token} (ordered : Ordered tokens) {last token : Token}
    (end_ : tokens.getLast? = some last) (member : token ∈ tokens) :
    token.span.stop ≤ last.span.stop := by
  obtain ⟨front, rfl⟩ := List.getLast?_eq_some_iff.mp end_
  rcases List.mem_append.mp member with earlier | here
  · have before := (List.pairwise_append.mp ordered.precedes).2.2 token earlier last List.mem_cons_self
    exact before.le.trans (ordered.proper last (List.mem_append_right _ List.mem_cons_self))
  · rw [List.mem_singleton.mp here]

end Token

/-! ## Nodes -/

inductive Node where
  | importLine (line : ImportLine)
  | function (function : Function)
  | param (param : Param)
  | type (type : TypeName)
  | expr (expr : Expr)

namespace Node

def span : Node → Span
  | .importLine line => line.span
  | .function f => f.span
  | .param p => p.span
  | .type t => t.span
  | .expr e => e.span

/-- The nodes right below a node, in the order they are written in. -/
def children : Node → List Node
  | .importLine _ => []
  | .function f => f.parameters.map .param ++ f.body.map .expr
  | .param p => p.type.toList.map .type ++ p.default.toList.map .expr
  | .type _ => []
  | .expr (.call _ arguments _) => arguments.map .expr
  | .expr _ => []

end Node

def Item.node : Item → Node
  | .function f => .function f
  | .statement e => .expr e

def UnitTree.roots (tree : UnitTree) : List Node := tree.imports.map .importLine ++ tree.items.map Item.node

inductive UnitTree.HasNode (tree : UnitTree) : Node → Prop where
  | root {node : Node} (member : node ∈ tree.roots) : HasNode tree node
  | child {parent node : Node} (above : HasNode tree parent) (member : node ∈ parent.children) :
    HasNode tree node

namespace Derivation

open Token (Kind Ordered)

variable {δ ε : Type}

inductive Node where
  | importLine (line : ImportLine)
  | function (function : Function)
  | param (param : Param)
  | type (type : TypeName)
  | expr (expr : Expr)

/-- A statement is no node, but its expression is one. -/
def Statement.part (p : Statement × List Token) : Node × List Token :=
  (.expr p.1.expr, p.2.take p.1.expr.yield.length)

def Item.part : Item × List Token → Node × List Token
  | (.function f, own) => (.function f, own)
  | (.statement s, own) => Statement.part (s, own)

def ImportLine.part (p : ImportLine × List Token) : Node × List Token :=
  (.importLine p.1, p.2.take p.1.core.yield.length)

namespace Node

/-- The semicolon of an import is not part of the node. -/
def yield : Node → List Kind
  | .importLine line => line.core.yield
  | .function f => f.yield
  | .param p => p.yield
  | .type t => t.yield
  | .expr e => e.yield

def place (own : List Token) : Node → UnitCompiler.Node
  | .importLine line => .importLine (line.place own)
  | .function f => .function (f.place own)
  | .param p => .param (p.place own)
  | .type t => .type (t.place own)
  | .expr e => .expr (e.place own)

/-- The nodes right below a node, each with its own of the tokens. -/
def parts (own : List Token) : Node → List (Node × List Token)
  | .importLine _ => []
  | .function f =>
    (cut 1 Param.yield f.parameters (f.inParens own)).map (fun p => (.param p.1, p.2)) ++
      (cut 0 Statement.yield f.body (f.inBraces own)).map Statement.part
  | .param p =>
    p.type.toList.map (fun t => (.type t, (own.drop 2).take t.yield.length)) ++
      p.default.toList.map fun value => (.expr value, own.drop ((Param.typed p.type).length + 2))
  | .type _ => []
  | .expr (.call _ arguments) =>
    (cut 1 Expr.yield arguments (own.drop 2).dropLast).map fun p => (.expr p.1, p.2)
  | .expr _ => []

@[simp] theorem place_span (node : Node) (own : List Token) : (node.place own).span = extent own := by
  cases node with
  | importLine | function | param => rfl
  | type t => exact t.place_span own
  | expr e => exact e.place_span own

theorem yield_ne_nil (node : Node) : node.yield ≠ [] := by
  cases node with
  | importLine | function | param => exact List.cons_ne_nil _ _
  | type t => exact t.yield_ne_nil
  | expr e => exact e.yield_ne_nil

theorem children_place (node : Node) (own : List Token) :
    (node.place own).children = (node.parts own).map fun p => p.1.place p.2 := by
  cases node with
  | importLine | type => rfl
  | function f =>
    simp only [place, UnitCompiler.Node.children, Function.place, parts, List.map_append, List.map_map]
    rfl
  | param p =>
    cases type : p.type <;> cases value : p.default <;>
      simp [place, UnitCompiler.Node.children, Param.place, parts, type, value]
  | expr e =>
    cases e with
    | call name arguments =>
      simp only [place, Expr.place, Expr.places_eq, UnitCompiler.Node.children, parts, List.map_map]
      rfl
    | name => simp [place, Expr.place, UnitCompiler.Node.children, parts]
    | constant value => cases value <;> rfl

end Node

def Unit.parts (unit : Unit) (own : List Token) : List (Node × List Token) :=
  (cut 0 ImportLine.yield unit.imports (unit.ofImports own)).map ImportLine.part ++
    (cut 0 Item.yield unit.items (unit.ofItems own)).map Item.part

theorem Unit.roots_place (unit : Unit) (own : List Token) :
    (unit.place own).roots = (unit.parts own).map fun p => p.1.place p.2 := by
  simp only [UnitTree.roots, Unit.place, Unit.parts, List.map_append, List.map_map]
  congr 1
  apply List.map_congr_left
  rintro ⟨item, own⟩ -
  cases item <;> rfl

/-! ## Parts among tokens -/

def Fits (yield : δ → List Kind) (p : δ × List Token) : Prop := p.2.map Token.kind = yield p.1

/-- Derivations on some of the tokens, each behind the one before. -/
inductive Strewn (yield : δ → List Kind) : List Token → List (δ × List Token) → Prop where
  | nil (own : List Token) : Strewn yield own []
  | cons (gap : List Token) {p : δ × List Token} {rest : List Token} {parts : List (δ × List Token)}
      (fits : Fits yield p) (others : Strewn yield rest parts) :
      Strewn yield (gap ++ (p.2 ++ rest)) (p :: parts)

namespace Strewn

variable {yield : δ → List Kind} {own more : List Token} {parts others : List (δ × List Token)}

theorem behind (front : List Token) (strewn : Strewn yield own parts) :
    Strewn yield (front ++ own) parts := by
  cases strewn with
  | nil => exact .nil _
  | cons gap fits rest =>
    rw [← List.append_assoc]
    exact .cons (front ++ gap) fits rest

theorem append (first : Strewn yield own parts) (second : Strewn yield more others) :
    Strewn yield (own ++ more) (parts ++ others) := by
  induction first with
  | nil own => exact second.behind own
  | cons gap fits _ ih =>
    rw [List.append_assoc, List.append_assoc]
    exact .cons gap fits ih

theorem map {yield' : ε → List Kind} {f : δ × List Token → ε × List Token}
    (inner : ∀ p, Fits yield p → (f p).2 <+: p.2 ∧ Fits yield' (f p)) (strewn : Strewn yield own parts) :
    Strewn yield' own (parts.map f) := by
  induction strewn with
  | nil own => exact .nil own
  | @cons gap p rest _ fits _ ih =>
    obtain ⟨⟨back, split⟩, fits'⟩ := inner p fits
    rw [← split, List.append_assoc]
    exact .cons gap fits' (ih.behind back)

theorem single {p : δ × List Token} (fits : Fits yield p) : Strewn yield p.2 [p] := by
  have alone := Strewn.cons [] fits (.nil [])
  rwa [List.nil_append, List.append_nil] at alone

theorem next {p : δ × List Token} (fits : Fits yield p) (strewn : Strewn yield own parts) :
    Strewn yield (p.2 ++ own) (p :: parts) :=
  .cons [] fits strewn

theorem mem (strewn : Strewn yield own parts) {p : δ × List Token} (member : p ∈ parts) :
    p.2 <:+: own ∧ Fits yield p := by
  induction strewn with
  | nil => contradiction
  | @cons gap q rest _ fits _ ih =>
    rcases List.mem_cons.mp member with rfl | later
    · exact ⟨⟨gap, rest, by simp⟩, fits⟩
    · obtain ⟨among, fits⟩ := ih later
      exact ⟨among.trans ⟨gap ++ q.2, [], by simp⟩, fits⟩

theorem pairwise {related : Token → Token → Prop} (strewn : Strewn yield own parts)
    (row : own.Pairwise related) : parts.Pairwise fun p q => ∀ a ∈ p.2, ∀ b ∈ q.2, related a b := by
  induction strewn with
  | nil => exact .nil
  | @cons gap p rest parts _ others ih =>
    obtain ⟨-, row, -⟩ := List.pairwise_append.mp row
    obtain ⟨-, row, across⟩ := List.pairwise_append.mp row
    refine List.pairwise_cons.mpr ⟨fun q member a first b second => ?_, ih row⟩
    exact across a first b ((others.mem member).1.subset second)

end Strewn

theorem take_fits {front back : List Kind} {own : List Token}
    (yields : own.map Token.kind = front ++ back) : (own.take front.length).map Token.kind = front := by
  rw [List.map_take, yields, List.take_left]

section Cut

variable {yield : δ → List Kind}

theorem cut_row_strewn {separator : Kind} {list : List δ} {own : List Token}
    (yields : own.map Token.kind = separatedBy separator (list.map yield)) :
    Strewn yield own (cut 1 yield list own) := by
  induction list generalizing own with
  | nil => exact .nil own
  | cons d rest ih =>
    cases rest with
    | nil =>
      rw [cut_single (by rw [← List.length_map, yields]; rfl)]
      have fits : Fits yield (d, own) := yields
      exact .single fits
    | cons second rest =>
      obtain ⟨part, _, rfl, own, yields⟩ := List.map_eq_append_iff.mp yields
      obtain ⟨token, behind, rfl, -, yields⟩ := List.map_eq_cons_iff.mp yields
      have fits : Fits yield (d, part) := own
      rw [cut_row (by rw [← own, List.length_map])]
      exact .next fits ((ih yields).behind [token])

theorem cut_next_strewn {list : List δ} {own : List Token}
    (yields : own.map Token.kind = list.flatMap yield) : Strewn yield own (cut 0 yield list own) := by
  induction list generalizing own with
  | nil => exact .nil own
  | cons d rest ih =>
    obtain ⟨part, behind, rfl, own, yields⟩ := List.map_eq_append_iff.mp yields
    have fits : Fits yield (d, part) := own
    rw [cut_next (by rw [← own, List.length_map])]
    exact .next fits (ih yields)

end Cut

theorem Statement.part_fits (p : Statement × List Token) (fits : Fits Statement.yield p) :
    (Statement.part p).2 <+: p.2 ∧ Fits Node.yield (Statement.part p) :=
  ⟨ List.take_prefix _ _, take_fits fits⟩

theorem Item.part_fits (p : Item × List Token) (fits : Fits Item.yield p) :
    (Item.part p).2 <+: p.2 ∧ Fits Node.yield (Item.part p) := by
  obtain ⟨item, own⟩ := p
  cases item with
  | function f => exact ⟨List.prefix_rfl, fits⟩
  | statement s => exact Statement.part_fits (s, own) fits

theorem ImportLine.yield_core (line : ImportLine) :
    line.yield = line.core.yield ++ ending line.semicolon := by
  simp [yield, core, ending]

theorem ImportLine.part_fits (p : ImportLine × List Token) (fits : Fits ImportLine.yield p) :
    (ImportLine.part p).2 <+: p.2 ∧ Fits Node.yield (ImportLine.part p) :=
  ⟨ List.take_prefix _ _, take_fits (fits.trans p.1.yield_core)⟩

/-- The nodes below a node have tokens of their own among its tokens. -/
theorem Node.parts_strewn {node : Node} {own : List Token} (fits : own.map Token.kind = node.yield) :
    Strewn Node.yield own (node.parts own) := by
  cases node with
  | importLine | type => exact .nil own
  | function f =>
    obtain ⟨first, _, rfl, -, fits⟩ := List.map_eq_cons_iff.mp fits
    obtain ⟨second, _, rfl, -, fits⟩ := List.map_eq_cons_iff.mp fits
    obtain ⟨third, _, rfl, -, fits⟩ := List.map_eq_cons_iff.mp fits
    obtain ⟨inner, _, rfl, parameters, fits⟩ := List.map_eq_append_iff.mp fits
    obtain ⟨closing, _, rfl, -, fits⟩ := List.map_eq_cons_iff.mp fits
    obtain ⟨opening, _, rfl, -, fits⟩ := List.map_eq_cons_iff.mp fits
    obtain ⟨behind, _, rfl, body, fits⟩ := List.map_eq_append_iff.mp fits
    obtain ⟨last, rfl, -⟩ := List.map_eq_singleton_iff.mp fits
    have split : first :: second :: third :: (inner ++ closing :: opening :: (behind ++ [last])) =
        first :: (second :: third :: (inner ++ closing :: opening :: behind) ++ [last]) := by simp
    obtain ⟨parens, braces⟩ := Function.inside parameters first second third closing opening last behind
    rw [split, Node.parts, parens, braces, ← split]
    have front : Strewn Node.yield inner
        ((cut 1 Param.yield f.parameters inner).map fun p => (Node.param p.1, p.2)) :=
      (cut_row_strewn parameters).map fun p fits => ⟨List.prefix_rfl, fits⟩
    have statements : Strewn Node.yield behind ((cut 0 Statement.yield f.body behind).map Statement.part) :=
      (cut_next_strewn body).map Statement.part_fits
    have whole := front.append ((statements.append (.nil [last])).behind [closing, opening])
    rw [List.append_nil] at whole
    exact whole.behind [first, second, third]
  | param p =>
    obtain ⟨first, _, rfl, -, fits⟩ := List.map_eq_cons_iff.mp fits
    obtain ⟨types, values, rfl, typed, valued⟩ := List.map_eq_append_iff.mp fits
    have front : Strewn Node.yield types (p.type.toList.map fun t =>
        (Node.type t, ((first :: (types ++ values)).drop 2).take t.yield.length)) := by
      cases given : p.type with
      | none => exact .nil types
      | some t =>
        rw [given] at typed
        obtain ⟨colon, own, rfl, -, fits⟩ := List.map_eq_cons_iff.mp typed
        have same : ((first :: (colon :: own ++ values)).drop 2).take t.yield.length = own := by
          simp [← fits]
        have fits : Fits Node.yield (.type t, own) := fits
        simp only [Option.toList_some, List.map_cons, List.map_nil, same]
        exact (Strewn.single fits).behind [colon]
    have back : Strewn Node.yield values (p.default.toList.map fun value =>
        (Node.expr value, (first :: (types ++ values)).drop ((Param.typed p.type).length + 2))) := by
      cases given : p.default with
      | none => exact .nil values
      | some value =>
        rw [given] at valued
        obtain ⟨equals, own, rfl, -, fits⟩ := List.map_eq_cons_iff.mp valued
        have same : (first :: (types ++ equals :: own)).drop ((Param.typed p.type).length + 2) = own := by
          rw [← typed, List.length_map, List.drop_succ_cons, ← List.drop_drop, List.drop_left]
          rfl
        have fits : Fits Node.yield (.expr value, own) := fits
        simp only [Option.toList_some, List.map_cons, List.map_nil, same]
        exact (Strewn.single fits).behind [equals]
    exact (front.append back).behind [first]
  | expr e =>
    cases e with
    | name | constant => exact .nil own
    | call name arguments =>
      rw [Node.yield, Expr.yield, Expr.yields_eq] at fits
      obtain ⟨first, _, rfl, -, fits⟩ := List.map_eq_cons_iff.mp fits
      obtain ⟨second, _, rfl, -, fits⟩ := List.map_eq_cons_iff.mp fits
      obtain ⟨inner, _, rfl, given, fits⟩ := List.map_eq_append_iff.mp fits
      obtain ⟨last, rfl, -⟩ := List.map_eq_singleton_iff.mp fits
      have inside : ((first :: second :: (inner ++ [last])).drop 2).dropLast = inner := by simp
      have row : Strewn Node.yield inner
          ((cut 1 Expr.yield arguments inner).map fun p => (Node.expr p.1, p.2)) :=
        (cut_row_strewn given).map fun p fits => ⟨List.prefix_rfl, fits⟩
      rw [Node.parts, inside]
      have whole := (row.append (.nil [last])).behind [first, second]
      rwa [List.append_nil] at whole

theorem Unit.parts_strewn {unit : Unit} {own : List Token} (fits : own.map Token.kind = unit.yield) :
    Strewn Node.yield own (unit.parts own) := by
  obtain ⟨front, behind, rfl, imports, items⟩ := List.map_eq_append_iff.mp fits
  have front_eq : unit.ofImports (front ++ behind) = front := by simp [Unit.ofImports, ← imports]
  have behind_eq : unit.ofItems (front ++ behind) = behind := by simp [Unit.ofItems, ← imports]
  rw [Unit.parts, front_eq, behind_eq]
  have first := (cut_next_strewn imports).map ImportLine.part_fits
  exact first.append ((cut_next_strewn items).map Item.part_fits)

/-- Where some tokens stand in order, so do those of any part, and its span is inside. -/
theorem extent_inside {own part : List Token} (ordered : Ordered own) (among : part <:+: own)
    (nonempty : part ≠ []) : (extent part).Inside (extent own) := by
  obtain ⟨first, last, head, end_, same⟩ := extent_of_ne_nil nonempty
  obtain ⟨first', last', head', end_', same'⟩ := extent_of_ne_nil (among.ne_nil nonempty)
  rw [same, same']
  exact ⟨ordered.first_le head' (among.subset (List.mem_of_head? head)),
    ordered.le_last end_' (among.subset (List.mem_of_getLast? end_))⟩

theorem extent_precedes {own other : List Token} (nonempty : own ≠ []) (nonempty' : other ≠ [])
    (before : ∀ a ∈ own, ∀ b ∈ other, a.span.Precedes b.span) : (extent own).Precedes (extent other) := by
  obtain ⟨first, last, head, end_, same⟩ := extent_of_ne_nil nonempty
  obtain ⟨first', last', head', end_', same'⟩ := extent_of_ne_nil nonempty'
  rw [same, same']
  exact before last (List.mem_of_getLast? end_) first' (List.mem_of_head? head')

theorem Fits.ne_nil {p : Node × List Token} (fits : Fits Node.yield p) : p.2 ≠ [] := by
  intro none
  rw [Fits, none] at fits
  exact p.1.yield_ne_nil fits.symm

/-- Nodes on tokens in order have spans in order. -/
theorem Strewn.spans_pairwise {own : List Token} {parts : List (Node × List Token)}
    (strewn : Strewn Node.yield own parts) (ordered : Ordered own) :
    (parts.map fun p => p.1.place p.2).Pairwise fun a b => a.span.Precedes b.span := by
  rw [List.pairwise_map]
  refine (strewn.pairwise ordered.precedes).imp_of_mem fun first second before => ?_
  rw [Node.place_span, Node.place_span]
  exact extent_precedes (strewn.mem first).2.ne_nil (strewn.mem second).2.ne_nil before

end Derivation

/-! ## The nodes of a tree -/

namespace Node

open Token (Ordered)

/-- A node is a derivation on some tokens that stand together. -/
def Located (tokens : List Token) (node : Node) : Prop :=
  ∃ (d : Derivation.Node) (own : List Token), own <:+: tokens ∧ own.map Token.kind = d.yield ∧
    node = d.place own

variable {tokens : List Token} {node part : Node}

theorem Located.child (located : node.Located tokens) (member : part ∈ node.children) :
    part.Located tokens := by
  obtain ⟨d, own, among, fits, rfl⟩ := located
  rw [d.children_place, List.mem_map] at member
  obtain ⟨p, inside, rfl⟩ := member
  obtain ⟨below, fits⟩ := (Derivation.Node.parts_strewn fits).mem inside
  exact ⟨p.1, p.2, below.trans among, fits, rfl⟩

theorem Located.inside (located : node.Located tokens) (ordered : Ordered tokens)
    (member : part ∈ node.children) : part.span.Inside node.span := by
  obtain ⟨d, own, among, fits, rfl⟩ := located
  rw [d.children_place, List.mem_map] at member
  obtain ⟨p, inside, rfl⟩ := member
  obtain ⟨below, fits⟩ := (Derivation.Node.parts_strewn fits).mem inside
  rw [p.1.place_span, d.place_span]
  exact Derivation.extent_inside (ordered.sublist among.sublist) below fits.ne_nil

theorem Located.siblings (located : node.Located tokens) (ordered : Ordered tokens) :
    node.children.Pairwise fun a b => a.span.Precedes b.span := by
  obtain ⟨d, own, among, fits, rfl⟩ := located
  rw [d.children_place]
  exact (Derivation.Node.parts_strewn fits).spans_pairwise (ordered.sublist among.sublist)

end Node

/-- The expressions inside an expression have spans inside its own. -/
def Expr.Nested (e : Expr) : Prop := ∀ part ∈ e.parts, part.span.Inside e.span

theorem Expr.nested_of_located {tokens : List Token} (ordered : Token.Ordered tokens) :
    (e : Expr) → (Node.expr e).Located tokens → e.Nested
  | .literal .., _ | .null _, _ | .name .., _ => List.forall_mem_singleton.mpr (.refl _)
  | .call word arguments span, located => by
    intro part member
    rw [Expr.parts, Expr.partsAll_eq, List.mem_cons, List.mem_flatMap] at member
    rcases member with rfl | ⟨argument, given, below⟩
    · exact .refl _
    · have child : Node.expr argument ∈ (Node.expr (.call word arguments span)).children :=
        List.mem_map_of_mem given
      have nested := nested_of_located ordered argument (located.child child)
      exact (nested part below).trans (located.inside ordered child)

def Function.exprs (f : Function) : List Expr := f.parameters.filterMap Param.default ++ f.body

namespace UnitTree

/-- The tree of a text is a derivation on its tokens, up to the end of input. -/
theorem parse_placed {source : String} {tree : UnitTree} (parsed : parse source = .ok tree) :
    ∃ (d : Derivation.Unit) (body : List Token) (last : Token),
      Token.tokenize source = .ok (body ++ [last]) ∧ (∀ token ∈ body, token.kind ≠ .endOfInput) ∧
      body.map Token.kind = d.yield ∧ tree = d.place body := by
  obtain ⟨tokens, lexed, read⟩ := bind_eq_ok parsed
  obtain ⟨body, last, rfl, ends, inside⟩ := Token.tokenize_ends lexed
  obtain ⟨d, yields, same⟩ := Tree.unit_placed inside ends read
  exact ⟨d, body, last, lexed, inside, yields, same⟩

theorem HasNode.located {d : Derivation.Unit} {body : List Token} (yields : body.map Token.kind = d.yield)
    {node : Node} (has : (d.place body).HasNode node) : node.Located body := by
  induction has with
  | root member =>
    rw [d.roots_place, List.mem_map] at member
    obtain ⟨p, inside, rfl⟩ := member
    obtain ⟨among, fits⟩ := (Derivation.Unit.parts_strewn yields).mem inside
    exact ⟨p.1, p.2, among, fits, rfl⟩
  | child _ member ih => exact ih.child member

theorem hasNode_item {tree : UnitTree} {item : Item} (member : item ∈ tree.items) :
    tree.HasNode item.node :=
  .root (List.mem_append_right _ (List.mem_map_of_mem member))

/-- In the tree of a source text spans nest. -/
theorem nested_of_parse {source : String} {tree : UnitTree} (parsed : parse source = .ok tree) :
    (∀ e ∈ tree.statements, e.Nested) ∧ ∀ f ∈ tree.functions, ∀ e ∈ f.exprs, e.Nested := by
  obtain ⟨d, body, last, lexed, -, yields, rfl⟩ := parse_placed parsed
  have ordered := (Token.tokenize_ordered lexed).sublist (List.sublist_append_left body [last])
  have nested {e : Expr} (has : (d.place body).HasNode (.expr e)) : e.Nested :=
    e.nested_of_located ordered (has.located yields)
  constructor
  · intro e member
    obtain ⟨item, inside, same⟩ := List.mem_filterMap.mp member
    cases item with
    | function f => contradiction
    | statement own =>
      cases same
      exact nested (hasNode_item inside)
  · intro f member e below
    obtain ⟨item, inside, same⟩ := List.mem_filterMap.mp member
    cases item with
    | statement own => contradiction
    | function own =>
      cases same
      have whole := hasNode_item inside
      rcases List.mem_append.mp below with default | statement
      · obtain ⟨p, given, same⟩ := List.mem_filterMap.mp default
        have param : (d.place body).HasNode (.param p) :=
          whole.child (List.mem_append_left _ (List.mem_map_of_mem given))
        exact nested (param.child (List.mem_append_right _ (by simp [same])))
      · exact nested (whole.child (List.mem_append_right _ (List.mem_map_of_mem statement)))

end UnitTree

end UnitCompiler
