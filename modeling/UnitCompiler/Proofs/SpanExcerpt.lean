import UnitCompiler.Proofs.SpanNesting

/-! The text of a node by itself. The tokens of a node, cut out of their text, are split the same way and
have the same derivation, so that what is read of them is the node again, moved to the start. The lines
of a node are those that its offsets have in the text. -/

namespace UnitCompiler

/-! ## Lines -/

structure Span.Lined (source : String) (s : Span) : Prop where
  startLine : s.startLine = .ofNat (Token.lineAt source s.start)
  stopLine : s.stopLine = .ofNat (Token.lineAt source s.stop)

/-- Words for lines are in order where they are the numbers of lines. -/
theorem Token.lineAt_word_le {source : String} (few : source.toList.count '\n' < UInt32.size - 1)
    {first last : Nat} (before : first ≤ last) :
    UInt32.ofNat (lineAt source first) ≤ UInt32.ofNat (lineAt source last) := by
  rw [UInt32.le_iff_toNat_le, toNat_lineAt few, toNat_lineAt few]
  exact lineAt_le source before

namespace Span.Lined

variable {source : String} {a b : Span}

theorem upTo (first : a.Lined source) (last : b.Lined source) : (a.upTo b).Lined source :=
  ⟨first.startLine, last.stopLine⟩

theorem inside (few : source.toList.count '\n' < UInt32.size - 1) (inner : a.Lined source)
    (outer : b.Lined source) (inside : a.Inside b) : b.startLine ≤ a.startLine ∧ a.stopLine ≤ b.stopLine := by
  rw [inner.startLine, inner.stopLine, outer.startLine, outer.stopLine]
  exact ⟨Token.lineAt_word_le few inside.start, Token.lineAt_word_le few inside.stop⟩

theorem precedes (few : source.toList.count '\n' < UInt32.size - 1) (first : a.Lined source)
    (second : b.Lined source) (before : a.Precedes b) : a.stopLine ≤ b.startLine := by
  rw [first.stopLine, second.startLine]
  exact Token.lineAt_word_le few before.le

end Span.Lined

theorem Token.tokenize_lined {source : String} {tokens : List Token}
    (lexed : tokenize source = .ok tokens) : ∀ token ∈ tokens, token.span.Lined source := by
  intro token member
  obtain ⟨startLine, stopLine, same⟩ := tokenize_lines lexed token member
  exact ⟨startLine, same ▸ stopLine⟩

/-! ## Trees further down in a text -/

namespace Expr

mutual

def shift (lines : UInt32) (offset : Nat) : Expr → Expr
  | .literal value span => .literal value (span.shift lines offset)
  | .null span => .null (span.shift lines offset)
  | .name word span => .name word (span.shift lines offset)
  | .call function arguments span =>
    .call function (shiftAll lines offset arguments) (span.shift lines offset)

def shiftAll (lines : UInt32) (offset : Nat) : List Expr → List Expr
  | [] => []
  | expr :: rest => shift lines offset expr :: shiftAll lines offset rest

end

@[simp] theorem shiftAll_eq (lines : UInt32) (offset : Nat) (list : List Expr) :
    shiftAll lines offset list = list.map (shift lines offset) := by
  induction list with
  | nil => rfl
  | cons expr rest ih => simp [shiftAll, ih]

end Expr

def TypeName.shift (lines : UInt32) (offset : Nat) (type : TypeName) : TypeName :=
  { type with span := type.span.shift lines offset }

def Param.shift (lines : UInt32) (offset : Nat) (param : Param) : Param :=
  ⟨param.name, param.type.map (TypeName.shift lines offset), param.default.map (Expr.shift lines offset),
    param.span.shift lines offset⟩

def Function.shift (lines : UInt32) (offset : Nat) (function : Function) : Function :=
  ⟨function.name, function.parameters.map (Param.shift lines offset),
    function.body.map (Expr.shift lines offset), function.span.shift lines offset⟩

def ImportLine.shift (lines : UInt32) (offset : Nat) (line : ImportLine) : ImportLine :=
  { line with span := line.span.shift lines offset }

def Item.shift (lines : UInt32) (offset : Nat) : Item → Item
  | .function f => .function (f.shift lines offset)
  | .statement e => .statement (e.shift lines offset)

def UnitTree.shift (lines : UInt32) (offset : Nat) (tree : UnitTree) : UnitTree :=
  ⟨tree.imports.map (ImportLine.shift lines offset), tree.items.map (Item.shift lines offset)⟩

namespace Node

def shift (lines : UInt32) (offset : Nat) : Node → Node
  | .importLine line => .importLine (line.shift lines offset)
  | .function f => .function (f.shift lines offset)
  | .param p => .param (p.shift lines offset)
  | .type t => .type (t.shift lines offset)
  | .expr e => .expr (e.shift lines offset)

def bare : Node → Node
  | .importLine line => .importLine line.bare
  | .function f => .function f.bare
  | .param p => .param p.bare
  | .type t => .type t.bare
  | .expr e => .expr e.bare

def unit? : Node → Option UnitTree
  | .importLine line => some ⟨[line], []⟩
  | .function f => some ⟨[], [.function f]⟩
  | .expr e => some ⟨[], [.statement e]⟩
  | .param _ => none
  | .type _ => none

theorem unit?_shift (lines : UInt32) (offset : Nat) (node : Node) :
    (node.shift lines offset).unit? = node.unit?.map (UnitTree.shift lines offset) := by
  cases node <;> rfl

end Node

namespace Derivation

open Token (Kind)

variable {δ : Type} {lines : UInt32} {offset : Nat} {own : List Token}

/-! ## Derivations on the same tokens elsewhere -/

theorem map_kind_shift (own : List Token) :
    (own.map (Token.shift lines offset)).map Token.kind = own.map Token.kind := by
  rw [List.map_map]
  rfl

theorem extent_shift (lines : UInt32) (offset : Nat) (nonempty : own ≠ []) :
    extent (own.map (Token.shift lines offset)) = (extent own).shift lines offset := by
  have moved : own.map (Token.shift lines offset) ≠ [] := by simpa using nonempty
  obtain ⟨first, last, head, end_, same⟩ := extent_of_ne_nil nonempty
  obtain ⟨first', last', head', end_', same'⟩ := extent_of_ne_nil moved
  rw [List.head?_map, head] at head'
  rw [List.getLast?_map, end_] at end_'
  cases head'
  cases end_'
  rw [same, same']
  rfl

theorem cut_map (move : Token → Token) (gap : Nat) (yield : δ → List Kind) (list : List δ)
    (own : List Token) :
    cut gap yield list (own.map move) = (cut gap yield list own).map fun p => (p.1, p.2.map move) := by
  induction list generalizing own with
  | nil => rfl
  | cons d rest ih => simp [cut, ← List.map_take, ← List.map_drop, ih]

/-- A part of a node has the tokens that it yields. -/
theorem Node.part_fits (node : Node) (fits : own.map Token.kind = node.yield) {p : Node × List Token}
    (member : p ∈ node.parts own) : p.2.map Token.kind = p.1.yield :=
  ((Node.parts_strewn fits).mem member).2

theorem Node.own_ne_nil (node : Node) (fits : own.map Token.kind = node.yield) : own ≠ [] :=
  Fits.ne_nil (p := (node, own)) fits

theorem Expr.place_shift (d : Expr) {own : List Token} (fits : own.map Token.kind = d.yield) :
    d.place (own.map (Token.shift lines offset)) = (d.place own).shift lines offset := by
  have span := extent_shift lines offset (Node.own_ne_nil (.expr d) fits)
  match d with
  | .constant (.value literal) | .constant .null | .name word =>
    simp only [place, Constant.place, span, UnitCompiler.Expr.shift]
  | .call word arguments =>
    have each : ∀ p ∈ cut 1 yield arguments (own.drop 2).dropLast,
        p.1.place (p.2.map (Token.shift lines offset)) = (p.1.place p.2).shift lines offset := by
      intro p member
      have given : p.1 ∈ arguments := mem_of_cut member
      have fits := Node.part_fits (.expr (.call word arguments)) fits (List.mem_map_of_mem member)
      exact place_shift p.1 fits
    simp only [place, places_eq, ← List.map_drop, ← List.map_dropLast, cut_map, List.map_map, span,
      UnitCompiler.Expr.shift, UnitCompiler.Expr.shiftAll_eq]
    congr 1
    exact List.map_congr_left each

theorem TypeName.place_shift (d : TypeName) (fits : own.map Token.kind = d.yield) :
    d.place (own.map (Token.shift lines offset)) = (d.place own).shift lines offset := by
  have span := extent_shift lines offset (Node.own_ne_nil (.type d) fits)
  cases d <;> simp only [place, span, UnitCompiler.TypeName.shift]

theorem Param.place_shift (d : Param) (fits : own.map Token.kind = d.yield) :
    d.place (own.map (Token.shift lines offset)) = (d.place own).shift lines offset := by
  have part {p : Node × List Token} := Node.part_fits (.param d) fits (p := p)
  simp only [place, UnitCompiler.Param.shift, Option.map_map, ← List.map_drop, ← List.map_take,
    extent_shift lines offset (Node.own_ne_nil (.param d) fits)]
  congr 1
  · apply Option.map_congr
    intro type given
    rw [← Option.mem_toList] at given
    exact type.place_shift (part (List.mem_append_left _ (List.mem_map_of_mem given)))
  · apply Option.map_congr
    intro value given
    rw [← Option.mem_toList] at given
    exact value.place_shift (part (List.mem_append_right _ (List.mem_map_of_mem given)))

theorem Function.place_shift (d : Function) (fits : own.map Token.kind = d.yield) :
    d.place (own.map (Token.shift lines offset)) = (d.place own).shift lines offset := by
  have part {p : Node × List Token} := Node.part_fits (.function d) fits (p := p)
  have span := extent_shift lines offset (Node.own_ne_nil (.function d) fits)
  simp only [place, inParens, inBraces, UnitCompiler.Function.shift, List.map_map, ← List.map_drop,
    ← List.map_take, ← List.map_dropLast, cut_map, span]
  congr 1
  · apply List.map_congr_left
    intro p member
    exact p.1.place_shift (part (List.mem_append_left _ (List.mem_map_of_mem member)))
  · apply List.map_congr_left
    intro p member
    have fits := part (List.mem_append_right _ (List.mem_map_of_mem member))
    simp only [Function.comp_apply, Statement.place, ← List.map_take]
    exact p.1.expr.place_shift fits

theorem Node.place_shift (d : Node) (fits : own.map Token.kind = d.yield) :
    d.place (own.map (Token.shift lines offset)) = (d.place own).shift lines offset := by
  cases d with
  | importLine line =>
    simp only [place, ImportLine.place, extent_shift lines offset (own_ne_nil _ fits)]
    rfl
  | function f => exact congrArg _ (f.place_shift fits)
  | param p => exact congrArg _ (p.place_shift fits)
  | type t => exact congrArg _ (t.place_shift fits)
  | expr e => exact congrArg _ (e.place_shift fits)

/-! ## The tree of a derivation on tokens -/

theorem cut_map_fst {α : Type} (f : δ → α) (gap : Nat) (yield : δ → List Kind) (list : List δ)
    (own : List Token) : (cut gap yield list own).map (fun p => f p.1) = list.map f := by
  have front : ((cut gap yield list own).map Prod.fst).map f = list.map f := by rw [cut_fst]
  rwa [List.map_map] at front

theorem Expr.bare_place (d : Expr) (own : List Token) : (d.place own).bare = d.tree := by
  match d with
  | .constant (.value literal) | .constant .null | .name word =>
    simp only [place, Constant.place, UnitCompiler.Expr.bare, tree, Constant.tree]
  | .call word arguments =>
    have each : ∀ p ∈ cut 1 yield arguments (own.drop 2).dropLast, (p.1.place p.2).bare = p.1.tree := by
      intro p member
      have given : p.1 ∈ arguments := mem_of_cut member
      exact bare_place p.1 p.2
    simp only [place, places_eq, UnitCompiler.Expr.bare, UnitCompiler.Expr.bareAll_eq, List.map_map, tree,
      trees_eq]
    rw [← cut_map_fst tree 1 yield arguments (own.drop 2).dropLast]
    congr 1
    exact List.map_congr_left each

theorem TypeName.bare_place (d : TypeName) (own : List Token) : (d.place own).bare = d.tree := by
  cases d <;> rfl

theorem Param.bare_place (d : Param) (own : List Token) : (d.place own).bare = d.tree := by
  simp only [place, UnitCompiler.Param.bare, tree, Option.map_map]
  congr 1
  · exact Option.map_congr fun type _ => type.bare_place _
  · exact Option.map_congr fun value _ => value.bare_place _

theorem Function.bare_place (d : Function) (own : List Token) : (d.place own).bare = d.tree := by
  simp only [place, UnitCompiler.Function.bare, tree, List.map_map]
  rw [← cut_map_fst Param.tree 1 Param.yield d.parameters (d.inParens own),
    ← cut_map_fst (fun s => s.expr.tree) 0 Statement.yield d.body (d.inBraces own)]
  congr 1
  · exact List.map_congr_left fun p _ => p.1.bare_place p.2
  · exact List.map_congr_left fun p _ => p.1.expr.bare_place _

namespace Node

def tree : Node → UnitCompiler.Node
  | .importLine line => .importLine line.tree
  | .function f => .function f.tree
  | .param p => .param p.tree
  | .type t => .type t.tree
  | .expr e => .expr e.tree

theorem bare_place (d : Node) (own : List Token) : (d.place own).bare = d.tree := by
  cases d with
  | importLine => rfl
  | function f => exact congrArg _ (f.bare_place own)
  | param p => exact congrArg _ (p.bare_place own)
  | type t => exact congrArg _ (t.bare_place own)
  | expr e => exact congrArg _ (e.bare_place own)

def unit? : Node → Option Unit
  | .importLine line => some ⟨[line.core], []⟩
  | .function f => some ⟨[], [.function f]⟩
  | .expr e => some ⟨[], [.statement ⟨e, false⟩]⟩
  | .param _ => none
  | .type _ => none

theorem unit?_yield {d : Node} {unit : Unit} (single : d.unit? = some unit) : unit.yield = d.yield := by
  cases d <;> cases single <;> simp [Unit.yield, yield, Item.yield, Statement.yield, ending]

theorem unit?_place (d : Node) (fits : own.map Token.kind = d.yield) :
    (d.place own).unit? = d.unit?.map fun unit => unit.place own := by
  have all : own.take d.yield.length = own := by rw [← fits, List.length_map, List.take_length]
  cases d with
  | param | type => rfl
  | importLine line =>
    have core : line.core.core = line.core := rfl
    simp only [yield] at all
    simp [place, UnitCompiler.Node.unit?, unit?, Unit.place, Unit.ofImports, cut, ImportLine.placeEnded, core,
      all]
    rfl
  | function f =>
    simp only [yield] at all
    simp [place, UnitCompiler.Node.unit?, unit?, Unit.place, Unit.ofItems, cut, Item.place, Item.yield, all]
  | expr e =>
    simp only [yield] at all
    simp [place, UnitCompiler.Node.unit?, unit?, Unit.place, Unit.ofItems, cut, Item.place, Item.yield,
      Statement.place, Statement.yield, ending, all]

end Node

end Derivation

/-! ## The text of a node -/

/-- What the tokens of a node, cut out of a text, are read as. -/
theorem Derivation.Node.parse_slice {source : String} {before own after : List Token} {d : Derivation.Node}
    (lexed : Token.tokenize source = .ok (before ++ own ++ after)) (more : after ≠ [])
    (proper : ∀ token ∈ own, token.kind ≠ .endOfInput) (fits : own.map Token.kind = d.yield)
    {unit : UnitTree} (single : (d.place own).unit? = some unit) :
    ∃ alone, UnitTree.parse ((extent own).slice source) = .ok alone ∧
      alone.shift ((extent own).startLine - 1) (extent own).start = unit := by
  obtain ⟨first, last, head, end_, span⟩ := extent_of_ne_nil (d.own_ne_nil fits)
  obtain ⟨alone, stop, lexed, ends, moved⟩ := Token.tokenize_slice lexed more head end_
  have kinds : alone.map Token.kind = own.map Token.kind := by rw [moved, map_kind_shift]
  have inside : ∀ token ∈ alone, token.kind ≠ .endOfInput := by
    intro token member
    have given : token.kind ∈ own.map Token.kind := kinds ▸ List.mem_map_of_mem member
    obtain ⟨other, among, same⟩ := List.mem_map.mp given
    exact same ▸ proper other among
  have fits := kinds.trans fits
  rw [moved, d.place_shift fits, Node.unit?_shift, d.unit?_place fits, Option.map_map] at single
  obtain ⟨derivation, only, rfl⟩ := Option.map_eq_some_iff.mp single
  have read := (Tree.unit_derived inside ends (fits.trans (unit?_yield only).symm)).1
  refine ⟨derivation.place alone, ?_, by rw [span]; rfl⟩
  rw [UnitTree.parse, span, lexed]
  exact read

/-- A node that reaches from its first token to its last one, with the nodes below it inside and in order.
Its text by itself is read as a unit with this node and no other, further down by where it starts. Lines are
those of the offsets, and in texts of few enough lines they are in order too. -/
structure Node.Faithful (source : String) (tokens : List Token) (node : Node) : Prop where
  own : ∃ (d : Derivation.Node) (before own after : List Token) (first last : Token),
    tokens = before ++ own ++ after ∧ own.map Token.kind = d.yield ∧ d.tree = node.bare ∧
    own.head? = some first ∧ own.getLast? = some last ∧ node.span = first.span.upTo last.span
  lined : node.span.Lined source
  inside : ∀ child ∈ node.children, child.span.Inside node.span
  siblings : node.children.Pairwise fun a b => a.span.Precedes b.span
  lines : source.toList.count '\n' < UInt32.size - 1 →
    (∀ child ∈ node.children, node.span.startLine ≤ child.span.startLine ∧
      child.span.stopLine ≤ node.span.stopLine) ∧
    node.children.Pairwise fun a b => a.span.stopLine ≤ b.span.startLine
  alone : ∀ unit, node.unit? = some unit → ∃ alone, UnitTree.parse (node.span.slice source) = .ok alone ∧
    alone.shift (node.span.startLine - 1) node.span.start = unit

/-- The lines of a node are those of its first and its last token. -/
theorem Node.Located.lined {source : String} {tokens : List Token} {node : Node}
    (located : node.Located tokens) (lined : ∀ token ∈ tokens, token.span.Lined source) :
    node.span.Lined source := by
  obtain ⟨d, own, among, fits, rfl⟩ := located
  obtain ⟨first, last, head, end_, span⟩ := Derivation.extent_of_ne_nil (d.own_ne_nil fits)
  rw [d.place_span, span]
  exact (lined first (among.subset (List.mem_of_head? head))).upTo
    (lined last (among.subset (List.mem_of_getLast? end_)))

/-- In the tree of a text the spans of all nodes are those of their tokens. -/
theorem UnitTree.parse_faithful {source : String} {tree : UnitTree} (parsed : parse source = .ok tree) :
    ∃ tokens, Token.tokenize source = .ok tokens ∧
      tree.roots.Pairwise (fun a b => a.span.Precedes b.span) ∧
      (source.toList.count '\n' < UInt32.size - 1 →
        tree.roots.Pairwise fun a b => a.span.stopLine ≤ b.span.startLine) ∧
      ∀ node, tree.HasNode node → node.Faithful source tokens := by
  obtain ⟨d, body, last, lexed, proper, yields, rfl⟩ := parse_placed parsed
  have ordered := (Token.tokenize_ordered lexed).sublist (List.sublist_append_left body [last])
  have lined {node : Node} (has : (d.place body).HasNode node) : node.span.Lined source :=
    (has.located yields).lined fun token member =>
      Token.tokenize_lined lexed token (List.mem_append_left _ member)
  have order : (d.place body).roots.Pairwise fun a b => a.span.Precedes b.span := by
    rw [d.roots_place]
    exact (Derivation.Unit.parts_strewn yields).spans_pairwise ordered
  refine ⟨body ++ [last], lexed, order, fun few => ?_, fun node has => ?_⟩
  · exact order.imp_of_mem fun first second before =>
      (lined (.root first)).precedes few (lined (.root second)) before
  · have located := has.located yields
    have ownLines := lined has
    have below {child : Node} (member : child ∈ node.children) := lined (has.child member)
    have inside : ∀ child ∈ node.children, child.span.Inside node.span := fun child =>
      located.inside ordered
    have siblings := located.siblings ordered
    obtain ⟨d, own, ⟨before, after, rfl⟩, fits, rfl⟩ := located
    obtain ⟨first, last', head, end_, span⟩ := Derivation.extent_of_ne_nil (d.own_ne_nil fits)
    constructor
    case own =>
      refine ⟨d, before, own, after ++ [last], first, last', by simp, fits, (d.bare_place own).symm, head,
        end_, ?_⟩
      rw [d.place_span, span]
    case lined => exact ownLines
    case inside => exact inside
    case siblings => exact siblings
    case lines =>
      intro few
      refine ⟨fun child member => (below member).inside few ownLines (inside child member), ?_⟩
      exact siblings.imp_of_mem fun first second before => (below first).precedes few (below second) before
    case alone =>
      intro unit single
      rw [d.place_span]
      rw [List.append_assoc _ after] at lexed
      exact d.parse_slice lexed (by simp) (fun token among => proper token (by simp [among])) fits single

/-- An import with its semicolon apart, and a function with a type, a default and a call over two lines. -/
def layered : String := "import m [A] ;\nfn f(x: a.B = g(1)) \x7b // \x7d\n  h(x\n  );\n\x7d"

def layeredTree : UnitTree where
  imports := [⟨"m", ["A"], none, ⟨1, 1, 0, 11⟩⟩]
  items := [.function ⟨"f",
    [⟨"x", some ⟨"a.B", ⟨2, 2, 23, 25⟩⟩,
      some (.call "g" [.literal (.int 1) ⟨2, 2, 31, 31⟩] ⟨2, 2, 29, 32⟩), ⟨2, 2, 20, 32⟩⟩],
    [.call "h" [.name "x" ⟨3, 3, 46, 46⟩] ⟨3, 4, 44, 50⟩], ⟨2, 5, 15, 53⟩⟩]

theorem layered_faithful :
    let call := Expr.call "h" [.name "x" ⟨3, 3, 46, 46⟩] ⟨3, 4, 44, 50⟩
    UnitTree.parse layered = .ok layeredTree ∧ layeredTree.HasNode (.expr call) ∧
    call.span.slice layered = "h(x\n  )" ∧
    ∃ tokens, Token.tokenize layered = .ok tokens ∧
      layeredTree.roots.Pairwise (fun a b => a.span.Precedes b.span) ∧
      layeredTree.roots.Pairwise (fun a b => a.span.stopLine ≤ b.span.startLine) ∧
      ∀ node, layeredTree.HasNode node → node.Faithful layered tokens := by
  have parsed : UnitTree.parse layered = .ok layeredTree := by rfl
  obtain ⟨tokens, lexed, order, lines, faithful⟩ := UnitTree.parse_faithful parsed
  refine ⟨parsed, ?_, by decide +kernel, tokens, lexed, order, lines (by decide +kernel), faithful⟩
  have function : layeredTree.HasNode _ := UnitTree.hasNode_item List.mem_cons_self
  exact function.child (by simp [Item.node, Node.children])

end UnitCompiler
