import UnitCompiler.Proofs.DeclarationFindings

/-! Every site of a tree has a span of its own: siblings stand one behind the other, and a call starts
before its arguments. So what is reported with the span of a site is about that site. -/

namespace UnitCompiler

namespace Span

/-- Inside two spans one behind the other nothing is in the same place. -/
theorem Precedes.ne_of_inside {a b x y : Span} (before : a.Precedes b) (proper : x.Proper)
    (left : x.Inside a) (right : y.Inside b) : x ≠ y := by
  rintro rfl
  have inverted : x.stop < x.start := left.stop.trans_lt (Nat.lt_of_lt_of_le before right.start)
  exact absurd proper (Nat.not_le.mpr inverted)

structure Holds (outer : Span) (sites : List Site) : Prop where
  proper : ∀ site ∈ sites, site.span.Proper
  inside : ∀ site ∈ sites, site.span.Inside outer
  distinct : sites.Pairwise fun a b => a.span ≠ b.span

theorem Holds.nil (outer : Span) : outer.Holds [] := ⟨by simp, by simp, .nil⟩

theorem Holds.single {site : Site} (proper : site.span.Proper) : site.span.Holds [site] :=
  ⟨by simpa using proper, by simpa using Inside.refl _, List.pairwise_singleton _ _⟩

theorem Holds.flatMap {α : Type} {nodes : List α} {span : α → Span} {sites : α → List Site}
    (each : ∀ a ∈ nodes, (span a).Holds (sites a))
    (order : nodes.Pairwise fun a b => (span a).Precedes (span b)) :
    (nodes.flatMap sites).Pairwise fun a b => a.span ≠ b.span := by
  refine List.pairwise_flatMap.mpr ⟨fun a member => (each a member).distinct, ?_⟩
  refine order.imp_of_mem fun {a b} first second before x left y right => ?_
  exact before.ne_of_inside ((each a first).proper x left) ((each a first).inside x left)
    ((each b second).inside y right)

end Span

/-! ## Sites below a node -/

def Node.sites (names : List String) : Node → List Site
  | .importLine _ => []
  | .function f => f.sites
  | .param p => p.sites
  | .type t => [.type t]
  | .expr e => e.sites names

namespace Node.Located

open Token (Ordered)

variable {tokens : List Token} {node : Node}

theorem proper (located : node.Located tokens) (ordered : Ordered tokens) : node.span.Proper := by
  obtain ⟨d, own, among, fits, rfl⟩ := located
  have nonempty : own ≠ [] := by
    rintro rfl
    exact d.yield_ne_nil fits.symm
  obtain ⟨first, last, head, end_, same⟩ := Derivation.extent_of_ne_nil nonempty
  have ordered := ordered.sublist among.sublist
  rw [d.place_span, same]
  exact Nat.le_trans (ordered.first_le head (List.mem_of_getLast? end_))
    (ordered.proper last (List.mem_of_getLast? end_))

/-- The sites of the nodes below a node are inside it. -/
theorem holds_children (located : node.Located tokens) (ordered : Ordered tokens) {names : List String}
    (each : ∀ child ∈ node.children, child.span.Holds (child.sites names)) :
    node.span.Holds (node.children.flatMap (Node.sites names)) := by
  refine ⟨fun site below => ?_, fun site below => ?_, Span.Holds.flatMap each (located.siblings ordered)⟩
  all_goals obtain ⟨child, member, own⟩ := List.mem_flatMap.mp below
  · exact (each child member).proper site own
  · exact ((each child member).inside site own).trans (located.inside ordered member)

/-- The name of a call and a parenthesis stand in front of its arguments. -/
theorem call_starts_first {word : String} {arguments : List Expr} {span : Span} {part : Node}
    (located : (Node.expr (.call word arguments span)).Located tokens) (ordered : Ordered tokens)
    (member : part ∈ (Node.expr (.call word arguments span)).children) :
    span.start < part.span.start := by
  obtain ⟨d, own, among, fits, same⟩ := located
  have spans : span = Derivation.extent own := by
    rw [← d.place_span own, ← same]
    rfl
  rw [same, d.children_place, List.mem_map] at member
  obtain ⟨p, inside, rfl⟩ := member
  cases d with
  | expr e =>
    cases e with
    | name | constant => cases inside
    | call name given =>
      rw [Derivation.Node.yield, Derivation.Expr.yield, Derivation.Expr.yields_eq] at fits
      obtain ⟨first, _, rfl, -, fits⟩ := List.map_eq_cons_iff.mp fits
      obtain ⟨second, _, rfl, -, fits⟩ := List.map_eq_cons_iff.mp fits
      obtain ⟨inner, _, rfl, row, fits⟩ := List.map_eq_append_iff.mp fits
      obtain ⟨last, rfl, -⟩ := List.map_eq_singleton_iff.mp fits
      have between : ((first :: second :: (inner ++ [last])).drop 2).dropLast = inner := by simp
      rw [Derivation.Node.parts, between, List.mem_map] at inside
      obtain ⟨q, cut, rfl⟩ := inside
      obtain ⟨below, fits⟩ := (Derivation.cut_row_strewn row).mem cut
      have nonempty : q.2 ≠ [] := Derivation.Fits.ne_nil (p := (.expr q.1, q.2)) fits
      obtain ⟨head, _, leads, -, extent⟩ := Derivation.extent_of_ne_nil nonempty
      have behind : head ∈ second :: (inner ++ [last]) :=
        List.mem_cons_of_mem _ (List.mem_append_left _ (below.subset (List.mem_of_head? leads)))
      have ordered := ordered.sublist among.sublist
      have before := List.rel_of_pairwise_cons ordered.precedes behind
      rw [Derivation.Node.place_span, extent, spans]
      exact Nat.lt_of_le_of_lt (ordered.proper first List.mem_cons_self) before
  | _ => cases same

end Node.Located

section

open Token (Ordered)

variable {tokens : List Token}

theorem Expr.holds_sites (ordered : Ordered tokens) (names : List String) : (e : Expr) →
    (Node.expr e).Located tokens → e.span.Holds (e.sites names)
  | .literal .., located | .null _, located | .name .., located => by
    have proper : (Site.expr names _).span.Proper := located.proper ordered
    exact .single proper
  | .call word arguments span, located => by
    have each : ∀ child ∈ (Node.expr (.call word arguments span)).children,
        child.span.Holds (child.sites names) := by
      intro child member
      obtain ⟨argument, -, rfl⟩ := List.mem_map.mp member
      exact argument.holds_sites ordered names (located.child member)
    have below := located.holds_children ordered each
    have sites : Expr.sites names (.call word arguments span) =
        (Node.expr (.call word arguments span)).children.flatMap (Node.sites names) ++
          [.expr names (.call word arguments span)] := by
      rw [Expr.sites, Expr.visits, Expr.visitsAll_eq, List.map_append, List.map_flatMap, Node.children,
        List.flatMap_map]
      rfl
    rw [sites]
    refine ⟨?_, ?_, List.pairwise_append.mpr ⟨below.distinct, List.pairwise_singleton _ _, ?_⟩⟩
    · exact List.forall_mem_append.mpr ⟨below.proper, List.forall_mem_singleton.mpr (located.proper ordered)⟩
    · exact List.forall_mem_append.mpr ⟨below.inside, List.forall_mem_singleton.mpr (.refl span)⟩
    · intro site inner own last same
      obtain ⟨child, member, below⟩ := List.mem_flatMap.mp inner
      have later := located.call_starts_first ordered member
      have within := ((each child member).inside site below).start
      have start : site.span.start = span.start := by
        rw [same, List.mem_singleton.mp last]
        rfl
      omega

theorem Param.holds_sites (ordered : Ordered tokens) {p : Param} (located : (Node.param p).Located tokens) :
    p.span.Holds p.sites := by
  have sites : p.sites = (Node.param p).children.flatMap (Node.sites []) := by
    rw [Param.sites, Node.children, List.flatMap_append, List.flatMap_map, List.flatMap_map]
    cases p.type <;> rfl
  rw [sites]
  refine located.holds_children ordered fun child member => ?_
  have below := located.child member
  rcases List.mem_append.mp member with type | default
  · obtain ⟨t, -, rfl⟩ := List.mem_map.mp type
    have proper : (Site.type t).span.Proper := below.proper ordered
    exact .single proper
  · obtain ⟨e, -, rfl⟩ := List.mem_map.mp default
    exact e.holds_sites ordered [] below

theorem Function.holds_sites (ordered : Ordered tokens) {f : Function}
    (located : (Node.function f).Located tokens) : f.span.Holds f.sites := by
  have sites : f.sites = (Node.function f).children.flatMap (Node.sites (f.parameters.map Param.name)) := by
    rw [Function.sites, Node.children, List.flatMap_append, List.flatMap_map, List.flatMap_map]
    rfl
  rw [sites]
  refine located.holds_children ordered fun child member => ?_
  have below := located.child member
  rcases List.mem_append.mp member with parameter | statement
  · obtain ⟨p, -, rfl⟩ := List.mem_map.mp parameter
    exact p.holds_sites ordered below
  · obtain ⟨e, -, rfl⟩ := List.mem_map.mp statement
    exact e.holds_sites ordered _ below

end

namespace UnitTree

def outerNames : List String := Outline.entrypoint.parameters.map Parameter.name

theorem sites_perm (tree : UnitTree) : (tree.roots.flatMap (Node.sites outerNames)).Perm tree.sites := by
  have imports : (tree.imports.map Node.importLine).flatMap (Node.sites outerNames) = [] := by
    rw [List.flatMap_map, List.flatMap_eq_nil_iff]
    exact fun _ _ => rfl
  rw [roots, List.flatMap_append, imports, List.nil_append, List.flatMap_map, sites, statements, functions]
  induction tree.items with
  | nil => exact .refl []
  | cons item items ih =>
    cases item with
    | statement e =>
      simp only [List.flatMap_cons, List.filterMap_cons, List.append_assoc]
      exact ih.append_left _
    | function f =>
      simp only [List.flatMap_cons, List.filterMap_cons]
      exact (ih.append_left _).trans (List.perm_append_comm_assoc ..)

theorem sites_distinct {source : String} {tree : UnitTree} (parsed : parse source = .ok tree) :
    tree.sites.Pairwise fun a b => a.span ≠ b.span := by
  obtain ⟨d, body, last, lexed, -, yields, rfl⟩ := parse_placed parsed
  have ordered := (Token.tokenize_ordered lexed).sublist (List.sublist_append_left body [last])
  have order : (d.place body).roots.Pairwise fun a b => a.span.Precedes b.span := by
    rw [d.roots_place]
    exact (Derivation.Unit.parts_strewn yields).spans_pairwise ordered
  have each : ∀ node ∈ (d.place body).roots, node.span.Holds (node.sites outerNames) := by
    intro node member
    have located := (HasNode.root member).located yields
    cases node with
    | importLine line => exact .nil _
    | function f => exact f.holds_sites ordered located
    | param p => exact p.holds_sites ordered located
    | type t =>
      have proper : (Site.type t).span.Proper := located.proper ordered
      exact .single proper
    | expr e => exact e.holds_sites ordered _ located
  exact (sites_perm _).pairwise (Span.Holds.flatMap each order) Ne.symm

end UnitTree

/-! ## Reports at a site -/

namespace Lexicon

theorem findings_elsewhere (l : Lexicon) {sites : List Site} {span : Span}
    (elsewhere : ∀ site ∈ sites, site.span ≠ span) :
    (l.findings sites).filter (fun f => f.span = span) = [] := by
  refine List.filter_eq_nil_iff.mpr fun f found here => ?_
  obtain ⟨site, member, wrong⟩ := List.mem_filterMap.mp found
  exact elsewhere site member ((finding_span wrong).symm.trans (of_decide_eq_true here))

/-- Only a site itself has findings with its span. -/
theorem findings_at (l : Lexicon) {sites : List Site} (distinct : sites.Pairwise fun a b => a.span ≠ b.span)
    {site : Site} (member : site ∈ sites) :
    (l.findings sites).filter (fun f => f.span = site.span) = (l.finding? site).toList := by
  induction sites with
  | nil => cases member
  | cons first rest ih =>
    obtain ⟨apart, distinct⟩ := List.pairwise_cons.mp distinct
    have split : l.findings (first :: rest) = (l.finding? first).toList ++ l.findings rest := by
      rw [findings, List.filterMap_cons]
      cases l.finding? first <;> rfl
    rw [split, List.filter_append]
    rcases List.mem_cons.mp member with rfl | later
    · have none := l.findings_elsewhere fun other behind same => apart other behind same.symm
      rw [none, List.append_nil, List.filter_eq_self]
      intro f found
      exact decide_eq_true (finding_span (Option.mem_toList.mp found))
    · have none : (l.finding? first).toList.filter (fun f => f.span = site.span) = [] := by
        refine List.filter_eq_nil_iff.mpr fun f found here => ?_
        have same := finding_span (Option.mem_toList.mp found)
        exact apart site later (same.symm.trans (of_decide_eq_true here))
      rw [none, List.nil_append]
      exact ih distinct later

end Lexicon

/-- What is reported about a unit with the span of a site is what a catalogue makes of this site. -/
theorem Toolchain.reports_at {catalogue : Catalogue} (plain : catalogue.Plain) {unit : SourceUnit}
    {o : Outline} (read : Outline.read standard.grammar unit = .ok o) {site : Site}
    (member : site ∈ o.tree.sites) :
    (standard.declaration catalogue o).2.filter (fun r => r.span = site.span) =
      ((catalogue.lexicon o).finding? site).toList.map fun f => .ofFault o.unit f.span f.fault := by
  obtain ⟨reports, -⟩ := declaration_accounts plain read
  obtain ⟨source, tree, parsed, rfl⟩ := read_standard read
  rw [reports, List.filter_map, ← Lexicon.findings_at _ (UnitTree.sites_distinct parsed) member]
  rfl

end UnitCompiler
