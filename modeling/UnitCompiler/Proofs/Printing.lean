import UnitCompiler.Proofs.DeclarationRendering
import UnitCompiler.Proofs.DerivationPlacement
import UnitCompiler.Proofs.TokenLayout

/-! Trees are printed as texts that are read back as the same trees, up to spans. The printed text is
split into the tokens of a derivation of the tree, and no text has a second one. -/

namespace UnitCompiler

open Text Token

/-! ## Printing -/

def listed (texts : List (List Char)) : List Char := [',', ' '].intercalate texts

namespace Expr

mutual

def chars : Expr → List Char
  | .literal value _ => (Derivation.Constant.value value).kind.chars
  | .null _ => Kind.nullWord.chars
  | .name word _ => word.toList
  | .call function arguments _ => function.toList ++ '(' :: (listed (charsAll arguments) ++ [')'])

def charsAll : List Expr → List (List Char)
  | [] => []
  | expr :: rest => chars expr :: charsAll rest

end

@[simp] theorem charsAll_eq (list : List Expr) : charsAll list = list.map chars := by
  induction list with
  | nil => rfl
  | cons expr rest ih => simp [charsAll, ih]

end Expr

namespace Param

def typeChars : Option TypeName → List Char
  | some type => ':' :: ' ' :: (Kind.quotedType type.name).chars
  | none => []

def defaultChars : Option Expr → List Char
  | some value => ' ' :: '=' :: ' ' :: value.chars
  | none => []

def chars (param : Param) : List Char :=
  param.name.toList ++ (typeChars param.type ++ defaultChars param.default)

end Param

/-- A statement stands on a line of its own, with no semicolon. -/
def Expr.line (statement : Expr) : List Char := statement.chars ++ ['\n']

def Function.chars (function : Function) : List Char :=
  Kind.fnWord.chars ++ ' ' :: (function.name.toList ++ '(' :: (listed (function.parameters.map Param.chars) ++
    ')' :: ' ' :: '\x7b' :: '\n' ::
      (function.body.flatMap (fun statement => ' ' :: ' ' :: statement.line) ++ ['\x7d', '\n'])))

def Item.chars : Item → List Char
  | .function f => f.chars
  | .statement s => s.line

namespace ImportLine

def namesChars : List String → List Char
  | [] => []
  | first :: others => ' ' :: '[' :: (listed ((first :: others).map String.toList) ++ [']'])

def aliasChars : Option String → List Char
  | some name => ' ' :: (Kind.asWord.chars ++ ' ' :: name.toList)
  | none => []

def chars (line : ImportLine) : List Char :=
  Kind.importWord.chars ++ ' ' :: (line.path.toList ++
    (namesChars line.names ++ (aliasChars line.shortName ++ ['\n'])))

end ImportLine

def UnitTree.render (tree : UnitTree) : String :=
  String.ofList (tree.imports.flatMap ImportLine.chars ++ tree.items.flatMap Item.chars)

/-! ## What can be printed -/

/-- Neither a decimal nor a negative number is printed: no literal starts with a sign, and none has an
exponent. -/
def Literal.Printable (value : Literal) : Prop := (Derivation.Constant.value value).kind.Writable

namespace Expr

def Spelled : Expr → Prop
  | .literal value _ => value.Printable
  | .null _ => True
  | .name word _ => FreeWord word
  | .call function _ _ => FreeWord function

instance : DecidablePred Spelled
  | .literal _ _ => inferInstanceAs (Decidable (Kind.Writable _))
  | .null _ => .isTrue trivial
  | .name word _ => inferInstanceAs (Decidable (FreeWord word))
  | .call function _ _ => inferInstanceAs (Decidable (FreeWord function))

def Printable (expr : Expr) : Prop := ∀ part ∈ expr.parts, part.Spelled

instance : DecidablePred Printable := fun expr => inferInstanceAs (Decidable (∀ part ∈ expr.parts, _))

end Expr

def Param.Printable (param : Param) : Prop :=
  FreeWord param.name ∧ (∀ type ∈ param.type, TypeText type.name) ∧ ∀ value ∈ param.default, value.Printable

def Function.Printable (function : Function) : Prop :=
  FreeWord function.name ∧ (∀ param ∈ function.parameters, param.Printable) ∧
    ∀ statement ∈ function.body, statement.Printable

def Item.Printable : Item → Prop
  | .function f => f.Printable
  | .statement s => s.Printable

/-- The path of an import is a row of names with dots between them. -/
def ImportLine.Printable (line : ImportLine) : Prop :=
  (∀ segment ∈ segments line.path, FreeWord segment) ∧ (∀ name ∈ line.names, FreeWord name) ∧
    ∀ name ∈ line.shortName, FreeWord name

def UnitTree.Printable (tree : UnitTree) : Prop :=
  (∀ line ∈ tree.imports, line.Printable) ∧ ∀ item ∈ tree.items, item.Printable

instance : DecidablePred Param.Printable := fun _ => inferInstanceAs (Decidable (_ ∧ _ ∧ _))

instance : DecidablePred Function.Printable := fun _ => inferInstanceAs (Decidable (_ ∧ _ ∧ _))

instance : DecidablePred ImportLine.Printable := fun _ => inferInstanceAs (Decidable (_ ∧ _ ∧ _))

instance : DecidablePred Item.Printable
  | .function f => inferInstanceAs (Decidable f.Printable)
  | .statement s => inferInstanceAs (Decidable s.Printable)

instance : DecidablePred UnitTree.Printable := fun _ => inferInstanceAs (Decidable (_ ∧ _))

/-! ## Derivations of trees -/

namespace Expr

mutual

def derivation : Expr → Derivation.Expr
  | .literal value _ => .constant (.value value)
  | .null _ => .constant .null
  | .name word _ => .name word
  | .call function arguments _ => .call function (derivations arguments)

def derivations : List Expr → List Derivation.Expr
  | [] => []
  | expr :: rest => derivation expr :: derivations rest

end

@[simp] theorem derivations_eq (list : List Expr) : derivations list = list.map derivation := by
  induction list with
  | nil => rfl
  | cons expr rest ih => simp [derivations, ih]

theorem derivation_tree (expr : Expr) : expr.derivation.tree = expr.bare := by
  cases expr with
  | literal | null | name => rfl
  | call function arguments span =>
    have each : ∀ argument ∈ arguments, argument.derivation.tree = argument.bare :=
      fun argument _ => derivation_tree argument
    simpa [derivation, Derivation.Expr.tree, bare] using each

def sentence (statement : Expr) : Derivation.Statement := ⟨statement.derivation, false⟩

end Expr

def TypeName.derivation (type : TypeName) : Derivation.TypeName := .quoted type.name

def Param.derivation (param : Param) : Derivation.Param :=
  ⟨param.name, param.type.map TypeName.derivation, param.default.map Expr.derivation⟩

def Function.derivation (function : Function) : Derivation.Function :=
  ⟨function.name, function.parameters.map Param.derivation, function.body.map Expr.sentence⟩

def Item.derivation : Item → Derivation.Item
  | .function f => .function f.derivation
  | .statement s => .statement s.sentence

theorem Param.derivation_tree (param : Param) : param.derivation.tree = param.bare := by
  have type (type : TypeName) : type.derivation.tree = type.bare := rfl
  simp [derivation, Derivation.Param.tree, bare, Function.comp_def, type, Expr.derivation_tree]

theorem Item.derivation_tree (item : Item) : item.derivation.tree = item.bare := by
  cases item with
  | function f =>
    simp [derivation, Derivation.Item.tree, Function.derivation, Derivation.Function.tree, bare,
      Function.bare, Function.comp_def, Param.derivation_tree, Expr.sentence, Expr.derivation_tree]
  | statement s => simp [derivation, Derivation.Item.tree, bare, Expr.sentence, Expr.derivation_tree]

theorem segments_ne_nil (path : String) : segments path ≠ [] := by
  rw [segments, pieces_eq_splitOn]
  simp

theorem intercalate_segments (path : String) : ".".intercalate (segments path) = path := by
  rw [← String.toList_inj, String.toList_intercalate, segments, pieces_eq_splitOn, List.map_map]
  have same : String.toList ∘ String.ofList = id := funext fun _ => String.toList_ofList
  rw [same, List.map_id]
  exact List.intercalate_splitOn '.'

namespace ImportLine

def namesDerivation : List String → Option Derivation.Names
  | [] => none
  | first :: others => some ⟨first :: others, List.cons_ne_nil _ _⟩

def derivation (line : ImportLine) : Derivation.ImportLine :=
  ⟨⟨segments line.path, segments_ne_nil line.path⟩, namesDerivation line.names, line.shortName, false⟩

theorem derivation_tree (line : ImportLine) : line.derivation.tree = line.bare := by
  have names : ((namesDerivation line.names).map Derivation.Names.list).getD [] = line.names := by
    cases line.names <;> rfl
  simp [derivation, Derivation.ImportLine.tree, bare, Derivation.Names.dotted, intercalate_segments,
    names]

end ImportLine

def UnitTree.derivation (tree : UnitTree) : Derivation.Unit :=
  ⟨tree.imports.map ImportLine.derivation, tree.items.map Item.derivation⟩

theorem UnitTree.derivation_tree (tree : UnitTree) : tree.derivation.tree = tree.bare := by
  simp [derivation, Derivation.Unit.tree, bare, Function.comp_def, ImportLine.derivation_tree,
    Item.derivation_tree]

/-! ## Printed texts -/

open UnitCompiler.Derivation (nowhere separatedBy)

/-- In front of a text of a class, a text puts tokens of some kinds in front of those of the other. -/
def Writes (text : List Char) (kinds : List Kind) (follow : List Char → Prop) : Prop :=
  ∀ rest more, follow rest → Scans rest more → Scans (text ++ rest) (kinds ++ more)

namespace Writes

variable {α : Type} {list : List α} {chars : α → List Char} {yield : α → List Kind}

theorem separated {follow : List Char → Prop} {gap : List Char} {separator : Kind}
    (parts : Writes gap [separator] fun _ => True) (meets : ∀ rest, follow (gap ++ rest))
    (each : ∀ item ∈ list, Writes (chars item) (yield item) follow) :
    Writes (gap.intercalate (list.map chars)) (separatedBy separator (list.map yield)) follow := by
  induction list with
  | nil => exact fun _ _ _ scans => scans
  | cons first others ih =>
    cases others with
    | nil => simpa [separatedBy] using each first List.mem_cons_self
    | cons second others =>
      intro rest more follows scans
      have later := ih (fun item member => each item (List.mem_cons_of_mem _ member)) _ _ follows scans
      have whole := each first List.mem_cons_self _ _ (meets _) (parts _ _ trivial later)
      simpa [List.intercalate_cons_cons, separatedBy] using whole

theorem listed (each : ∀ item ∈ list, Writes (chars item) (yield item) Severed) :
    Writes (listed (list.map chars)) (separatedBy .comma (list.map yield)) Severed := by
  apply separated _ _ each
  · exact fun rest more _ scans => .mark rfl (.blank rfl scans)
  · exact fun rest => shuns_cons (by decide)

theorem flatMap (each : ∀ item ∈ list, Writes (chars item) (yield item) fun _ => True) :
    Writes (list.flatMap chars) (list.flatMap yield) fun _ => True := by
  induction list with
  | nil => exact fun _ _ _ scans => scans
  | cons first others ih =>
    intro rest more _ scans
    have later := ih (fun item member => each item (List.mem_cons_of_mem _ member)) _ _ trivial scans
    simpa using each first List.mem_cons_self _ _ trivial later

end Writes

namespace Expr

theorem Printable.argument {function : String} {arguments : List Expr} {span : Span}
    (printable : (Expr.call function arguments span).Printable) {argument : Expr}
    (member : argument ∈ arguments) : argument.Printable := by
  intro part inside
  apply printable
  rw [parts, partsAll_eq]
  exact List.mem_cons_of_mem _ (List.mem_flatMap.mpr ⟨argument, member, inside⟩)

theorem writes {expr : Expr} (printable : expr.Printable) :
    Writes expr.chars expr.derivation.yield Severed := by
  cases expr with
  | literal value span =>
    exact fun rest more severed scans => scans.write (printable _ (List.mem_singleton_self _)) severed
  | null span =>
    have writable : Kind.nullWord.Writable := trivial
    exact fun rest more severed scans => scans.write writable severed
  | name word span =>
    have valid : FreeWord word := printable _ (List.mem_singleton_self _)
    exact fun rest more severed scans => valid.scans severed.word scans
  | call function arguments span =>
    have valid : FreeWord function := printable _ List.mem_cons_self
    have inner := Writes.listed fun argument member => writes (printable.argument member)
    intro rest more _ scans
    simp only [chars, charsAll_eq, derivation, derivations_eq, Derivation.Expr.yield,
      Derivation.Expr.yields_eq, List.map_map, List.append_assoc, List.cons_append, List.nil_append]
    apply valid.scans (shuns_cons (by decide))
    apply Scans.mark rfl
    apply inner _ _ (shuns_cons (by decide))
    exact .mark rfl scans

theorem line_writes {statement : Expr} (printable : statement.Printable) :
    Writes statement.line statement.sentence.yield fun _ => True := by
  intro rest more _ scans
  simp only [line, sentence, Derivation.Statement.yield, Derivation.ending, List.append_assoc,
    List.cons_append, List.nil_append]
  apply writes printable _ _ (shuns_cons (by decide))
  exact .blank rfl scans

end Expr

namespace Param

theorem default_writes {value : Option Expr} (printable : ∀ expr ∈ value, expr.Printable) :
    Writes (defaultChars value) (Derivation.Param.defaulted (value.map Expr.derivation)) Severed := by
  intro rest more severed scans
  cases value with
  | none => exact scans
  | some expr =>
    apply Scans.blank rfl
    apply Scans.mark rfl
    apply Scans.blank rfl
    exact Expr.writes (printable expr rfl) rest more severed scans

theorem defaultChars_severed (value : Option Expr) : Severed (defaultChars value) := by
  cases value with
  | none => exact shuns_nil _
  | some expr => exact shuns_cons (by decide)

theorem type_writes {type : Option TypeName} (printable : ∀ name ∈ type, TypeText name.name) :
    Writes (typeChars type) (Derivation.Param.typed (type.map TypeName.derivation)) Severed := by
  intro rest more severed scans
  cases type with
  | none => exact scans
  | some name =>
    apply Scans.mark rfl
    apply Scans.blank rfl
    exact scans.write (printable name rfl) severed

theorem typeChars_severed (type : Option TypeName) : Severed (typeChars type) := by
  cases type with
  | none => exact shuns_nil _
  | some name => exact shuns_cons (by decide)

theorem writes {param : Param} (printable : param.Printable) :
    Writes param.chars param.derivation.yield Severed := by
  obtain ⟨valid, type, default⟩ := printable
  intro rest more severed scans
  have behind : Severed (typeChars param.type ++ (defaultChars param.default ++ rest)) :=
    (typeChars_severed _).append ((defaultChars_severed _).append severed)
  simp only [chars, derivation, Derivation.Param.yield, List.append_assoc, List.cons_append]
  apply valid.scans behind.word
  apply type_writes type _ _ ((defaultChars_severed _).append severed)
  exact default_writes default _ _ severed scans

end Param

theorem Function.writes {function : Function} (printable : function.Printable) :
    Writes function.chars function.derivation.yield fun _ => True := by
  obtain ⟨valid, parameters, body⟩ := printable
  have inner := Writes.listed fun param member => Param.writes (parameters param member)
  have indented : ∀ statement ∈ function.body,
      Writes (' ' :: ' ' :: statement.line) statement.sentence.yield fun _ => True :=
    fun statement member rest more _ scans =>
      .blank rfl (.blank rfl (Expr.line_writes (body statement member) rest more trivial scans))
  intro rest more _ scans
  simp only [chars, derivation, Derivation.Function.yield, List.map_map, List.flatMap_map,
    List.append_assoc, List.cons_append, List.nil_append]
  apply Scans.write (by trivial) (shuns_cons (by decide))
  apply Scans.blank rfl
  apply valid.scans (shuns_cons (by decide))
  apply Scans.mark rfl
  apply inner _ _ (shuns_cons (by decide))
  apply Scans.mark rfl
  apply Scans.blank rfl
  apply Scans.mark rfl
  apply Scans.blank rfl
  apply Writes.flatMap indented _ _ trivial
  apply Scans.mark rfl
  exact .blank rfl scans

theorem Item.writes {item : Item} (printable : item.Printable) :
    Writes item.chars item.derivation.yield fun _ => True := by
  cases item with
  | function f => exact Function.writes printable
  | statement s => exact Expr.line_writes printable

namespace ImportLine

theorem path_writes {path : String} (valid : ∀ segment ∈ segments path, FreeWord segment) :
    Writes path.toList (Derivation.Names.yield .dot ⟨segments path, segments_ne_nil path⟩)
      (Shuns isWordPart) := by
  have spelled : path.toList = ['.'].intercalate ((segments path).map String.toList) := by
    conv_lhs => rw [← intercalate_segments path, String.toList_intercalate]
    rfl
  rw [spelled]
  apply Writes.separated
  · exact fun rest more _ scans => .mark rfl scans
  · exact fun rest => shuns_cons (by decide)
  · exact fun segment member rest more shuns scans => (valid segment member).scans shuns scans

theorem namesChars_severed (names : List String) : Severed (namesChars names) := by
  cases names with
  | nil => exact shuns_nil _
  | cons first others => exact shuns_cons (by decide)

theorem names_writes {names : List String} (valid : ∀ name ∈ names, FreeWord name) :
    Writes (namesChars names) (Derivation.ImportLine.bracketed (namesDerivation names))
      fun _ => True := by
  intro rest more _ scans
  cases names with
  | nil => exact scans
  | cons first others =>
    have inner : Writes (listed ((first :: others).map String.toList))
        (separatedBy .comma ((first :: others).map fun name => [.identifier name])) Severed :=
      Writes.listed fun name member rest more severed scans => (valid name member).scans severed.word scans
    simp only [namesChars, namesDerivation, Derivation.ImportLine.bracketed, Derivation.Names.yield,
      List.append_assoc, List.cons_append, List.nil_append]
    apply Scans.blank rfl
    apply Scans.mark rfl
    apply inner _ _ (shuns_cons (by decide))
    exact .mark rfl scans

theorem aliasChars_severed (name : Option String) : Severed (aliasChars name) := by
  cases name with
  | none => exact shuns_nil _
  | some word => exact shuns_cons (by decide)

theorem alias_writes {name : Option String} (valid : ∀ word ∈ name, FreeWord word) :
    Writes (aliasChars name) (Derivation.ImportLine.aliased name) (Shuns isWordPart) := by
  intro rest more shuns scans
  cases name with
  | none => exact scans
  | some word =>
    simp only [aliasChars, Derivation.ImportLine.aliased, List.append_assoc, List.cons_append,
      List.nil_append]
    apply Scans.blank rfl
    apply Scans.write (by trivial) (shuns_cons (by decide))
    apply Scans.blank rfl
    exact (valid word rfl).scans shuns scans

theorem writes {line : ImportLine} (printable : line.Printable) :
    Writes line.chars line.derivation.yield fun _ => True := by
  obtain ⟨path, names, shortName⟩ := printable
  intro rest more _ scans
  have behind : Severed (namesChars line.names ++ (aliasChars line.shortName ++ '\n' :: rest)) :=
    (namesChars_severed _).append ((aliasChars_severed _).append (shuns_cons (by decide)))
  simp only [chars, derivation, Derivation.ImportLine.yield, Derivation.ending, List.append_assoc,
    List.cons_append, List.nil_append]
  apply Scans.write (by trivial) (shuns_cons (by decide))
  apply Scans.blank rfl
  apply path_writes path _ _ behind.word
  apply names_writes names _ _ trivial
  apply alias_writes shortName _ _ (shuns_cons (by decide))
  exact .blank rfl scans

end ImportLine

theorem UnitTree.render_scans {tree : UnitTree} (printable : tree.Printable) :
    Scans tree.render.toList tree.derivation.yield := by
  have items := Writes.flatMap (fun item member => Item.writes (printable.2 item member))
    [] [] trivial Scans.nil
  have whole := Writes.flatMap (fun line member => ImportLine.writes (printable.1 line member))
    _ _ trivial items
  simpa [render, derivation, Derivation.Unit.yield, List.flatMap_map] using whole

/-- A tree whose names are words and no keywords, whose types can stand between backticks and whose
numbers are no decimals and not negative is printed as a text that is read back as the tree, up to
spans. Strings and characters are any. -/
theorem UnitTree.parse_render (tree : UnitTree) (printable : tree.Printable) :
    ∃ parsed, parse tree.render = .ok parsed ∧ parsed.bare = tree.bare := by
  obtain ⟨body, last, lexed, yields, ends, inside⟩ := (render_scans printable).tokenize
  obtain ⟨read, bare⟩ := Tree.unit_derived inside ends yields
  rw [derivation_tree] at bare
  exact ⟨_, by rw [parse, lexed]; exact read, bare⟩

/-- A tree with every kind of part. -/
def assorted : UnitTree where
  imports := [⟨"a.b", ["x", "asset"], some "c", nowhere⟩, ⟨"d", [], none, nowhere⟩]
  items := [
    .function ⟨"f",
      [⟨"a", some ⟨"List<Int>, //", nowhere⟩, some (.call "g" [] nowhere), nowhere⟩,
        ⟨"_1", none, none, nowhere⟩],
      [.null nowhere, .call "f" [.name "a" nowhere, .literal (.int 120) nowhere] nowhere], nowhere⟩,
    .statement (.name "x" nowhere),
    .statement (.call "print" [.literal (.string "\"\\\n//\t") nowhere, .literal (.char '\'') nowhere,
      .literal (.bool true) nowhere, .literal (.int 9223372036854775807) nowhere] nowhere)]

theorem assorted_read_back : assorted.Printable ∧
    assorted.render = "import a.b [x, asset] as c\nimport d\n" ++
      "fn f(a: \x60List<Int>, //\x60 = g(), _1) \x7b\n  null\n  f(a, 120)\n\x7d\n" ++
      "x\nprint(\"\\\"\\\\\\n//\t\", '\\'', true, 9223372036854775807)\n" ∧
    ∃ parsed, UnitTree.parse assorted.render = .ok parsed ∧ parsed.bare = assorted.bare := by
  have printable : assorted.Printable := by decide +kernel
  exact ⟨printable, by decide +kernel, UnitTree.parse_render assorted printable⟩

end UnitCompiler
