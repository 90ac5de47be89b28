import UnitCompiler.Tree.Parser

/-! The grammar of units as a type of derivations for each nonterminal: a derivation chooses an
alternative and derives its parts, its yield is the row of token kinds it derives, and it stands for
one tree. No two derivations have the same yield; each part is known by the first token behind it. -/

namespace UnitCompiler.Derivation

open Token (Kind)

def separatedBy (separator : Kind) : List (List Kind) → List Kind
  | [] => []
  | [last] => last
  | first :: second :: rest => first ++ separator :: separatedBy separator (second :: rest)

/-- Names with separators: `ID (separator ID)*`. -/
structure Names where
  list : List String
  nonempty : list ≠ []

/-- An import: `'import' path ('[' ID (',' ID)* ']')? ('as' ID)? ';'?`, where
`path := ID ('.' ID)*`. -/
structure ImportLine where
  path : Names
  names : Option Names
  shortName : Option String
  semicolon : Bool

/-- A literal: `string | char | integer | decimal | 'true' | 'false' | 'null'`. -/
inductive Constant where
  | value (literal : Literal)
  | null

/-- An expression: `ID '(' (expr (',' expr)*)? ')' | ID | literal`. -/
inductive Expr where
  | call (function : String) (arguments : List Expr)
  | name (name : String)
  | constant (constant : Constant)

/-- A statement: `expr ';'?`. -/
structure Statement where
  expr : Expr
  semicolon : Bool

/-- A type: `path | quoted type`. -/
inductive TypeName where
  | path (path : Names)
  | quoted (name : String)

/-- A parameter: `ID (':' type)? ('=' expr)?`. -/
structure Param where
  name : String
  type : Option TypeName
  default : Option Expr

/-- A function: `'fn' ID '(' (param (',' param)*)? ')' '{' statement* '}'`. -/
structure Function where
  name : String
  parameters : List Param
  body : List Statement

inductive Item where
  | function (function : Function)
  | statement (statement : Statement)

/-- A unit: `import* (function | statement)*`. -/
structure Unit where
  imports : List ImportLine
  items : List Item

/-! ## Yields -/

def Names.yield (separator : Kind) (names : Names) : List Kind :=
  separatedBy separator (names.list.map fun name => [.identifier name])

def ending : Bool → List Kind
  | true => [.semicolon]
  | false => []

namespace ImportLine

def bracketed : Option Names → List Kind
  | some list => .openBracket :: (list.yield .comma ++ [.closeBracket])
  | none => []

def aliased : Option String → List Kind
  | some name => [.asWord, .identifier name]
  | none => []

def yield (line : ImportLine) : List Kind :=
  .importWord :: (line.path.yield .dot ++
    (bracketed line.names ++ (aliased line.shortName ++ ending line.semicolon)))

end ImportLine

def Constant.kind : Constant → Kind
  | .value (.string text) => .text text
  | .value (.char c) => .character c
  | .value (.int n) => .integer n
  | .value (.decimal x) => .decimal x
  | .value (.bool true) => .trueWord
  | .value (.bool false) => .falseWord
  | .null => .nullWord

namespace Expr

mutual

def yield : Expr → List Kind
  | .call function arguments =>
    .identifier function :: .openParen ::
      (separatedBy .comma (yields arguments) ++ [.closeParen])
  | .name word => [.identifier word]
  | .constant value => [value.kind]

def yields : List Expr → List (List Kind)
  | [] => []
  | expr :: rest => yield expr :: yields rest

end

@[simp] theorem yields_eq (list : List Expr) : yields list = list.map yield := by
  induction list with
  | nil => rfl
  | cons expr rest ih => simp [yields, ih]

end Expr

def Statement.yield (statement : Statement) : List Kind :=
  statement.expr.yield ++ ending statement.semicolon

def TypeName.yield : TypeName → List Kind
  | .path names => names.yield .dot
  | .quoted name => [.quotedType name]

namespace Param

def typed : Option TypeName → List Kind
  | some type => .colon :: type.yield
  | none => []

def defaulted : Option Expr → List Kind
  | some value => .equals :: value.yield
  | none => []

def yield (param : Param) : List Kind :=
  .identifier param.name :: (typed param.type ++ defaulted param.default)

end Param

def Function.yield (function : Function) : List Kind :=
  .fnWord :: .identifier function.name :: .openParen ::
    (separatedBy .comma (function.parameters.map Param.yield) ++ Kind.closeParen :: Kind.openBrace ::
      (function.body.flatMap Statement.yield ++ [Kind.closeBrace]))

def Item.yield : Item → List Kind
  | .function f => f.yield
  | .statement s => s.yield

def Unit.yield (unit : Unit) : List Kind :=
  unit.imports.flatMap ImportLine.yield ++ unit.items.flatMap Item.yield

/-! ## Trees -/

/-- The span in a tree without spans. -/
def nowhere : Span := ⟨0, 0, 0, 0⟩

def Names.dotted (names : Names) : String := ".".intercalate names.list

def ImportLine.tree (line : ImportLine) : UnitCompiler.ImportLine :=
  ⟨line.path.dotted, (line.names.map Names.list).getD [], line.shortName, nowhere⟩

def Constant.tree : Constant → UnitCompiler.Expr
  | .value literal => .literal literal nowhere
  | .null => .null nowhere

namespace Expr

mutual

def tree : Expr → UnitCompiler.Expr
  | .call function arguments => .call function (trees arguments) nowhere
  | .name word => .name word nowhere
  | .constant value => value.tree

def trees : List Expr → List UnitCompiler.Expr
  | [] => []
  | expr :: rest => tree expr :: trees rest

end

@[simp] theorem trees_eq (list : List Expr) : trees list = list.map tree := by
  induction list with
  | nil => rfl
  | cons expr rest ih => simp [trees, ih]

end Expr

def TypeName.tree : TypeName → UnitCompiler.TypeName
  | .path names => ⟨names.dotted, nowhere⟩
  | .quoted name => ⟨name, nowhere⟩

def Param.tree (param : Param) : UnitCompiler.Param :=
  ⟨param.name, param.type.map TypeName.tree, param.default.map Expr.tree, nowhere⟩

def Function.tree (function : Function) : UnitCompiler.Function :=
  ⟨function.name, function.parameters.map Param.tree, function.body.map (·.expr.tree), nowhere⟩

def Item.tree : Item → UnitCompiler.Item
  | .function f => .function f.tree
  | .statement s => .statement s.expr.tree

def Unit.tree (unit : Unit) : UnitTree :=
  ⟨unit.imports.map ImportLine.tree, unit.items.map Item.tree⟩

end UnitCompiler.Derivation

namespace UnitCompiler

namespace Expr

mutual

def bare : Expr → Expr
  | .literal value _ => .literal value Derivation.nowhere
  | .null _ => .null Derivation.nowhere
  | .name word _ => .name word Derivation.nowhere
  | .call function arguments _ => .call function (bareAll arguments) Derivation.nowhere

def bareAll : List Expr → List Expr
  | [] => []
  | expr :: rest => bare expr :: bareAll rest

end

@[simp] theorem bareAll_eq (list : List Expr) : bareAll list = list.map bare := by
  induction list with
  | nil => rfl
  | cons expr rest ih => simp [bareAll, ih]

end Expr

def TypeName.bare (type : TypeName) : TypeName := { type with span := Derivation.nowhere }

def Param.bare (param : Param) : Param :=
  ⟨param.name, param.type.map TypeName.bare, param.default.map Expr.bare, Derivation.nowhere⟩

def Function.bare (function : Function) : Function :=
  ⟨function.name, function.parameters.map Param.bare, function.body.map Expr.bare,
    Derivation.nowhere⟩

def ImportLine.bare (line : ImportLine) : ImportLine := { line with span := Derivation.nowhere }

def Item.bare : Item → Item
  | .function f => .function f.bare
  | .statement expr => .statement expr.bare

def UnitTree.bare (tree : UnitTree) : UnitTree :=
  ⟨tree.imports.map ImportLine.bare, tree.items.map Item.bare⟩

end UnitCompiler

namespace UnitCompiler.Derivation

open Token (Kind)

/-! ## Beginnings and ends -/

def opens : Kind → Bool
  | .identifier _ | .text _ | .character _ | .integer _ | .decimal _ | .trueWord | .falseWord
  | .nullWord => true
  | _ => false

/-- Every derivation begins with a kind of a class. -/
def Begins {δ : Type} (yield : δ → List Kind) (opening : Kind → Bool) : Prop :=
  ∀ d, ∃ first rest, yield d = first :: rest ∧ opening first = true

/-- What comes next is none of some kinds. -/
def Avoids (kinds rest : List Kind) : Prop := ∀ kind ∈ rest.head?, kind ∉ kinds

@[simp] theorem avoids_nil (kinds : List Kind) : Avoids kinds [] := by simp [Avoids]

@[simp] theorem avoids_cons (kinds : List Kind) (first : Kind) (rest : List Kind) :
    Avoids kinds (first :: rest) ↔ first ∉ kinds := by simp [Avoids]

theorem Avoids.mono {kinds fewer rest : List Kind} (avoids : Avoids kinds rest)
    (sub : ∀ kind ∈ fewer, kind ∈ kinds) : Avoids fewer rest :=
  fun kind next member => avoids kind next (sub kind member)

theorem Avoids.append {kinds part rest : List Kind} (own : Avoids kinds part)
    (behind : Avoids kinds rest) : Avoids kinds (part ++ rest) := by
  cases part with
  | nil => exact behind
  | cons first others => simpa using own

theorem avoids_ending {kinds : List Kind} (other : .semicolon ∉ kinds) (semicolon : Bool) :
    Avoids kinds (ending semicolon) := by
  cases semicolon <;> simp [ending, other]

theorem ImportLine.avoids_bracketed {kinds : List Kind} (other : .openBracket ∉ kinds)
    (names : Option Names) : Avoids kinds (bracketed names) := by
  cases names <;> simp [bracketed, other]

theorem ImportLine.avoids_aliased {kinds : List Kind} (other : .asWord ∉ kinds)
    (name : Option String) : Avoids kinds (aliased name) := by
  cases name <;> simp [aliased, other]

theorem Param.avoids_defaulted {kinds : List Kind} (other : .equals ∉ kinds) (value : Option Expr) :
    Avoids kinds (defaulted value) := by
  cases value <;> simp [defaulted, other]

theorem Constant.opens (constant : Constant) : opens constant.kind = true := by
  cases constant with
  | null => rfl
  | value literal =>
    cases literal with
    | bool b => cases b <;> rfl
    | string | int | decimal | char => rfl

theorem Expr.begins : Begins Expr.yield opens := by
  intro expr
  cases expr with
  | call function arguments => exact ⟨_, _, by rw [Expr.yield], rfl⟩
  | name word => exact ⟨_, _, by rw [Expr.yield], rfl⟩
  | constant value => exact ⟨_, _, by rw [Expr.yield], value.opens⟩

theorem Statement.begins : Begins Statement.yield opens := by
  intro statement
  obtain ⟨first, rest, yielded, opening⟩ := Expr.begins statement.expr
  exact ⟨first, _, by rw [Statement.yield, yielded, List.cons_append], opening⟩

def opensItem (kind : Kind) : Bool := kind == .fnWord || opens kind

theorem Item.begins : Begins Item.yield opensItem := by
  intro item
  cases item with
  | function f => exact ⟨_, _, rfl, rfl⟩
  | statement s =>
    obtain ⟨first, rest, yielded, opening⟩ := Statement.begins s
    exact ⟨first, rest, yielded, by simp [opensItem, opening]⟩

/-- What follows derivations that may be missing begins like one of them, or like what comes behind. -/
theorem Begins.avoids_flatMap {δ : Type} {yield : δ → List Kind} {opening : Kind → Bool}
    (begins : Begins yield opening) {kinds : List Kind} (apart : ∀ kind ∈ kinds, opening kind = false)
    {list : List δ} {rest : List Kind} (avoids : Avoids kinds rest) :
    Avoids kinds (list.flatMap yield ++ rest) := by
  cases list with
  | nil => exact avoids
  | cons d list =>
    obtain ⟨first, others, yielded, opened⟩ := begins d
    rw [List.flatMap_cons, yielded, List.cons_append, List.cons_append, avoids_cons]
    intro member
    rw [apart first member] at opened
    contradiction

/-- A row of derivations begins like the first of them. -/
theorem Begins.separatedBy_cons {δ : Type} {yield : δ → List Kind} {opening : Kind → Bool}
    (begins : Begins yield opening) (separator : Kind) (d : δ) (others : List δ) :
    ∃ first rest, separatedBy separator ((d :: others).map yield) = first :: rest ∧
      opening first = true := by
  obtain ⟨first, more, yielded, opened⟩ := begins d
  cases others with
  | nil => exact ⟨first, more, by simpa [separatedBy] using yielded, opened⟩
  | cons second others =>
    refine ⟨first, more ++ separator :: separatedBy separator ((second :: others).map yield), ?_,
      opened⟩
    simp [separatedBy, yielded]

/-! ## Unambiguity -/

/-- A derivation is determined by what it yields, and so is its end, if what comes behind it is none of
some kinds. -/
def Determined {δ : Type} (yield : δ → List Kind) (kinds : List Kind) (d : δ) : Prop :=
  ∀ d' rest rest', Avoids kinds rest → Avoids kinds rest' → yield d ++ rest = yield d' ++ rest' →
    d = d' ∧ rest = rest'

section Repetition

variable {δ : Type} {yield : δ → List Kind} {kinds : List Kind}

theorem separatedBy_determined {separator : Kind} (other : separator ∉ kinds) {list list' : List δ}
    (each : ∀ d ∈ list, Determined yield kinds d) (nonempty : list ≠ []) (nonempty' : list' ≠ [])
    {rest rest' : List Kind} (avoids : Avoids (separator :: kinds) rest)
    (avoids' : Avoids (separator :: kinds) rest')
    (same : separatedBy separator (list.map yield) ++ rest =
      separatedBy separator (list'.map yield) ++ rest') : list = list' ∧ rest = rest' := by
  have fewer (rest : List Kind) (avoids : Avoids (separator :: kinds) rest) : Avoids kinds rest :=
    avoids.mono fun kind member => List.mem_cons_of_mem _ member
  have separates (rest : List Kind) : Avoids kinds (separator :: rest) := by simpa using other
  have unseparated (rest : List Kind) : ¬ Avoids (separator :: kinds) (separator :: rest) := by simp
  induction list generalizing list' with
  | nil => contradiction
  | cons d list ih =>
    have own := each d List.mem_cons_self
    obtain ⟨d', others', rfl⟩ := List.exists_cons_of_ne_nil nonempty'
    -- Either both rows end here, or both go on behind a separator.
    cases list with
    | nil =>
      cases others' with
      | nil =>
        obtain ⟨rfl, rest⟩ := own d' rest rest' (fewer _ avoids) (fewer _ avoids') same
        exact ⟨rfl, rest⟩
      | cons second' others' =>
        simp only [List.map_cons, List.map_nil, separatedBy, List.append_assoc,
          List.cons_append] at same
        obtain ⟨-, rfl⟩ := own d' _ _ (fewer _ avoids) (separates _) same
        exact absurd avoids (unseparated _)
    | cons second others =>
      cases others' with
      | nil =>
        simp only [List.map_cons, List.map_nil, separatedBy, List.append_assoc,
          List.cons_append] at same
        obtain ⟨-, ends⟩ := own d' _ _ (separates _) (fewer _ avoids') same
        rw [← ends] at avoids'
        exact absurd avoids' (unseparated _)
      | cons second' others' =>
        simp only [List.map_cons, separatedBy, List.append_assoc, List.cons_append] at same
        obtain ⟨rfl, tails⟩ := own d' _ _ (separates _) (separates _) same
        have later := ih (fun d member => each d (List.mem_cons_of_mem _ member)) (by simp)
          (List.cons_ne_nil second' others') (by simpa using tails)
        exact ⟨by rw [later.1], later.2⟩

/-- A row that may be empty, up to a closing kind. -/
theorem enclosed_determined {separator close : Kind} (other : separator ∉ kinds)
    (closes : close ∉ separator :: kinds) {opening : Kind → Bool} (begins : Begins yield opening)
    (shut : opening close = false) {list list' : List δ}
    (each : ∀ d ∈ list, Determined yield kinds d) {rest rest' : List Kind}
    (same : separatedBy separator (list.map yield) ++ close :: rest =
      separatedBy separator (list'.map yield) ++ close :: rest') : list = list' ∧ rest = rest' := by
  have unclosed (d : δ) (others : List δ) (rest rest' : List Kind) :
      separatedBy separator ((d :: others).map yield) ++ rest ≠ close :: rest' := by
    obtain ⟨first, more, row, opened⟩ := begins.separatedBy_cons separator d others
    intro same
    rw [row, List.cons_append] at same
    rw [(List.cons.inj same).1, shut] at opened
    contradiction
  cases list with
  | nil =>
    cases list' with
    | nil => exact ⟨rfl, (List.cons.inj same).2⟩
    | cons d' others' => exact absurd same.symm (unclosed d' others' _ _)
  | cons d others =>
    cases list' with
    | nil => exact absurd same (unclosed d others _ _)
    | cons d' others' =>
      obtain ⟨lists, rests⟩ := separatedBy_determined other each (by simp) (by simp)
        (by simpa using closes) (by simpa using closes) same
      exact ⟨lists, (List.cons.inj rests).2⟩

/-- A repetition ends where no further derivation can begin. -/
theorem flatMap_determined {opening : Kind → Bool} (begins : Begins yield opening)
    (apart : ∀ kind ∈ kinds, opening kind = false) {list list' : List δ}
    (each : ∀ d ∈ list, Determined yield kinds d) {rest rest' : List Kind}
    (avoids : Avoids kinds rest) (avoids' : Avoids kinds rest')
    (stops : ∀ kind ∈ rest.head?, opening kind = false)
    (stops' : ∀ kind ∈ rest'.head?, opening kind = false)
    (same : list.flatMap yield ++ rest = list'.flatMap yield ++ rest') :
    list = list' ∧ rest = rest' := by
  have stuck (d : δ) (others rest : List Kind) (stops : ∀ kind ∈ rest.head?, opening kind = false) :
      yield d ++ others ≠ rest := by
    obtain ⟨first, more, yielded, opened⟩ := begins d
    rintro rfl
    rw [yielded] at stops
    rw [stops first rfl] at opened
    contradiction
  induction list generalizing list' with
  | nil =>
    cases list' with
    | nil => exact ⟨rfl, same⟩
    | cons d' others' =>
      rw [List.flatMap_cons, List.append_assoc] at same
      exact absurd same.symm (stuck d' _ _ stops)
  | cons d others ih =>
    cases list' with
    | nil =>
      rw [List.flatMap_cons, List.append_assoc] at same
      exact absurd same (stuck d _ _ stops')
    | cons d' others' =>
      rw [List.flatMap_cons, List.flatMap_cons, List.append_assoc, List.append_assoc] at same
      obtain ⟨rfl, tails⟩ := each d List.mem_cons_self d' _ _ (begins.avoids_flatMap apart avoids)
        (begins.avoids_flatMap apart avoids') same
      obtain ⟨rfl, rests⟩ := ih (fun d member => each d (List.mem_cons_of_mem _ member)) tails
      exact ⟨rfl, rests⟩

/-- A part that may be missing, and begins with a kind of its own if it is there. -/
theorem optional_determined {part : Option δ → List Kind} {start : Kind} {inner : δ → List Kind}
    (absent : part none = []) (present : ∀ d, part (some d) = start :: inner d)
    (each : ∀ d, Determined inner kinds d) (option : Option δ) :
    Determined part (start :: kinds) option := by
  have fewer (rest : List Kind) (avoids : Avoids (start :: kinds) rest) : Avoids kinds rest :=
    avoids.mono fun kind member => List.mem_cons_of_mem _ member
  intro option' rest rest' avoids avoids' same
  cases option with
  | none =>
    cases option' with
    | none => exact ⟨rfl, by simpa [absent] using same⟩
    | some d' =>
      simp only [absent, present, List.nil_append] at same
      simp [same] at avoids
  | some d =>
    cases option' with
    | none =>
      simp only [absent, present, List.nil_append] at same
      simp [← same] at avoids'
    | some d' =>
      simp only [present, List.cons_append, List.cons.injEq, true_and] at same
      obtain ⟨rfl, rests⟩ := each d d' rest rest' (fewer _ avoids) (fewer _ avoids') same
      exact ⟨rfl, rests⟩

end Repetition

theorem ending_determined (semicolon : Bool) : Determined ending [.semicolon] semicolon := by
  intro semicolon' rest rest' avoids avoids' same
  cases semicolon <;> cases semicolon' <;> simp_all [ending]
  · simp [← same] at avoids'

theorem Names.determined (separator : Kind) (names : Names) :
    Determined (Names.yield separator) [separator] names := by
  intro names' rest rest' avoids avoids' same
  have word (name : String) : Determined (fun name => [Kind.identifier name]) [] name := by
    intro name' rest rest' _ _ same
    simpa using same
  obtain ⟨lists, rests⟩ := separatedBy_determined List.not_mem_nil (fun name _ => word name)
    names.nonempty names'.nonempty avoids avoids' same
  obtain ⟨list, nonempty⟩ := names
  obtain ⟨list', nonempty'⟩ := names'
  exact ⟨by simpa using lists, rests⟩

namespace ImportLine

theorem bracketed_determined (names : Option Names) :
    Determined bracketed [.openBracket] names := by
  refine optional_determined rfl (fun _ => rfl) (fun names => ?_) names
  intro names' rest rest' _ _ same
  simp only [List.append_assoc, List.singleton_append] at same
  obtain ⟨rfl, rests⟩ := names.determined .comma names' _ _ (by simp) (by simp) same
  exact ⟨rfl, (List.cons.inj rests).2⟩

theorem aliased_determined (name : Option String) : Determined aliased [.asWord] name := by
  refine optional_determined rfl (fun _ => rfl) (fun name => ?_) name
  intro name' rest rest' _ _ same
  simpa using same

def continuing : List Kind := [.dot, .openBracket, .asWord, .semicolon]

/-- What comes behind the path of a line, behind its names and behind its alias. -/
theorem avoids_behind {rest : List Kind} (avoids : Avoids continuing rest) (names : Option Names)
    (shortName : Option String) (semicolon : Bool) :
    Avoids [.dot] (bracketed names ++ (aliased shortName ++ (ending semicolon ++ rest))) ∧
      Avoids [.openBracket] (aliased shortName ++ (ending semicolon ++ rest)) ∧
      Avoids [.asWord] (ending semicolon ++ rest) ∧ Avoids [.semicolon] rest := by
  refine ⟨(avoids_bracketed (by simp) _).append ((avoids_aliased (by simp) _).append
      ((avoids_ending (by simp) _).append (avoids.mono ?_))),
    (avoids_aliased (by simp) _).append ((avoids_ending (by simp) _).append (avoids.mono ?_)),
    (avoids_ending (by simp) _).append (avoids.mono ?_), avoids.mono ?_⟩
  all_goals simp [continuing]

theorem determined (line : ImportLine) : Determined yield continuing line := by
  intro line' rest rest' avoids avoids' same
  obtain ⟨path, names, shortName, semicolon⟩ := line
  obtain ⟨path', names', shortName', semicolon'⟩ := line'
  simp only [yield, List.cons_append, List.cons.injEq, true_and, List.append_assoc] at same
  obtain ⟨first, second, third, last⟩ := avoids_behind avoids names shortName semicolon
  obtain ⟨first', second', third', last'⟩ := avoids_behind avoids' names' shortName' semicolon'
  obtain ⟨rfl, behindPath⟩ := path.determined .dot path' _ _ first first' same
  obtain ⟨rfl, behindNames⟩ := bracketed_determined names names' _ _ second second' behindPath
  obtain ⟨rfl, behindAlias⟩ := aliased_determined shortName shortName' _ _ third third' behindNames
  obtain ⟨rfl, rests⟩ := ending_determined semicolon semicolon' _ _ last last' behindAlias
  exact ⟨rfl, rests⟩

end ImportLine

theorem Constant.kind_injective {constant constant' : Constant}
    (same : constant.kind = constant'.kind) : constant = constant' := by
  have decoded (constant : Constant) : Tree.literal? constant.kind =
      match constant with
      | .value literal => some literal
      | .null => none := by
    cases constant with
    | null => rfl
    | value literal =>
      cases literal with
      | bool b => cases b <;> rfl
      | string | int | decimal | char => rfl
  have same := congrArg Tree.literal? same
  rw [decoded, decoded] at same
  cases constant <;> cases constant' <;> simp_all

theorem Constant.kind_ne_identifier (constant : Constant) (name : String) :
    constant.kind ≠ .identifier name := by
  cases constant with
  | null => simp [kind]
  | value literal =>
    cases literal with
    | bool b => cases b <;> simp [kind]
    | string | int | decimal | char => simp [kind]

/-- A call is told from a name by the parenthesis behind it. -/
theorem Expr.determined (expr : Expr) : Determined Expr.yield [.openParen] expr := by
  intro expr' rest rest' avoids avoids' same
  match expr, expr' with
  | .call function arguments, .call function' arguments' =>
    simp only [Expr.yield, Expr.yields_eq, List.cons_append, List.cons.injEq, true_and,
      Kind.identifier.injEq, List.append_assoc, List.nil_append] at same
    obtain ⟨rfl, inner⟩ := same
    obtain ⟨rfl, rests⟩ := enclosed_determined (by simp) (by simp) Expr.begins rfl
      (fun argument _ => Expr.determined argument) inner
    exact ⟨rfl, rests⟩
  | .call function arguments, .name word' =>
    simp only [Expr.yield, List.cons_append, List.nil_append, List.cons.injEq] at same
    simp [← same.2] at avoids'
  | .name word, .call function' arguments' =>
    simp only [Expr.yield, List.cons_append, List.nil_append, List.cons.injEq] at same
    simp [same.2] at avoids
  | .name word, .name word' =>
    simp only [Expr.yield, List.cons_append, List.nil_append, List.cons.injEq,
      Kind.identifier.injEq] at same
    exact ⟨by rw [same.1], same.2⟩
  | .constant value, .constant value' =>
    simp only [Expr.yield, List.cons_append, List.nil_append, List.cons.injEq] at same
    exact ⟨by rw [Constant.kind_injective same.1], same.2⟩
  | .constant value, .name _ | .constant value, .call _ _ =>
    simp only [Expr.yield, List.cons_append, List.cons.injEq] at same
    exact absurd same.1 (value.kind_ne_identifier _)
  | .name _, .constant value' | .call _ _, .constant value' =>
    simp only [Expr.yield, List.cons_append, List.cons.injEq] at same
    exact absurd same.1.symm (value'.kind_ne_identifier _)

theorem Statement.determined (statement : Statement) :
    Determined Statement.yield [.openParen, .semicolon] statement := by
  intro statement' rest rest' avoids avoids' same
  obtain ⟨expr, semicolon⟩ := statement
  obtain ⟨expr', semicolon'⟩ := statement'
  simp only [Statement.yield, List.append_assoc] at same
  have behind {rest : List Kind} (avoids : Avoids [.openParen, .semicolon] rest) (semicolon : Bool) :
      Avoids [.openParen] (ending semicolon ++ rest) ∧ Avoids [.semicolon] rest :=
    ⟨(avoids_ending (by simp) _).append (avoids.mono (by simp)), avoids.mono (by simp)⟩
  obtain ⟨rfl, behindExpr⟩ := expr.determined expr' _ _ (behind avoids semicolon).1
    (behind avoids' semicolon').1 same
  obtain ⟨rfl, rests⟩ := ending_determined semicolon semicolon' _ _ (behind avoids semicolon).2
    (behind avoids' semicolon').2 behindExpr
  exact ⟨rfl, rests⟩

theorem Names.begins (separator : Kind) (names : Names) :
    ∃ name rest, names.yield separator = .identifier name :: rest := by
  obtain ⟨list, nonempty⟩ := names
  match list, nonempty with
  | [name], _ => exact ⟨name, [], rfl⟩
  | name :: second :: others, _ => exact ⟨name, _, rfl⟩

theorem TypeName.determined (type : TypeName) : Determined TypeName.yield [.dot] type := by
  intro type' rest rest' avoids avoids' same
  match type, type' with
  | .path names, .path names' =>
    obtain ⟨rfl, rests⟩ := names.determined .dot names' rest rest' avoids avoids' same
    exact ⟨rfl, rests⟩
  | .quoted name, .quoted name' =>
    simp only [TypeName.yield, List.cons_append, List.nil_append, List.cons.injEq,
      Kind.quotedType.injEq] at same
    exact ⟨by rw [same.1], same.2⟩
  | .path names, .quoted name' =>
    obtain ⟨name, more, yielded⟩ := names.begins .dot
    simp [TypeName.yield, yielded] at same
  | .quoted name, .path names' =>
    obtain ⟨name', more, yielded⟩ := names'.begins .dot
    simp [TypeName.yield, yielded] at same

namespace Param

theorem begins : Begins yield (fun kind => kind matches .identifier _) :=
  fun _ => ⟨_, _, rfl, rfl⟩

def continuing : List Kind := [.colon, .dot, .equals, .openParen]

theorem avoids_behind {rest : List Kind} (avoids : Avoids continuing rest) (value : Option Expr) :
    Avoids [.colon, .dot] (defaulted value ++ rest) ∧ Avoids [.equals, .openParen] rest := by
  refine ⟨(avoids_defaulted (by simp) _).append (avoids.mono ?_), avoids.mono ?_⟩
  all_goals simp [continuing]

theorem determined (param : Param) : Determined yield continuing param := by
  intro param' rest rest' avoids avoids' same
  obtain ⟨name, type, value⟩ := param
  obtain ⟨name', type', value'⟩ := param'
  simp only [yield, List.cons_append, List.cons.injEq, Kind.identifier.injEq,
    List.append_assoc] at same
  obtain ⟨rfl, behindName⟩ := same
  obtain ⟨first, last⟩ := avoids_behind avoids value
  obtain ⟨first', last'⟩ := avoids_behind avoids' value'
  obtain ⟨rfl, behindType⟩ := optional_determined rfl (fun _ => rfl) TypeName.determined type type'
    _ _ first first' behindName
  obtain ⟨rfl, rests⟩ := optional_determined rfl (fun _ => rfl) Expr.determined value value' _ _
    last last' behindType
  exact ⟨rfl, rests⟩

end Param

theorem Function.determined (function : Function) : Determined Function.yield [] function := by
  intro function' rest rest' _ _ same
  obtain ⟨name, parameters, body⟩ := function
  obtain ⟨name', parameters', body'⟩ := function'
  simp only [Function.yield, List.cons_append, List.cons.injEq, Kind.identifier.injEq, true_and,
    List.append_assoc, List.nil_append] at same
  obtain ⟨rfl, behindName⟩ := same
  obtain ⟨rfl, behindParams⟩ := enclosed_determined (by simp [Param.continuing])
    (by simp [Param.continuing]) Param.begins rfl (fun param _ => param.determined) behindName
  obtain ⟨rfl, rests⟩ := flatMap_determined Statement.begins (by decide)
    (fun statement _ => statement.determined) (by simp) (by simp) (by rintro kind ⟨⟩; rfl)
    (by rintro kind ⟨⟩; rfl) (List.cons.inj behindParams).2
  exact ⟨rfl, (List.cons.inj rests).2⟩

theorem Item.determined (item : Item) :
    Determined Item.yield [.openParen, .semicolon] item := by
  intro item' rest rest' avoids avoids' same
  have apart (f : Function) (s : Statement) (rest rest' : List Kind) :
      f.yield ++ rest ≠ s.yield ++ rest' := by
    obtain ⟨first, more, yielded, opened⟩ := Statement.begins s
    intro same
    rw [yielded] at same
    have head : Kind.fnWord = first := (List.cons.inj same).1
    rw [← head] at opened
    contradiction
  match item, item' with
  | .function f, .function f' =>
    obtain ⟨rfl, rests⟩ := f.determined f' rest rest' (avoids.mono (by simp))
      (avoids'.mono (by simp)) same
    exact ⟨rfl, rests⟩
  | .statement s, .statement s' =>
    obtain ⟨rfl, rests⟩ := s.determined s' rest rest' avoids avoids' same
    exact ⟨rfl, rests⟩
  | .function f, .statement s' => exact absurd same (apart f s' _ _)
  | .statement s, .function f' => exact absurd same.symm (apart f' s _ _)

theorem ImportLine.begins : Begins ImportLine.yield (· == .importWord) := fun _ => ⟨_, _, rfl, rfl⟩

/-- A unit has one derivation at most. -/
theorem Unit.yield_injective {unit unit' : Unit} (same : unit.yield = unit'.yield) :
    unit = unit' := by
  have stops (items : List Item) : Avoids (.importWord :: ImportLine.continuing)
      (items.flatMap Item.yield) := by
    rw [← List.append_nil (items.flatMap Item.yield)]
    exact Item.begins.avoids_flatMap (by decide) (by simp)
  have avoids (items : List Item) : Avoids ImportLine.continuing (items.flatMap Item.yield) :=
    (stops items).mono fun _ => List.mem_cons_of_mem _
  have unopened (items : List Item) :
      ∀ kind ∈ (items.flatMap Item.yield).head?, (kind == Kind.importWord) = false := by
    intro kind next
    have apart := stops items kind next
    simp_all
  obtain ⟨imports, items⟩ := unit
  obtain ⟨imports', items'⟩ := unit'
  obtain ⟨rfl, behindImports⟩ := flatMap_determined ImportLine.begins
    (by simp [ImportLine.continuing]) (fun line _ => line.determined) (avoids items) (avoids items')
    (unopened items) (unopened items') same
  have whole : items.flatMap Item.yield ++ [] = items'.flatMap Item.yield ++ [] := by
    rw [behindImports]
  obtain ⟨rfl, -⟩ := flatMap_determined Item.begins (by decide)
    (fun item _ => item.determined) (by simp) (by simp) (by simp) (by simp) whole
  rfl

end UnitCompiler.Derivation
