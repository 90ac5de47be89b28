import UnitCompiler.Proofs.Dotted
import UnitCompiler.Proofs.InliningHygiene

/-! Instances of printing functions. They are numbered by a counter that all share, so no two of them have a
parameter name in common, and no source text can spell one. A call with arguments that read no such name
is therefore inlined without a trace of the parameters. -/

namespace UnitCompiler

namespace Intrinsic

/-! ## Names -/

theorem dollar_notMem_repr (number : Nat) : '$' ∉ number.repr.toList := by
  rw [Nat.toList_repr]
  intro inside
  have digit := Nat.isDigit_of_mem_toDigits (by decide) (by decide) inside
  contradiction

theorem toList_parameterName (number index : Nat) : (parameterName number index).toList =
    ['_', '_', 'p', '$'] ++ (number.repr.toList ++ '$' :: index.repr.toList) := by
  simp [parameterName_eq]

/-- A parameter's name tells the number of the instance and the place of the parameter. -/
theorem parameterName_inj {number other index place : Nat} :
    parameterName number index = parameterName other place ↔ number = other ∧ index = place := by
  constructor
  · intro same
    have texts := congrArg String.toList same
    rw [toList_parameterName, toList_parameterName, List.append_cancel_left_eq] at texts
    -- The number ends at the first dollar sign behind it.
    have cut : Text.splitFirst '$' (number.repr.toList ++ '$' :: index.repr.toList) =
        some (number.repr.toList, index.repr.toList) :=
      Text.splitFirst_eq_some_iff.mpr ⟨rfl, dollar_notMem_repr number⟩
    rw [Text.splitFirst_eq_some_iff.mpr ⟨texts, dollar_notMem_repr other⟩] at cut
    obtain ⟨digits, -⟩ := Prod.mk.inj (Option.some.inj cut)
    have values := congrArg (fun text => Nat.ofDigitChars 10 text 0) digits
    simp only [Nat.toList_repr, Nat.ofDigitChars_ten_toDigits] at values
    subst values
    exact ⟨rfl, parameterName_injective other same⟩
  · rintro ⟨rfl, rfl⟩
    rfl

/-- No source text spells the name of a parameter as an identifier. -/
theorem parameterName_unspelled {source : String} {tokens : List Token}
    (lexed : Token.tokenize source = .ok tokens) {token : Token} (member : token ∈ tokens)
    (number index : Nat) : token.kind ≠ .identifier (parameterName number index) := by
  intro same
  exact parameterName_marked number index ((Token.tokensFrom_worded lexed token member).clean _ same)

/-! ## Numbers -/

abbrev Demand := Intrinsic × List TypeRef

/-- Instances that are made one after the other. The number of the last one is kept in 64 bits. -/
def issue (last : UInt64) : List Demand → List MethodDeclaration
  | [] => []
  | (i, types) :: rest => i.instantiate (last + 1).toNat types :: issue (last + 1) rest

def numbered (demand : Demand × Nat) : MethodDeclaration :=
  demand.1.1.instantiate demand.2 demand.1.2

/-- Until the counter wraps around, the numbers follow each other. -/
theorem issue_eq {last : UInt64} {demands : List Demand}
    (room : last.toNat + demands.length < UInt64.size) :
    issue last demands = (demands.zipIdx (last.toNat + 1)).map numbered := by
  induction demands generalizing last with
  | nil => rfl
  | cons demand rest ih =>
    rw [List.length_cons] at room
    have next : (last + 1).toNat = last.toNat + 1 := by
      rw [UInt64.toNat_add, UInt64.toNat_one]
      exact Nat.mod_eq_of_lt (Nat.lt_of_le_of_lt (by omega) room)
    rw [issue, ih (by omega), next, List.zipIdx_cons, List.map_cons, numbered]

def parameterNames (m : MethodDeclaration) : List String := m.parameters.map Parameter.name

theorem parameterNames_numbered (demand : Demand × Nat) :
    parameterNames (numbered demand) = (List.range demand.1.2.length).map (parameterName demand.2) := by
  apply List.ext_getElem?
  intro place
  simp only [parameterNames, numbered, instantiate, List.getElem?_map, List.getElem?_mapIdx]
  cases found : demand.1.2[place]? with
  | none => simp [List.getElem?_eq_none_iff.mp found]
  | some type => simp [(List.getElem?_eq_some_iff.mp found).1]

/-- Instances of different numbers share no name. -/
theorem parameterNames_nodup (demands : List Demand) (first : Nat) :
    ((demands.zipIdx first).flatMap fun demand => parameterNames (numbered demand)).Nodup := by
  simp only [parameterNames_numbered]
  rw [List.nodup_flatMap]
  constructor
  · intro demand _
    exact List.nodup_range.map (parameterName_injective demand.2)
  · have numbers : ((demands.zipIdx first).map Prod.snd).Nodup := by
      rw [List.zipIdx_map_snd]
      exact List.nodup_range'
    refine (List.pairwise_map.mp numbers).imp fun different name here there => ?_
    obtain ⟨index, -, rfl⟩ := List.mem_map.mp here
    obtain ⟨place, -, same⟩ := List.mem_map.mp there
    exact different (parameterName_inj.mp same).1.symm

end Intrinsic

namespace Emission

open Intrinsic (Demand)

def instantiateAll : List Demand → Emit (List MethodDeclaration)
  | [] => pure []
  | (i, types) :: rest => do
    let number ← nextInstance
    let others ← instantiateAll rest
    pure (i.instantiate number types :: others)

theorem instantiateAll_eq (demands : List Demand) (ledger : Ledger) :
    ((instantiateAll demands).run ledger).1 = (demands.zipIdx ledger.instances).map Intrinsic.numbered := by
  induction demands generalizing ledger with
  | nil => rfl
  | cons demand rest ih =>
    have step : ((instantiateAll (demand :: rest)).run ledger).1 =
        demand.1.instantiate ledger.instances demand.2 ::
          ((instantiateAll rest).run { ledger with instances := ledger.instances + 1 }).1 := rfl
    rw [step, ih, List.zipIdx_cons, List.map_cons, Intrinsic.numbered]

end Emission

/-- As long as fewer instances are made than the counter has values, they are numbered from one on, the
names of all their parameters are different, and no source text can spell one. A call of a printing function
whose arguments read no variable with a dollar sign in its name is inlined, whatever the number of its
instance, into one invocation on the stream with the arguments themselves. -/
theorem instances_hygienic (demands : List Intrinsic.Demand) (few : demands.length < UInt64.size) :
    let made := Intrinsic.issue 0 demands
    made = ((Emission.instantiateAll demands).run {}).1 ∧
    made.map Intrinsic.parameterNames = (demands.zipIdx 1).map (fun demand =>
      (List.range demand.1.2.length).map (Intrinsic.parameterName demand.2)) ∧
    (made.flatMap Intrinsic.parameterNames).Nodup ∧
    (∀ name ∈ made.flatMap Intrinsic.parameterNames, ∀ source tokens, Token.tokenize source = .ok tokens →
      ∀ token ∈ tokens, token.kind ≠ .identifier name) ∧
    ∀ number name i arguments, Intrinsic.ofName? name = some i →
      (∀ argument ∈ arguments, ∀ x, '$' ∈ x.toList → argument.reads x = 0) →
        Inlining.inlineIntrinsic Inlining.inline number name arguments =
          .ok [.invoke .virtual (some (.stream i.stream)) printStream i.streamMethod
            ⟨.void, arguments.map Instruction.typeRef⟩ arguments] := by
  intro made
  have counted : made = (demands.zipIdx 1).map Intrinsic.numbered :=
    Intrinsic.issue_eq (by rwa [UInt64.toNat_zero, Nat.zero_add])
  have names : made.map Intrinsic.parameterNames = (demands.zipIdx 1).map (fun demand =>
      (List.range demand.1.2.length).map (Intrinsic.parameterName demand.2)) := by
    rw [counted, List.map_map]
    exact List.map_congr_left fun demand _ => Intrinsic.parameterNames_numbered demand
  refine ⟨counted.trans (Emission.instantiateAll_eq demands {}).symm, names, ?_, ?_, ?_⟩
  · rw [counted, List.flatMap_map]
    exact Intrinsic.parameterNames_nodup demands 1
  · intro name member source tokens lexed token inside
    rw [List.flatMap_def, names] at member
    obtain ⟨own, among, there⟩ := List.mem_flatten.mp member
    obtain ⟨demand, -, rfl⟩ := List.mem_map.mp among
    obtain ⟨index, -, rfl⟩ := List.mem_map.mp there
    exact Intrinsic.parameterName_unspelled lexed inside demand.2 index
  · intro number name i arguments known unread
    have plain (argument : Instruction) (member : argument ∈ arguments) : argument.Plain :=
      fun x marked => unread argument member x (not_not.mp marked)
    simp only [Inlining.inlineIntrinsic, known]
    exact Inlining.inline_instantiate i number plain

/-- Two instances for the same types, and one for others between them. -/
def mixedDemands : List Intrinsic.Demand :=
  [(.println, [.int, .string]), (.eprint, [.int]), (.println, [.int, .string])]

/-- Arguments one of which declares a parameter of the first instance, but none reads one. -/
def declaringArguments : List Instruction :=
  [.access "x" .int, .invoke .static none (.named "m.A") "f" ⟨.string, [.void, .int]⟩
    [.declare "__p$1$0" .int (.access "x" .int), .access "x" .int]]

theorem mixed_hygienic : mixedDemands.length < UInt64.size ∧
    ["__p$1$0", "__p$1$1", "__p$2$0", "__p$3$0", "__p$3$1"].Nodup ∧
    (∃ tokens, Token.tokenize "__p 1 _0" = .ok tokens ∧
      ∀ token ∈ tokens, token.kind ≠ .identifier "__p$1$0") ∧
    Intrinsic.ofName? "eprintln" = some .eprintln ∧
    (∀ argument ∈ declaringArguments, ∀ x, '$' ∈ x.toList → argument.reads x = 0) ∧
    Inlining.inlineIntrinsic Inlining.inline 1 "eprintln" declaringArguments =
      .ok [.invoke .virtual (some (.stream .err)) printStream "println" ⟨.void, [.int, .string]⟩
        declaringArguments] := by
  have few : mixedDemands.length < UInt64.size := by decide
  have unread : ∀ argument ∈ declaringArguments, ∀ x, '$' ∈ x.toList → argument.reads x = 0 := by
    intro argument member x dollar
    have apart : "x" ≠ x := by
      rintro rfl
      contradiction
    simp only [declaringArguments, List.mem_cons, List.not_mem_nil, or_false] at member
    rcases member with rfl | rfl <;>
      simp [Instruction.reads, Instruction.readsReceiver, Instruction.readsAll, apart]
  obtain ⟨-, names, distinct, unspelled, inlined⟩ := instances_hygienic mixedDemands few
  have spelled : (Intrinsic.issue 0 mixedDemands).flatMap Intrinsic.parameterNames =
      ["__p$1$0", "__p$1$1", "__p$2$0", "__p$3$0", "__p$3$1"] := by
    rw [List.flatMap_def, names]
    decide
  rw [spelled] at distinct unspelled
  obtain ⟨tokens, lexed⟩ : ∃ tokens, Token.tokenize "__p 1 _0" = .ok tokens := ⟨_, rfl⟩
  exact ⟨few, distinct, ⟨tokens, lexed, unspelled _ List.mem_cons_self _ tokens lexed⟩, rfl, unread,
    inlined 1 "eprintln" .eprintln declaringArguments rfl unread⟩

end UnitCompiler
