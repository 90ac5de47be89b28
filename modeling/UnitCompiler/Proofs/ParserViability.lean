import UnitCompiler.Proofs.Acceptance
import UnitCompiler.Proofs.TokenLayout
import UnitCompiler.Proofs.TokenSplicing

/-! Errors stand where a text can no longer become a unit. The tokens before the one that the parser fails
at are the beginning of a unit, whose end can be written down; with that token they are the beginning of
none. -/

namespace UnitCompiler

namespace Token

def Piece.line (kind : Kind) : Piece := ⟨['\n'], kind, kind.chars⟩

theorem written_lines {kinds : List Kind} (writable : ∀ kind ∈ kinds, kind.Writable) :
    Written (kinds.map Piece.line) := by
  constructor
  · exact List.forall_mem_map.mpr fun kind _ => .blank (by decide) .nil
  · exact List.forall_mem_map.mpr fun kind member => (writable kind member).spelled
  · intro p member
    obtain ⟨kind, -, rfl⟩ := List.mem_map.mp (List.mem_of_mem_tail member)
    exact List.cons_ne_nil _ _

/-- Behind some of its first tokens a text can be continued with whatever can be written. -/
theorem tokenize_continue {source : String} {before behind : List Token}
    (lexed : tokenize source = .ok (before ++ behind)) (cut : behind ≠ []) {kinds : List Kind}
    (writable : ∀ kind ∈ kinds, kind.Writable) :
    ∃ (text : String) (added : List Token) (last : Token),
      tokenize text = .ok (before ++ (added ++ [last])) ∧ added.map Token.kind = kinds ∧
      last.kind = .endOfInput := by
  obtain ⟨pieces, tail, -, laid, -, tokens⟩ := laid_of_tokensAt lexed
  rw [← List.dropLast_concat_getLast cut, ← List.append_assoc] at tokens
  obtain ⟨same, -⟩ := List.append_inj' tokens rfl
  obtain ⟨front, others, rfl, rfl, -⟩ := placed_eq_append same.symm
  have own : Laid front ['\n'] :=
    (((laid_append front others tail).mp laid).1.shorten List.nil_prefix).line []
  have written := written_lines writable
  have first := tokensAt_whole own (.trivia (.blank (by decide) .nil)) .start
  have added := tokensAt_whole (written.laid fun _ => shuns_nil _) (.trivia .nil)
    (Position.start.advance (layout front ++ ['\n']))
  have joined := tokensAt_join first (by simp) (layout (kinds.map Piece.line) ++ [])
  rw [added, List.dropLast_concat] at joined
  rw [← String.toList_ofList (l := layout front ++ ['\n'] ++ _), ← tokenize_eq] at joined
  refine ⟨_, _, _, joined, (placed_kinds _ _).trans ?_, rfl⟩
  rw [List.map_map]
  exact List.map_id kinds

end Token

namespace Tree

open Token (Kind tokenize)

theorem fillers_writable : ∀ kind ∈ fillers, kind.Writable := by
  have free : Token.FreeWord "x" := ⟨by decide, by decide⟩
  simp only [fillers, List.forall_mem_cons]
  exact ⟨free, trivial, trivial, trivial, trivial, trivial, trivial, trivial, by simp⟩

/-- The first end of input. -/
theorem Ends.first {list : List Token} (ends : Ends list) :
    ∃ (body : List Token) (last : Token) (rest : List Token), list = body ++ last :: rest ∧
      last.kind = .endOfInput ∧ ∀ token ∈ body, token.kind ≠ .endOfInput := by
  obtain ⟨before, after, whole, free⟩ := List.eq_append_cons_of_mem (List.mem_map.mpr ends)
  obtain ⟨body, others, rfl, rfl, behind⟩ := List.map_eq_append_iff.mp whole
  obtain ⟨last, rest, rfl, ended, -⟩ := List.map_eq_cons_iff.mp behind
  exact ⟨body, last, rest, rfl, ended, fun token member same => free (List.mem_map.mpr ⟨token, member, same⟩)⟩

/-- What is accepted is told by the kinds of the tokens. -/
theorem unit_of_kinds {list other : List Token} {tree : UnitTree} (ends : Ends list)
    (read : unit list = .ok tree) (same : other.map Token.kind = list.map Token.kind) :
    ∃ tree', unit other = .ok tree' := by
  obtain ⟨body, last, rest, rfl, ended, inside⟩ := ends.first
  rcases unit_outcome body last inside ended with ⟨d, -, yields, -, -⟩ | ⟨token, -, expected, refused⟩
  · rw [List.map_append, List.map_cons] at same
    obtain ⟨front, behind, rfl, first, others⟩ := List.map_eq_append_iff.mp same
    obtain ⟨tree', read'⟩ := unitRow_takes d front behind (first.trans yields.symm)
      ⟨rest.map Token.kind, by rw [others, ended]⟩
    exact ⟨tree', by rw [unit_eq, read']; rfl⟩
  · rw [refused rest] at read
    contradiction

/-- The parser fails at the first token with which no unit can begin any more: the tokens before it can
be continued by a text to those of a unit, and no tokens of a unit begin with them and with it. -/
theorem unit_fails_at_first_unviable {source : String} {tokens : List Token} {error : SourceError}
    (lexed : tokenize source = .ok tokens) (failed : unit tokens = .error error) :
    ∃ (before : List Token) (token : Token) (behind : List Token), tokens = before ++ token :: behind ∧
      error.place = ⟨token.span.startLine, token.span.start⟩ ∧
      (∃ (text : String) (more : List Token) (tree : UnitTree),
        tokenize text = .ok (before ++ more) ∧ unit (before ++ more) = .ok tree) ∧
      (∀ more tree, unit (before ++ token :: more) ≠ .ok tree) ∧
      ∀ list tree, Ends list → (before ++ [token]).map Token.kind <+: list.map Token.kind →
        unit list ≠ .ok tree := by
  obtain ⟨body, last, rfl, ended, inside⟩ := Token.tokenize_ends lexed
  have ends : Ends (body ++ [last]) := ⟨last, by simp, ended⟩
  cases unitRow_looks _ ends with
  | stops taken next behind tree whole _ _ same =>
    rw [whole, unit_eq, same (taken.length + 1) behind (Nat.lt_succ_self _)] at failed
    contradiction
  | fails before token behind expected whole same viable =>
    have stuck (more : List Token) : unit (before ++ token :: more) = .error (misplaced expected token) := by
      rw [unit_eq, same (before.length + 1) more (Nat.lt_succ_self _)]
      rfl
    rw [whole] at lexed failed
    rw [stuck behind] at failed
    cases failed
    refine ⟨before, token, behind, whole, rfl, ?_, fun more tree read => ?_,
      fun list tree ends begins read => ?_⟩
    · obtain ⟨d, more, yielded, filled⟩ := viable
      obtain ⟨text, added, stop, lexed, kinds, ended⟩ := Token.tokenize_continue lexed (List.cons_ne_nil _ _)
        fun kind member => fillers_writable kind (filled member)
      obtain ⟨tree, read⟩ := unitRow_takes d (before ++ added) [stop]
        (by rw [List.map_append, kinds, yielded]) ⟨[], by simp [ended]⟩
      refine ⟨text, added ++ [stop], tree, lexed, ?_⟩
      rw [← List.append_assoc, unit_eq, read]
      rfl
    · rw [stuck more] at read
      contradiction
    · obtain ⟨kinds, begun⟩ := begins
      obtain ⟨front, more, rfl, first, -⟩ := List.map_eq_append_iff.mp begun.symm
      have same : (before ++ token :: more).map Token.kind = (front ++ more).map Token.kind := by
        rw [List.append_cons, List.map_append, ← first, List.map_append]
      obtain ⟨tree', read'⟩ := unit_of_kinds ends read same
      rw [stuck more] at read'
      contradiction

/-- A list of parameters goes on behind a name, but not with another name. -/
theorem unit_fails_at_first_unviable_name :
    let tokens : List Token := [⟨.fnWord, ⟨1, 1, 0, 1⟩⟩, ⟨.identifier "f", ⟨1, 1, 3, 3⟩⟩,
      ⟨.openParen, ⟨1, 1, 4, 4⟩⟩, ⟨.identifier "a", ⟨1, 1, 5, 5⟩⟩, ⟨.identifier "b", ⟨2, 2, 7, 7⟩⟩,
      ⟨.endOfInput, ⟨2, 2, 8, 8⟩⟩]
    tokenize "fn f(a\nb" = .ok tokens ∧
    unit tokens = .error ⟨.unexpectedToken (.token .closeParen) (.identifier "b"), ⟨2, 7⟩⟩ ∧
    ∃ (before : List Token) (token : Token) (behind : List Token), tokens = before ++ token :: behind ∧
      (⟨2, 7⟩ : Position) = ⟨token.span.startLine, token.span.start⟩ ∧
      (∃ (text : String) (more : List Token) (tree : UnitTree),
        tokenize text = .ok (before ++ more) ∧ unit (before ++ more) = .ok tree) ∧
      ∀ more tree, unit (before ++ token :: more) ≠ .ok tree := by
  intro tokens
  have lexed : tokenize "fn f(a\nb" = .ok tokens := by decide +kernel
  have failed : unit tokens = .error ⟨.unexpectedToken (.token .closeParen) (.identifier "b"), ⟨2, 7⟩⟩ := rfl
  obtain ⟨before, token, behind, whole, place, viable, stuck, -⟩ := unit_fails_at_first_unviable lexed failed
  exact ⟨lexed, failed, before, token, behind, whole, place, viable, stuck⟩

end Tree

end UnitCompiler
