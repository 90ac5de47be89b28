import UnitCompiler.Proofs.TableSteps

/-! Every table comes to rest. A lookup is priced by the announcements that it may still hear, a call by its
one answer. Every step takes something off the price, which is within the budget from the outset. -/

namespace UnitCompiler

/-! ## Lookups -/

namespace Phase

variable {α : Type}

/-- How many steps a lookup has left, when there are so many announcements in all. -/
def load (total : Nat) : Phase α → Nat
  | .starting => 3 * total + 9
  | .opening => 3 * total + 8
  | .missed => 3 * total + 7
  | .subscribing => 3 * total + 6
  | .listening cursor => 3 * (total - cursor) + 5
  | .confirming cursor => 3 * (total - cursor) + 4
  | .waiting cursor => 3 * (total - cursor) + 3
  | .dismissed _ => 2
  | .closing _ => 1
  | .settled _ | .closed | .cancelled => 0

theorem load_le (total : Nat) (phase : Phase α) : phase.load total ≤ 3 * total + 9 := by
  cases phase <;> simp only [load] <;> omega

/-- A lookup that falls behind has passed an announcement for each round. -/
theorem Next.load {announced total : Nat} {phase later : Phase α} (next : Next announced phase later)
    (bound : announced ≤ total) : later.load total < phase.load total := by
  cases next <;> simp only [Phase.load] <;> omega

end Phase

namespace Table

variable {α : Type} [Named α] {t t' : Table α} {total : Nat}

/-- What the lookups have left, and the calls to be served. A letter about a lookup is part of what the
lookup has left. -/
def load (t : Table α) (total : Nat) : Nat :=
  (t.lookups.map fun l => l.phase.load total).sum + t.outstanding.length

/-- The announcements made, and those that calls may lead to. -/
def span (t : Table α) : Nat := t.events.length + t.outstanding.length

theorem setPhase_load {index : Nat} {l : Lookup α} (there : t.lookups[index]? = some l)
    {phase : Phase α} (next : Phase.Next t.events.length l.phase phase)
    (bound : t.events.length ≤ total) :
    ((t.setPhase index phase).lookups.map fun l => l.phase.load total).sum <
      (t.lookups.map fun l => l.phase.load total).sum := by
  have changed := sum_modify (fun l : Lookup α => l.phase.load total) (fun l => { l with phase }) there
  have less := next.load bound
  dsimp only at changed
  simp only [setPhase]
  omega

theorem load_le (t : Table α) (total : Nat) :
    t.load total ≤ (3 * total + 9) * t.lookups.length + t.mailbox.length := by
  have lookups := sum_le_mul (f := fun l : Lookup α => l.phase.load total) (g := fun _ => 1)
    (fun l => by simpa using l.phase.load_le total) t.lookups
  have calls := List.length_filterMap_le Letter.call? t.mailbox
  simp only [List.map_const', List.sum_replicate_nat, Nat.mul_one] at lookups
  exact Nat.add_le_add lookups calls

theorem span_le (t : Table α) : t.span ≤ t.events.length + t.mailbox.length :=
  Nat.add_le_add_left (List.length_filterMap_le Letter.call? t.mailbox) _

theorem advance_load {index : Nat} (advanced : t.advance? index = some t')
    (bound : t.events.length ≤ total) : t'.load total < t.load total ∧ t'.span = t.span := by
  obtain ⟨l, phase, there, -, next, rfl⟩ := advance_next advanced
  have less := setPhase_load there next bound
  have silent : (phase.awaited index).toList.filterMap Letter.call? = [] := by
    cases phase <;> rfl
  simp only [load, span, outstanding, List.filterMap_append, silent, List.append_nil]
  exact ⟨Nat.add_lt_add_right less _, rfl⟩

theorem announcements_length (request : Request α) (reply : Reply α) :
    (announcements request reply).length ≤ 1 := by
  unfold announcements
  split <;> simp

theorem serve_load (paired : t.Paired) (served : t.serve? = some t')
    (bound : t.events.length ≤ total) : t'.load total < t.load total ∧ t'.span ≤ t.span := by
  rcases serve_next paired served with
    ⟨caller, request, rest, first, rfl⟩ |
    ⟨letter, rest, index, l, phase, first, about, there, next, -, rfl⟩
  · have news := announcements_length request (t.registry.serve request).1
    simp only [load, span, outstanding, answered, first, List.filterMap_cons, Letter.call?,
      List.length_cons, List.length_append]
    omega
  · have less := setPhase_load there next bound
    have silent : letter.call? = none := by
      cases letter with
      | call caller request => contradiction
      | check | subscribe => rfl
    simp only [load, span, outstanding, first, List.filterMap_cons, silent]
    exact ⟨Nat.add_lt_add_right less _, Nat.le_refl _⟩

theorem Step.load (step : t.Step t') (paired : t.Paired) (bound : t.events.length ≤ total) :
    t'.load total < t.load total ∧ t'.span ≤ t.span := by
  cases step with
  | serve t' served => exact serve_load paired served bound
  | advance index t' advanced =>
    obtain ⟨less, same⟩ := advance_load advanced bound
    exact ⟨less, same.le⟩

theorem take_load {caller : Nat} {reply : Reply α} (taken : t.takeReply? caller = some (reply, t'))
    (total : Nat) : t'.load total = t.load total ∧ t'.span = t.span := by
  obtain ⟨-, -, replies, rfl⟩ := takeReply_frame taken
  exact ⟨rfl, rfl⟩

theorem post_load (sound : t.Sound) (caller : Nat) (request : Request α) (total : Nat) :
    (t.post caller request).load total = t.load total + 1 ∧
      (t.post caller request).span = t.span + 1 := by
  have more := outstanding_post t sound.running caller request
  simp only [load, span, more, List.length_append, List.length_singleton]
  rw [post, if_pos sound.running]
  exact ⟨(Nat.add_assoc _ _ _).symm, (Nat.add_assoc _ _ _).symm⟩

theorem seek_load (t : Table α) (owner : String) (signature : Signature α) (total : Nat) :
    (t.seek owner signature).load total ≤ t.load total + (3 * total + 9) ∧
      (t.seek owner signature).span = t.span := by
  refine ⟨?_, rfl⟩
  have one := Phase.load_le total (if t.running then .starting else .closed : Phase α)
  simp only [load, seek, outstanding, List.map_append, List.sum_append, List.map_singleton,
    List.sum_singleton]
  omega

/-! ## Rest -/

/-- The budget covers the load. -/
theorem load_le_budget (t : Table α) : t.load t.span ≤ t.budget := by
  have priced := t.load_le t.span
  have announced := t.span_le
  unfold budget
  rw [Nat.mul_right_comm]
  generalize cost : 8 * (t.mailbox.length + t.events.length + 4) = price
  have lookups : (3 * t.span + 9) * t.lookups.length ≤ price * t.lookups.length :=
    Nat.mul_le_mul_right _ (by omega)
  have letters : 1 * t.mailbox.length ≤ price * t.mailbox.length := Nat.mul_le_mul_right _ (by omega)
  rw [Nat.one_mul] at letters
  rw [Nat.mul_add, Nat.mul_add]
  omega

theorem next?_step (found : t.next? = some t') : t.Step t' := by
  unfold next? at found
  split at found
  · next served =>
    cases found
    exact .serve t' served
  · obtain ⟨index, -, advanced⟩ := List.exists_of_findSome?_eq_some found
    exact .advance index t' advanced

/-- What every step keeps holds of a table that has settled, and the table is at rest. -/
theorem settle_rests (paired : t.Paired) {P : Table α → Prop} (start : P t)
    (keeps : ∀ {u u' : Table α}, P u → u.Step u' → P u') : P t.settle ∧ t.settle.Quiescent := by
  have run : (P t.settle ∧ t.settle.Paired ∧ t.settle.span ≤ t.span) ∧ t.settle.next? = none := by
    apply runSteps_rests (fun u : Table α => u.load t.span) (fun u => P u ∧ u.Paired ∧ u.span ≤ t.span)
    · rintro u next ⟨held, paired, bound⟩ found
      have step := next?_step found
      have announced : u.events.length ≤ t.span := Nat.le_trans (Nat.le_add_right ..) bound
      obtain ⟨less, within⟩ := step.load paired announced
      exact ⟨⟨keeps held step, step.paired paired, Nat.le_trans within bound⟩, less⟩
    · exact ⟨start, paired, Nat.le_refl _⟩
    · exact t.load_le_budget
  exact ⟨run.1.1, t.settle.next?_eq_none_iff.mp run.2⟩

/-- The only call is still to be served, or it has got the answer of the registry at the start. -/
def Attends (t : Table α) (caller : Nat) (request : Request α) (u : Table α) : Prop :=
  (u.registry = t.registry ∧ u.outstanding = [(caller, request)] ∧ u.answers caller = []) ∨
    (u.outstanding = [] ∧ u.answers caller = [(t.registry.serve request).1])

theorem Attends.step {caller : Nat} {request : Request α} {u u' : Table α}
    (attends : t.Attends caller request u) (step : u.Step u') : t.Attends caller request u' := by
  cases step with
  | serve u' served =>
    rcases serve_frame served with
      ⟨other, call, rest, first, rfl⟩ | ⟨letter, rest, lookups, first, silent, rfl, -⟩
    · rcases attends with ⟨same, only, free⟩ | ⟨idle, -⟩
      · simp only [outstanding, first, List.filterMap_cons, Letter.call?, List.cons.injEq,
          Prod.mk.injEq] at only
        obtain ⟨⟨rfl, rfl⟩, rest⟩ := only
        refine .inr ⟨rest, ?_⟩
        simp only [answers, List.map_eq_nil_iff] at free
        simp [answers, answered, free, same]
      · simp [outstanding, first, Letter.call?] at idle
    · simpa [Attends, outstanding, answers, first, silent] using attends
  | advance index u' advanced =>
    obtain ⟨phase, letters, rfl, silent⟩ := advance_frame advanced
    simpa [Attends, outstanding, answers, silent, setPhase] using attends

/-- A caller with no other request gets the answer that the registry has for it. -/
theorem ask_answers (sound : t.Sound) (paired : t.Paired) {caller : Nat} (request : Request α)
    (idle : t.outstanding = []) (free : t.answers caller = []) :
    (t.ask caller request).1 = (t.registry.serve request).1 ∧
      (t.ask caller request).2.answers caller = [] := by
  have posted : t.Attends caller request (t.post caller request) := by
    refine .inl ⟨?_, by simp [sound.running, idle], by simpa [answers, sound.running] using free⟩
    simp [post, sound.running, send]
  have change : t.Change (fun _ => True) (t.post caller request) := .post caller request trivial
  obtain ⟨attends, empty, -⟩ := settle_rests (change.paired sound paired) posted Attends.step
  rcases attends with ⟨-, waiting, -⟩ | ⟨-, told⟩
  · simp [outstanding, empty] at waiting
  · obtain ⟨reply, later, taken⟩ := exists_takeReply (told ▸ List.cons_ne_nil _ _)
    obtain ⟨own, -, -⟩ := takeReply_frame taken
    rw [told, List.cons.injEq] at own
    simp only [ask, taken, Option.getD_some]
    exact ⟨own.1.symm, own.2.symm⟩

end Table

end UnitCompiler
