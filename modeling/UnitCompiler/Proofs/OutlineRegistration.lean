import UnitCompiler.Proofs.TableService
import UnitCompiler.Tables

/-! How an outline gets into the tables: one registration after another, each confirmed before the
next one. What goes to which table, and when, is a plan; a step of a task at a table that serves it is
the next entry of the plan being asked for or confirmed. -/

namespace UnitCompiler

/-- What an outline registers with a table, by the number of registrations before it. -/
abbrev Plan (α : Type) := Outline → Nat → Option (String × α)

namespace Outline

def typePlan : Plan TypeDeclaration
  | o, 0 => some (o.owner, o.type)
  | _, _ + 1 => none

def methodPlan : Plan MethodDeclaration
  | _, 0 => none
  | o, n + 1 => (o.methods[n]?).map (o.owner, ·)

def size (o : Outline) : Nat := o.methods.length + 1

end Outline

variable {α : Type}

/-- What the first registrations of an outline leave in a table. -/
def Plan.entries (plan : Plan α) (o : Outline) (count : Nat) : Log α :=
  (List.range count).flatMap fun n => (plan o n).toList

theorem Plan.entries_succ (plan : Plan α) (o : Outline) (count : Nat) :
    entries plan o (count + 1) = entries plan o count ++ (plan o count).toList := by
  simp [entries, List.range_succ]

namespace Outline

theorem typePlan_entries (o : Outline) : typePlan.entries o o.size = [(o.owner, o.type)] := by
  simp [Plan.entries, size, List.range_succ_eq_map, List.flatMap_map, typePlan]

theorem methodPlan_entries (o : Outline) :
    methodPlan.entries o o.size = o.methods.map fun d => (o.owner, d) := by
  have places (list : List MethodDeclaration) :
      (List.range list.length).flatMap (fun n => (list[n]?).toList) = list := by
    induction list with
    | nil => rfl
    | cons first rest ih => simpa [List.range_succ_eq_map, List.flatMap_map] using ih
  have all := congrArg (List.map fun d => (o.owner, d)) (places o.methods)
  simpa [Plan.entries, size, List.range_succ_eq_map, List.flatMap_map, methodPlan, List.map_flatMap,
    Option.toList_map] using all

end Outline

namespace Registering

/-- Nothing is on its way once all registrations are confirmed. -/
def Valid (r : Registering) : Prop :=
  r.confirmed ≤ r.outline.size ∧ (r.posted = true → r.confirmed < r.outline.size)

/-- The next registration is put to a table, or the one on its way is confirmed. -/
def next (r : Registering) : Registering :=
  if r.posted then { r with confirmed := r.confirmed + 1, posted := false }
  else { r with posted := true }

@[simp] theorem next_outline (r : Registering) : r.next.outline = r.outline := by
  unfold next
  split <;> rfl

section

variable [Named α]

def pending (r : Registering) (plan : Plan α) : Option (Request α) :=
  if r.posted then (plan r.outline r.confirmed).map fun (owner, d) => .register owner d else none

inductive Turn (r : Registering) (plan : Plan α) (caller : Nat) (t : Table α) : Table α → Prop where
  | elsewhere (absent : plan r.outline r.confirmed = none) : Turn r plan caller t t
  | ask (owner : String) (declaration : α)
      (planned : plan r.outline r.confirmed = some (owner, declaration)) (free : r.posted = false) :
      Turn r plan caller t (t.post caller (.register owner declaration))
  | hear (owner : String) (declaration : α)
      (planned : plan r.outline r.confirmed = some (owner, declaration)) (waiting : r.posted = true)
      (t' : Table α) (taken : t.takeReply? caller = some (.registered, t')) :
      Turn r plan caller t t'

def Refused (r : Registering) (plan : Plan α) (caller : Nat) (t : Table α) : Prop :=
  ∃ request reply t', r.pending plan = some request ∧
    t.takeReply? caller = some (reply, t') ∧ reply ≠ .registered

theorem Turn.sound {r : Registering} {plan : Plan α} {caller : Nat} {t t' : Table α}
    (turn : r.Turn plan caller t t') (sound : t.Sound) : t'.Sound := by
  cases turn with
  | elsewhere absent => exact sound
  | ask owner declaration planned free => exact sound.post caller _
  | hear owner declaration planned waiting t' taken => exact sound.takeReply caller _ taken

/-- Neither asking nor hearing changes what is registered or looked up. -/
theorem Turn.frame {r : Registering} {plan : Plan α} {caller : Nat} {t t' : Table α}
    (turn : r.Turn plan caller t t') (sound : t.Sound) :
    t'.registry = t.registry ∧ t'.events = t.events ∧ t'.lookups = t.lookups := by
  cases turn with
  | elsewhere absent => exact ⟨rfl, rfl, rfl⟩
  | ask owner declaration planned free => simp [Table.post, sound.running, Table.send]
  | hear owner declaration planned waiting t' taken =>
    obtain ⟨-, -, replies, rfl⟩ := Table.takeReply_frame taken
    exact ⟨rfl, rfl, rfl⟩

theorem Turn.serves {r : Registering} {plan : Plan α} {caller : Nat} {t t' : Table α}
    {agenda : Nat → Option (Request α)} {confirmed : Nat → Log α} (earlier : Log α)
    (turn : r.Turn plan caller t t') (sound : t.Sound) (serves : t.Serves agenda confirmed)
    (asked : agenda caller = r.pending plan)
    (known : confirmed caller = earlier ++ plan.entries r.outline r.confirmed) :
    t'.Serves (Function.update agenda caller (r.next.pending plan))
      (Function.update confirmed caller
        (earlier ++ plan.entries r.next.outline r.next.confirmed)) := by
  cases turn with
  | elsewhere absent =>
    have idle : r.next.pending plan = agenda caller ∧
        earlier ++ plan.entries r.next.outline r.next.confirmed = confirmed caller := by
      rw [asked, known]
      cases waiting : r.posted <;> simp [next, pending, waiting, absent, Plan.entries_succ]
    rw [idle.1, idle.2, Function.update_eq_self, Function.update_eq_self]
    exact serves
  | ask owner declaration planned free =>
    have posted := serves.post sound.running caller (.register owner declaration)
      (by simp [asked, pending, free])
    have same : earlier ++ plan.entries r.next.outline r.next.confirmed = confirmed caller := by
      simp [next, free, known]
    rw [same, Function.update_eq_self]
    simpa [next, pending, free, planned] using posted
  | hear owner declaration planned waiting t' taken =>
    have posted : agenda caller = some (.register owner declaration) := by
      simp [asked, pending, waiting, planned]
    have heard := (serves.take posted taken).1
    simpa [next, pending, waiting, planned, known, Plan.entries_succ, Request.entries] using heard

/-- Whoever has a registration with a table that serves it gets it confirmed. -/
theorem not_refused {r : Registering} {plan : Plan α} {caller : Nat} {t : Table α}
    {agenda : Nat → Option (Request α)} {confirmed : Nat → Log α}
    (serves : t.Serves agenda confirmed) (asked : agenda caller = r.pending plan) :
    ¬ r.Refused plan caller t := by
  rintro ⟨request, reply, t', posted, taken, other⟩
  have confirms := (serves.take (asked.trans posted) taken).2.2.1
  unfold pending at posted
  split at posted
  · obtain ⟨⟨owner, declaration⟩, -, rfl⟩ := Option.map_eq_some_iff.mp posted
    exact other (confirms owner declaration rfl)
  · contradiction

end

theorem next_valid {r : Registering} (valid : r.Valid) (unfinished : r.confirmed < r.outline.size) :
    r.next.Valid := by
  unfold next
  split
  · exact ⟨unfinished, by simp⟩
  · exact ⟨valid.1, fun _ => unfinished⟩

/-- An answer that lets a task go on is a confirmation. -/
theorem heed_continuing {r next : Registering} {reply : Reply α}
    (heeded : r.heed reply = .continuing next) :
    reply = .registered ∧ next = { r with confirmed := r.confirmed + 1, posted := false } := by
  cases reply <;> simp_all [heed]

theorem heed_failed {r : Registering} {reply : Reply α} {error : DeclareError}
    (heeded : r.heed reply = .failed error) : reply ≠ .registered := by
  rintro rfl
  simp [heed] at heeded

theorem heed_finished {r : Registering} {reply : Reply α} {o : Outline} :
    r.heed reply ≠ .finished o := by
  cases reply <;> simp [heed]

/-- A step that goes on takes a turn at both tables. -/
theorem step_continuing {r next : Registering} {caller : Nat} {t t' : Tables} (valid : r.Valid)
    (step : r.step? caller t = some (.continuing next, t')) :
    next = r.next ∧ r.confirmed < r.outline.size ∧
      r.Turn Outline.typePlan caller t.types t'.types ∧
      r.Turn Outline.methodPlan caller t.methods t'.methods := by
  unfold step? at step
  split at step
  · next first free =>
    cases step
    refine ⟨by simp [Registering.next, free], by simp [first, Outline.size], ?_, ?_⟩
    · exact .ask _ _ (by rw [first]; rfl) free
    · exact .elsewhere (by rw [first]; rfl)
  · next first waiting =>
    obtain ⟨⟨reply, types⟩, taken, heeded⟩ := Option.map_eq_some_iff.mp step
    obtain ⟨continues, rfl⟩ := Prod.mk.inj heeded
    obtain ⟨rfl, rfl⟩ := heed_continuing continues
    refine ⟨by simp [Registering.next, waiting], by simp [first, Outline.size], ?_, ?_⟩
    · exact .hear _ _ (by rw [first]; rfl) waiting types taken
    · exact .elsewhere (by rw [first]; rfl)
  · next n later free =>
    split at step
    · simp at step
    · next declaration there =>
      cases step
      obtain ⟨inside, -⟩ := List.getElem?_eq_some_iff.mp there
      refine ⟨by simp [Registering.next, free], by simp [later, Outline.size, inside], ?_, ?_⟩
      · exact .elsewhere (by rw [later]; rfl)
      · exact .ask _ _ (by rw [later]; simp [Outline.methodPlan, there]) free
  · next n later waiting =>
    obtain ⟨⟨reply, methods⟩, taken, heeded⟩ := Option.map_eq_some_iff.mp step
    obtain ⟨continues, rfl⟩ := Prod.mk.inj heeded
    obtain ⟨rfl, rfl⟩ := heed_continuing continues
    have inside := valid.2 waiting
    have there : n < r.outline.methods.length := by
      rw [later, Outline.size] at inside
      omega
    refine ⟨by simp [Registering.next, waiting], inside, ?_, ?_⟩
    · exact .elsewhere (by rw [later]; rfl)
    · refine .hear r.outline.owner r.outline.methods[n] ?_ waiting methods taken
      rw [later]
      simp [Outline.methodPlan, there]

/-- A task is done when all its registrations are confirmed. -/
theorem step_finished {r : Registering} {caller : Nat} {t t' : Tables} {o : Outline}
    (valid : r.Valid) (step : r.step? caller t = some (.finished o, t')) :
    o = r.outline ∧ t' = t ∧ r.posted = false ∧ r.confirmed = r.outline.size := by
  unfold step? at step
  split at step
  · simp at step
  · obtain ⟨⟨reply, types⟩, -, heeded⟩ := Option.map_eq_some_iff.mp step
    exact absurd (Prod.mk.inj heeded).1 heed_finished
  · next n later free =>
    split at step
    · next absent =>
      cases step
      have bound := valid.1
      have behind := List.getElem?_eq_none_iff.mp absent
      refine ⟨rfl, rfl, free, ?_⟩
      rw [later, Outline.size] at bound ⊢
      omega
    · simp at step
  · obtain ⟨⟨reply, methods⟩, -, heeded⟩ := Option.map_eq_some_iff.mp step
    exact absurd (Prod.mk.inj heeded).1 heed_finished

/-- A task only fails when a table refuses it. -/
theorem step_failed {r : Registering} {caller : Nat} {t t' : Tables} {error : DeclareError}
    (valid : r.Valid) (step : r.step? caller t = some (.failed error, t')) :
    r.Refused Outline.typePlan caller t.types ∨ r.Refused Outline.methodPlan caller t.methods := by
  unfold step? at step
  split at step
  · simp at step
  · next first waiting =>
    obtain ⟨⟨reply, types⟩, taken, heeded⟩ := Option.map_eq_some_iff.mp step
    refine .inl ⟨.register r.outline.owner r.outline.type, reply, types, ?_, taken,
      heed_failed (Prod.mk.inj heeded).1⟩
    simp [pending, waiting, first, Outline.typePlan]
  · next n later free =>
    split at step <;> simp at step
  · next n later waiting =>
    obtain ⟨⟨reply, methods⟩, taken, heeded⟩ := Option.map_eq_some_iff.mp step
    have there : n < r.outline.methods.length := by
      have inside := valid.2 waiting
      rw [later, Outline.size] at inside
      omega
    refine .inr ⟨.register r.outline.owner r.outline.methods[n], reply, methods, ?_, taken,
      heed_failed (Prod.mk.inj heeded).1⟩
    simp [pending, waiting, later, Outline.methodPlan, there]

end Registering

end UnitCompiler
