import Mathlib.Data.List.Induction
import Mathlib.Data.List.Perm.Basic
import UnitCompiler.Proofs.TableQuiescence

/-! A registry against a journal, which has nothing but the accepted registrations in order and the
word whether the end has come. Every request gets the same answer from both: the buckets are an index
into the journal, and what is refused or asked for twice leaves no trace in them. -/

namespace UnitCompiler

/-- Items by key: the keys in the order of their first item, each with its items in order. -/
def groups {β : Type} (key : β → String) (items : List β) : List (String × List β) :=
  (items.map key).eraseDups.map fun k => (k, items.filter (key · == k))

variable {α : Type} [Named α]

/-- All registrations by owner, and those of one owner by name. -/
def Log.grouped (log : Log α) : List (String × Buckets α) :=
  (groups Prod.fst log).map fun (owner, entries) =>
    (owner, groups Named.name (entries.map Prod.snd))

structure Journal (α : Type) where
  /-- The accepted registrations, the earliest first. -/
  log : Log α := []
  ended : Bool := false

namespace Journal

/-- The answer to a request, found by going through all registrations. -/
def serve (j : Journal α) : Request α → Reply α × Journal α
  | .register owner declaration =>
    if j.ended then (.refused owner (Named.name declaration), j)
    else (.registered, { j with log := j.log ++ [(owner, declaration)] })
  | .check owner signature =>
    match j.log.find? fun entry => entry.1 == owner && signature.accepts entry.2 with
    | some entry => (.found entry.2, j)
    | none => (.missing j.ended, j)
  | .finish => (.finished (!j.ended), { j with ended := true })
  | .containsOwner owner => (.contains (j.log.any (·.1 == owner)), j)
  | .named owner name =>
    let entries := j.log.filter fun entry => entry.1 == owner && Named.name entry.2 == name
    (.declarations (entries.map Prod.snd), j)
  | .snapshot => (.contents (if j.ended then j.log.grouped else []), j)

def after (j : Journal α) (requests : List (Request α)) : Journal α :=
  requests.foldl (fun j request => (j.serve request).2) j

def answers (j : Journal α) : List (Request α) → List (Reply α)
  | [] => []
  | request :: rest => (j.serve request).1 :: (j.serve request).2.answers rest

end Journal

namespace Registry

def after (r : Registry α) (requests : List (Request α)) : Registry α :=
  requests.foldl (fun r request => (r.serve request).2) r

def answers (r : Registry α) : List (Request α) → List (Reply α)
  | [] => []
  | request :: rest => (r.serve request).1 :: (r.serve request).2.answers rest

theorem after_append (r : Registry α) (first second : List (Request α)) :
    r.after (first ++ second) = (r.after first).after second :=
  List.foldl_append

theorem answers_append (r : Registry α) (first second : List (Request α)) :
    r.answers (first ++ second) = r.answers first ++ (r.after first).answers second := by
  induction first generalizing r with
  | nil => rfl
  | cons request rest ih => exact congrArg _ (ih _)

theorem length_answers (r : Registry α) (requests : List (Request α)) :
    (r.answers requests).length = requests.length := by
  induction requests generalizing r with
  | nil => rfl
  | cons request rest ih => exact congrArg _ (ih _)

end Registry

/-! ## Groups -/

section Groups

variable {β γ : Type}

theorem eraseDups_snoc (keys : List String) (key : String) :
    (keys ++ [key]).eraseDups =
      if key ∈ keys then keys.eraseDups else keys.eraseDups ++ [key] := by
  have alone : [key].eraseDups = [key] := by simp [List.eraseDups_cons]
  rw [List.eraseDups_append]
  by_cases old : key ∈ keys <;> simp [List.removeAll, old, alone]

theorem nodup_eraseDups (keys : List String) : keys.eraseDups.Nodup := by
  induction keys using List.reverseRecOn with
  | nil => simp
  | append_singleton keys key ih =>
    rw [eraseDups_snoc]
    split
    · exact ih
    · next fresh =>
      rw [List.nodup_append]
      refine ⟨ih, by simp, ?_⟩
      rintro other member _ last rfl
      rw [List.mem_singleton.mp last, List.mem_eraseDups] at member
      exact fresh member

/-- In a list with one entry for each key, a change concerns the entry of its key. -/
theorem alter_map {keys : List String} (distinct : keys.Nodup) (value : String → γ) (key : String)
    (change : Option γ → γ) :
    alter key change (keys.map fun k => (k, value k)) =
      (keys.map fun k => (k, if k = key then change (some (value k)) else value k)) ++
        if key ∈ keys then [] else [(key, change none)] := by
  induction keys with
  | nil => rfl
  | cons first rest ih =>
    rw [List.nodup_cons] at distinct
    by_cases here : first = key
    · subst here
      have others : (rest.map fun k => (k, if k = first then change (some (value k)) else value k)) =
          rest.map fun k => (k, value k) := by
        refine List.map_congr_left fun k member => ?_
        have apart : k ≠ first := fun same => distinct.1 (same ▸ member)
        rw [if_neg apart]
      simp [alter, others]
    · simp [alter, here, Ne.symm here, ih distinct.2]

/-- One more item is added to the group of its key, which is a new one at the end if there is none. -/
theorem alter_groups (key : β → String) (summary : List β → γ) (items : List β) (item : β)
    (change : Option γ → γ) (old : ∀ group, change (some (summary group)) = summary (group ++ [item]))
    (new : change none = summary [item]) :
    alter (key item) change ((groups key items).map fun (k, group) => (k, summary group)) =
      (groups key (items ++ [item])).map fun (k, group) => (k, summary group) := by
  simp only [groups, List.map_map, Function.comp_def, List.map_append, List.map_cons, List.map_nil]
  rw [alter_map (nodup_eraseDups _) (fun k => summary (items.filter (key · == k))), eraseDups_snoc]
  have kept (keys : List String) :
      (keys.map fun k => (k, if k = key item then change (some (summary (items.filter (key · == k))))
          else summary (items.filter (key · == k)))) =
        keys.map fun k => (k, summary ((items ++ [item]).filter (key · == k))) := by
    refine List.map_congr_left fun k _ => ?_
    rw [List.filter_append]
    by_cases same : k = key item
    · simp [same, old]
    · simp [same, Ne.symm same]
  rw [kept]
  by_cases known : key item ∈ items.map key
  · simp [known]
  · have alone : items.filter (key · == key item) = [] := by
      refine List.filter_eq_nil_iff.mpr fun other member => ?_
      simp only [beq_iff_eq]
      exact fun same => known (same ▸ List.mem_map_of_mem member)
    simp [known, alone, new]

theorem lookup_groups (key : β → String) (summary : List β → γ) (items : List β) (k : String) :
    ((groups key items).map fun (k, group) => (k, summary group)).lookup k =
      if k ∈ items.map key then some (summary (items.filter (key · == k))) else none := by
  have search (keys : List String) (value : String → γ) :
      (keys.map fun k => (k, value k)).lookup k = if k ∈ keys then some (value k) else none := by
    induction keys with
    | nil => rfl
    | cons first rest ih =>
      by_cases here : k = first
      · simp [here]
      · simp [List.lookup_cons, here, ih, beq_eq_false_iff_ne.mpr here]
  simp only [groups, List.map_map, Function.comp_def]
  rw [search _ fun k => summary (items.filter (key · == k))]
  simp only [List.mem_eraseDups]

/-- The groups together are the whole list. -/
theorem flatMap_groups (key : β → String) (items : List β) :
    ((groups key items).flatMap Prod.snd).Perm items := by
  have collect (keys : List String) (distinct : keys.Nodup) :
      (keys.flatMap fun k => items.filter (key · == k)).Perm
        (items.filter fun item => keys.contains (key item)) := by
    induction keys with
    | nil => simp
    | cons first rest ih =>
      rw [List.nodup_cons] at distinct
      have parts := List.filter_append_perm (key · == first)
        (items.filter fun item => (first :: rest).contains (key item))
      rw [List.filter_filter, List.filter_filter] at parts
      refine List.Perm.trans ?_ parts
      rw [List.flatMap_cons]
      refine List.Perm.append (.of_eq ?_) ((ih distinct.2).trans (.of_eq ?_))
      · refine List.filter_congr fun item _ => ?_
        by_cases here : key item = first <;> simp [here]
      · refine List.filter_congr fun item _ => ?_
        by_cases here : key item = first
        · simp [here, distinct.1]
        · simp [here]
  have all : (items.filter fun item => (items.map key).eraseDups.contains (key item)) = items := by
    rw [List.filter_eq_self]
    intro item member
    simpa using ⟨item, member, rfl⟩
  have whole := collect _ (nodup_eraseDups (items.map key))
  rw [all] at whole
  simpa [groups, List.flatMap_map] using whole

end Groups

namespace Log

def ungrouped (owners : List (String × Buckets α)) : Log α :=
  owners.flatMap fun (owner, buckets) => buckets.flatMap fun bucket => bucket.2.map (owner, ·)

theorem ungrouped_grouped (log : Log α) : (ungrouped log.grouped).Perm log := by
  refine List.Perm.trans ?_ (flatMap_groups Prod.fst log)
  simp only [ungrouped, grouped, List.flatMap_map]
  refine List.Perm.flatMap_left _ fun group member => ?_
  obtain ⟨owner, entries⟩ := group
  have own : entries.map (fun entry => (owner, entry.2)) = entries := by
    obtain ⟨k, -, same⟩ := List.mem_map.mp member
    obtain ⟨rfl, rfl⟩ := Prod.mk.inj same
    conv_rhs => rw [← List.map_id (List.filter _ _)]
    refine List.map_congr_left fun entry inside => ?_
    have key : entry.1 = k := by simpa using (List.mem_filter.mp inside).2
    rw [← key]
    rfl
  have named := (flatMap_groups Named.name (entries.map Prod.snd)).map (owner, ·)
  rw [List.map_flatMap, List.map_map, Function.comp_def, own] at named
  exact named

theorem grouped_snoc (log : Log α) (owner : String) (declaration : α) :
    grouped (log ++ [(owner, declaration)]) =
      (({ owners := log.grouped } : Registry α).add owner declaration).owners := by
  refine (alter_groups Prod.fst (fun entries => groups Named.name (entries.map Prod.snd)) log
    (owner, declaration) _ (fun entries => ?_) ?_).symm
  · have inner := alter_groups Named.name id (entries.map Prod.snd) declaration
      (fun list => list.getD [] ++ [declaration]) (fun _ => rfl) rfl
    simpa using inner
  · simp [groups, alter, List.eraseDups_cons]

theorem lookup_grouped (log : Log α) (owner : String) :
    log.grouped.lookup owner =
      if owner ∈ log.map Prod.fst then some (groups Named.name (log.under owner)) else none := by
  rw [grouped, lookup_groups Prod.fst fun entries => groups Named.name (entries.map Prod.snd)]
  rfl

end Log

/-! ## Registry and journal -/

structure Registry.Indexes (r : Registry α) (j : Journal α) : Prop where
  owners : r.owners = j.log.grouped
  ended : r.ended = j.ended

namespace Registry.Indexes

variable {r : Registry α} {j : Journal α}

theorem bucket (indexes : r.Indexes j) (owner name : String) :
    r.bucket owner name = (j.log.under owner).filter (Named.name · == name) := by
  have names := lookup_groups Named.name id (j.log.under owner) name
  simp only [id, List.map_id'] at names
  rw [Registry.bucket, indexes.owners, Log.lookup_grouped]
  by_cases known : owner ∈ j.log.map Prod.fst
  · rw [if_pos known, Option.getD_some, names]
    split
    · rfl
    · next fresh =>
      symm
      rw [Option.getD_none, List.filter_eq_nil_iff]
      intro declaration member same
      exact fresh (List.mem_map.mpr ⟨declaration, member, by simpa using same⟩)
  · have none : j.log.under owner = [] := by
      rw [Log.under, List.map_eq_nil_iff, List.filter_eq_nil_iff]
      intro entry member same
      exact known (List.mem_map.mpr ⟨entry, member, by simpa using same⟩)
    simp [known, none]

/-- One request: the same answer, and the buckets stay an index. -/
theorem serve (indexes : r.Indexes j) (request : Request α) :
    (r.serve request).1 = (j.serve request).1 ∧ (r.serve request).2.Indexes (j.serve request).2 := by
  obtain ⟨owners, ended⟩ := indexes
  cases request with
  | register owner declaration =>
    simp only [Registry.serve, Journal.serve, ended]
    cases state : j.ended with
    | true => exact ⟨rfl, owners, ended⟩
    | false =>
      refine ⟨rfl, ?_, ended.trans state⟩
      simp [Log.grouped_snoc, Registry.add, owners]
  | check owner signature =>
    have search := Registry.Holds.find (r := r) (fun o n => bucket ⟨owners, ended⟩ o n) owner signature
    rw [Log.first?_eq_find?] at search
    simp only [Registry.serve, Journal.serve, search, ended]
    cases j.log.find? _ <;> exact ⟨rfl, owners, ended⟩
  | finish => exact ⟨by simp [Registry.serve, Journal.serve, ended], owners, rfl⟩
  | containsOwner owner =>
    refine ⟨?_, owners, ended⟩
    simp only [Registry.serve, Journal.serve, Registry.containsOwner, owners, Log.lookup_grouped]
    by_cases known : owner ∈ j.log.map Prod.fst
    · obtain ⟨entry, member, same⟩ := List.mem_map.mp known
      have some : j.log.any (·.1 == owner) = true := List.any_eq_true.mpr ⟨entry, member, by simp [same]⟩
      simp [known, some]
    · have none : j.log.any (·.1 == owner) = false := by
        rw [List.any_eq_false]
        intro entry member same
        exact known (List.mem_map.mpr ⟨entry, member, by simpa using same⟩)
      simp [known, none]
  | named owner name =>
    refine ⟨?_, owners, ended⟩
    simp only [Registry.serve, Journal.serve, bucket ⟨owners, ended⟩, Log.under, List.filter_map,
      List.filter_filter]
    congr 2
    refine List.filter_congr fun entry _ => ?_
    exact Bool.and_comm _ _
  | snapshot =>
    refine ⟨?_, owners, ended⟩
    simp only [Registry.serve, Journal.serve, owners, ended]

theorem after (indexes : r.Indexes j) (requests : List (Request α)) :
    (r.after requests).Indexes (j.after requests) := by
  induction requests generalizing r j with
  | nil => exact indexes
  | cons request rest ih => exact ih (indexes.serve request).2

theorem answers (indexes : r.Indexes j) (requests : List (Request α)) :
    r.answers requests = j.answers requests := by
  induction requests generalizing r j with
  | nil => rfl
  | cons request rest ih =>
    obtain ⟨same, next⟩ := indexes.serve request
    exact congrArg₂ List.cons same (ih next)

end Registry.Indexes

/-- The registry is ended by the first request to end it, and by nothing else. -/
theorem Registry.ended_after (requests : List (Request α)) :
    (({} : Registry α).after requests).ended = true ↔ .finish ∈ requests := by
  induction requests using List.reverseRecOn with
  | nil => simp [Registry.after]
  | append_singleton requests request ih =>
    have last : (({} : Registry α).after (requests ++ [request])) =
        ((({} : Registry α).after requests).serve request).2 := Registry.after_append _ _ _
    rw [last, List.mem_append, ← ih, List.mem_singleton]
    rcases (({} : Registry α).after requests).serve_cases request with
      ⟨same, -⟩ | ⟨owner, declaration, rfl, live, served, -⟩ | ⟨rfl, live, served, -⟩
    · rw [same]
      refine ⟨.inl, ?_⟩
      rintro (ended | rfl)
      · exact ended
      · rw [← same]
        rfl
    · simp [served, Registry.add, live]
    · simp [served]

namespace Table

def Action.call? : Action α → Option (Nat × Request α)
  | .post caller request => some (caller, request)
  | _ => none

/-- The calls made so far are those that have been served, in order, and those that are still in the
mailbox; registry and answers are what serving them gives. -/
structure Kept (t : Table α) (calls served : List (Nat × Request α)) : Prop where
  running : t.running = true
  calls : calls = served ++ t.outstanding
  registry : t.registry = ({} : Registry α).after (served.map Prod.snd)
  replies : t.replies =
    (served.map Prod.fst).zip (({} : Registry α).answers (served.map Prod.snd))

theorem Kept.answer {t : Table α} {calls served : List (Nat × Request α)} (kept : t.Kept calls served)
    (caller : Nat) (request : Request α) (rest : List (Letter α))
    (first : t.mailbox = .call caller request :: rest) :
    (t.answered caller request rest).Kept calls (served ++ [(caller, request)]) := by
  obtain ⟨running, made, registry, replies⟩ := kept
  refine ⟨running, ?_, ?_, ?_⟩
  · rw [made]
    simp [outstanding, first, answered, Letter.call?]
  · simp only [answered, List.map_append, Registry.after_append, ← registry]
    rfl
  · simp only [answered, List.map_append, Registry.answers_append, ← registry, replies]
    rw [List.zip_append (by simp [Registry.length_answers])]
    rfl

theorem Kept.perform {t t' : Table α} {calls served : List (Nat × Request α)}
    (kept : t.Kept calls served) (action : Action α) (performed : t.perform action = some t') :
    ∃ more, t'.Kept (calls ++ action.call?.toList) (served ++ more) := by
  cases action with
  | post caller request =>
    cases performed
    refine ⟨[], ?_, ?_, ?_, ?_⟩
    · simp [post, kept.running, send]
    · simp [outstanding_post t kept.running, kept.calls, Action.call?]
    · simpa [post, kept.running, send] using kept.registry
    · simpa [replies_post t kept.running] using kept.replies
  | seek owner signature =>
    cases performed
    refine ⟨[], ?_⟩
    simp only [Action.call?, Option.toList_none, List.append_nil]
    exact { kept with }
  | serve =>
    simp only [Action.call?, Option.toList_none, List.append_nil]
    rcases serve_frame performed with
      ⟨caller, request, rest, first, rfl⟩ | ⟨letter, rest, lookups, first, other, rfl, -⟩
    · exact ⟨_, kept.answer caller request rest first⟩
    · refine ⟨[], ?_⟩
      rw [List.append_nil]
      refine { kept with calls := ?_ }
      rw [kept.calls]
      simp [outstanding, first, other]
  | advance index =>
    obtain ⟨phase, letters, rfl, silent⟩ := advance_frame performed
    refine ⟨[], ?_⟩
    simp only [Action.call?, Option.toList_none, List.append_nil]
    refine { kept with calls := ?_ }
    rw [kept.calls]
    simp [outstanding, silent]

theorem Kept.execute {t t' : Table α} {calls served : List (Nat × Request α)}
    (kept : t.Kept calls served) (schedule : List (Action α)) (executed : t.execute schedule = some t') :
    ∃ more, t'.Kept (calls ++ schedule.filterMap Action.call?) (served ++ more) := by
  refine runSchedule_induction (P := fun past u => ∃ more, u.Kept (calls ++ past.filterMap Action.call?)
    (served ++ more)) ⟨[], by simpa using kept⟩ ?_ executed
  rintro past u action next ⟨more, kept⟩ performed
  obtain ⟨news, later⟩ := kept.perform action performed
  refine ⟨more ++ news, ?_⟩
  cases call : action.call? <;> simpa [call] using later

end Table

/-- A registry answers like a journal. So does the table that serves it, to every caller and to every
lookup that checks, whatever the order of its steps. -/
theorem Registry.answers_as_journal :
    (∀ requests : List (Request α),
      ({} : Registry α).answers requests = ({} : Journal α).answers requests) ∧
    (∀ log : Log α, (Log.ungrouped log.grouped).Perm log) ∧
    (∀ before after : List (Request α), .finish ∉ before →
      ((({} : Registry α).after before).answers (.finish :: after)).head? = some (.finished true)) ∧
    (∀ before after : List (Request α), .finish ∈ before →
      (({} : Registry α).after before).answers (.finish :: after) =
        .finished false :: (({} : Registry α).after before).answers after ∧
      ∀ owner declaration,
        (({} : Registry α).after before).answers (.register owner declaration :: after) =
          .refused owner (Named.name declaration) :: (({} : Registry α).after before).answers after) ∧
    (∀ (capacity : Nat) (schedule : List (Table.Action α)) (t : Table α),
      (Table.withCapacity capacity).execute schedule = some t →
      ∃ served, schedule.filterMap Table.Action.call? = served ++ t.outstanding ∧
        t.replies =
          (served.map Prod.fst).zip (({} : Journal α).answers (served.map Prod.snd)) ∧
        ∀ index rest l, t.mailbox = .check index :: rest → t.lookups[index]? = some l →
          t.serve? = some ({ t with mailbox := rest }.setPhase index (l.phase.hear
            ((({} : Journal α).after (served.map Prod.snd)).serve
              (.check l.owner l.signature)).1))) := by
  have start : ({} : Registry α).Indexes {} := ⟨rfl, rfl⟩
  refine ⟨start.answers, Log.ungrouped_grouped, ?_, ?_, ?_⟩
  · intro before after fresh
    have live : (({} : Registry α).after before).ended = false := by
      rw [← Bool.not_eq_true, Registry.ended_after]
      exact fresh
    simp [Registry.answers, Registry.serve, live]
  · intro before after finished
    have ended := (Registry.ended_after before).mpr finished
    have again : { ({} : Registry α).after before with ended := true } = ({} : Registry α).after before := by
      rw [← ended]
    refine ⟨?_, fun owner declaration => ?_⟩
    · simp [Registry.answers, Registry.serve, ended, again]
    · simp [Registry.answers, Registry.serve, ended]
  · intro capacity schedule t reached
    have empty : (Table.withCapacity capacity : Table α).Kept [] [] := ⟨rfl, rfl, rfl, rfl⟩
    obtain ⟨served, kept⟩ := empty.execute schedule reached
    rw [List.nil_append, List.nil_append] at kept
    refine ⟨served, kept.calls, ?_, ?_⟩
    · rw [← start.answers]
      exact kept.replies
    · intro index rest l first there
      rw [← ((start.after (served.map Prod.snd)).serve _).1, ← kept.registry]
      simp only [Table.serve?, first, there]

/-- Two overloads under one owner, with a second owner between them. -/
def interleaved : List (Request MethodDeclaration) :=
  [.register "app.A" (Table.bare "f"), .register "app.B" (Table.bare "f"),
    .register "app.A" { Table.bare "f" with returnType := .int }]

/-- The overloads are told in order; the end comes once, and what comes after it leaves no trace. -/
theorem Registry.interleaved_answers_as_journal :
    .finish ∉ interleaved ∧
    ((({} : Registry MethodDeclaration).after interleaved).answers
      [.finish, .named "app.A" "f"]).head? = some (.finished true) ∧
    .finish ∈ interleaved ++ [.finish] ∧
    (({} : Registry MethodDeclaration).after (interleaved ++ [.finish])).answers
        [.register "app.A" (Table.bare "f"), .named "app.A" "f"] =
      [.refused "app.A" "f",
        .declarations [Table.bare "f", { Table.bare "f" with returnType := .int }]] ∧
    ∃ (t : Table MethodDeclaration) (served : List (Nat × Request MethodDeclaration)),
      (Table.withCapacity 1).execute Table.lagging = some t ∧
      Table.lagging.filterMap Table.Action.call? = served ++ t.outstanding ∧
      t.replies = (served.map Prod.fst).zip
        (({} : Journal MethodDeclaration).answers (served.map Prod.snd)) := by
  obtain ⟨-, -, first, later, table⟩ := Registry.answers_as_journal (α := MethodDeclaration)
  have live : Request.finish ∉ interleaved := by simp [interleaved]
  have ended : Request.finish ∈ interleaved ++ [.finish] := by simp
  have run : ∃ t, (Table.withCapacity 1).execute Table.lagging = some t := ⟨_, rfl⟩
  obtain ⟨t, reached⟩ := run
  obtain ⟨served, calls, replies, -⟩ := table 1 Table.lagging t reached
  exact ⟨live, first _ _ live, ended, (later _ _ ended).2 "app.A" (Table.bare "f"), t, served,
    reached, calls, replies⟩

end UnitCompiler
