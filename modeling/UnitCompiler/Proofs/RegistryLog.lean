import UnitCompiler.Table

/-! A registry against the plain list of what it has accepted. The buckets of names and owners hold
the entries of that list in its order, so that searching one bucket is searching the whole list. -/

namespace UnitCompiler

/-- Accepted registrations, the earliest first: each an owner and a declaration. -/
abbrev Log (α : Type) := List (String × α)

namespace Log

variable {α : Type}

def under (log : Log α) (owner : String) : List α :=
  (log.filter (·.1 == owner)).map Prod.snd

@[simp] theorem under_append (log more : Log α) (owner : String) :
    under (log ++ more) owner = log.under owner ++ more.under owner := by
  simp [under]

theorem under_singleton (key owner : String) (declaration : α) :
    under [(key, declaration)] owner = if key = owner then [declaration] else [] := by
  by_cases same : key = owner <;> simp [under, same]

/-- The earliest registration under an owner that a signature accepts. -/
def first? [Named α] (log : Log α) (owner : String) (signature : Signature α) : Option α :=
  (log.under owner).find? signature.accepts

theorem first?_eq_find? [Named α] (log : Log α) (owner : String) (signature : Signature α) :
    log.first? owner signature =
      (log.find? fun entry => entry.1 == owner && signature.accepts entry.2).map Prod.snd := by
  simp only [first?, under, List.find?_map, List.find?_filter]
  congr 2
  funext entry
  rw [Bool.eq_iff_iff]
  simp

/-- The first match is an entry of its owner that is accepted, with no such entry before it. -/
theorem first?_eq_some_iff [Named α] (log : Log α) (owner : String) (signature : Signature α)
    (declaration : α) :
    log.first? owner signature = some declaration ↔
      ∃ earlier later, log = earlier ++ (owner, declaration) :: later ∧
        signature.accepts declaration = true ∧
        ∀ entry ∈ earlier, entry.1 = owner → signature.accepts entry.2 = false := by
  rw [first?_eq_find?, Option.map_eq_some_iff]
  constructor
  · rintro ⟨⟨key, found⟩, search, rfl⟩
    obtain ⟨matching, earlier, later, rfl, unmatched⟩ := List.find?_eq_some_iff_append.mp search
    simp only [Bool.and_eq_true, beq_iff_eq] at matching
    obtain ⟨rfl, accepts⟩ := matching
    refine ⟨earlier, later, rfl, accepts, ?_⟩
    intro entry member same
    simpa [same] using unmatched entry member
  · rintro ⟨earlier, later, rfl, accepts, unmatched⟩
    refine ⟨(owner, declaration), List.find?_eq_some_iff_append.mpr ?_, rfl⟩
    refine ⟨by simp [accepts], earlier, later, rfl, ?_⟩
    intro entry member
    by_cases same : entry.1 = owner
    · simp [unmatched entry member same]
    · simp [same]

theorem exists_of_first? [Named α] {log : Log α} {owner : String} {signature : Signature α}
    {declaration : α} (found : log.first? owner signature = some declaration) :
    (owner, declaration) ∈ log ∧ signature.accepts declaration = true := by
  obtain ⟨earlier, later, rfl, accepts, -⟩ := (first?_eq_some_iff _ _ _ _).mp found
  exact ⟨by simp, accepts⟩

theorem first?_eq_none_iff [Named α] (log : Log α) (owner : String) (signature : Signature α) :
    log.first? owner signature = none ↔
      ∀ entry ∈ log, entry.1 = owner → signature.accepts entry.2 = false := by
  simp [first?_eq_find?, List.find?_eq_none]

/-- Later registrations never take the place of an earlier one. -/
theorem first?_append [Named α] (log more : Log α) (owner : String) (signature : Signature α)
    (declaration : α) (found : log.first? owner signature = some declaration) :
    first? (log ++ more) owner signature = some declaration := by
  simp only [first?, under_append, List.find?_append] at found ⊢
  simp [found]

/-- One more registration answers what was unanswered before, if it matches. -/
theorem first?_snoc [Named α] (log : Log α) (key owner : String) (signature : Signature α)
    (declaration : α) (unmatched : log.first? owner signature = none) :
    first? (log ++ [(key, declaration)]) owner signature =
      if key = owner ∧ signature.accepts declaration = true then some declaration else none := by
  simp only [first?, under_append, List.find?_append, under_singleton] at unmatched ⊢
  by_cases same : key = owner
  · cases accepts : signature.accepts declaration <;> simp [unmatched, same, accepts]
  · simp [unmatched, same]

end Log

/-! ## Buckets -/

theorem lookup_alter {β : Type} (key other : String) (change : Option β → β)
    (list : List (String × β)) :
    (alter key change list).lookup other =
      if other = key then some (change (list.lookup key)) else list.lookup other := by
  induction list with
  | nil => by_cases same : other = key <;> simp [alter, same]
  | cons entry rest ih =>
    obtain ⟨k, value⟩ := entry
    by_cases here : k = key
    · subst here
      by_cases same : other = k
      · simp [alter, same]
      · simp [alter, List.lookup_cons, same, beq_eq_false_iff_ne.mpr same]
    · have apart : (key == k) = false := by simpa using Ne.symm here
      simp only [alter, if_neg here, List.lookup_cons, ih, apart]
      by_cases same : other = key
      · subst same
        simp [apart]
      · simp [same]

namespace Registry

variable {α : Type} [Named α]

/-- Adding a declaration extends its own bucket and no other. -/
theorem bucket_add (r : Registry α) (key owner name : String) (declaration : α) :
    (r.add key declaration).bucket owner name =
      r.bucket owner name ++
        if key = owner ∧ Named.name declaration = name then [declaration] else [] := by
  by_cases sameOwner : owner = key
  · subst sameOwner
    by_cases sameName : name = Named.name declaration
    · subst sameName
      simp [bucket, add, lookup_alter]
    · simp [bucket, add, lookup_alter, sameName, Ne.symm sameName]
  · simp [bucket, add, lookup_alter, sameOwner, Ne.symm sameOwner]

/-- Every bucket holds the entries of the log that belong there, in the order of the log. -/
def Holds (r : Registry α) (log : Log α) : Prop :=
  ∀ owner name, r.bucket owner name = (log.under owner).filter (Named.name · == name)

theorem holds_empty : Holds ({} : Registry α) [] := by
  intro owner name
  rfl

theorem Holds.add {r : Registry α} {log : Log α} (holds : r.Holds log) (key : String)
    (declaration : α) : (r.add key declaration).Holds (log ++ [(key, declaration)]) := by
  intro owner name
  rw [bucket_add, holds owner name, Log.under_append, List.filter_append, Log.under_singleton]
  by_cases sameOwner : key = owner
  · by_cases sameName : Named.name declaration = name <;> simp [sameOwner, sameName]
  · simp [sameOwner]

/-- A signature accepts declarations of one name only, so nothing outside its bucket can match. -/
theorem Holds.find {r : Registry α} {log : Log α} (holds : r.Holds log) (owner : String)
    (signature : Signature α) : r.find owner signature = log.first? owner signature := by
  rw [Registry.find, holds owner signature.name, List.find?_filter, Log.first?]
  congr 1
  funext declaration
  cases accepted : signature.accepts declaration with
  | false => simp
  | true => simp [signature.named declaration accepted]

/-- Ending a registry leaves its buckets alone. -/
theorem Holds.finish {r : Registry α} {log : Log α} (holds : r.Holds log) :
    Holds { r with ended := true } log := holds

/-- What serving a request does to a registry, and what is announced: nothing, unless a declaration
is accepted or the registry ends. -/
theorem serve_cases (r : Registry α) (request : Request α) :
    ((r.serve request).2 = r ∧ Table.announcements request (r.serve request).1 = []) ∨
    (∃ owner declaration, request = .register owner declaration ∧ r.ended = false ∧
      r.serve request = (.registered, r.add owner declaration) ∧
      Table.announcements request (r.serve request).1 = [.registered owner declaration]) ∨
    (request = .finish ∧ r.ended = false ∧
      r.serve request = (.finished true, { r with ended := true }) ∧
      Table.announcements request (r.serve request).1 = [.ended]) := by
  cases request with
  | register owner declaration =>
    cases state : r.ended with
    | true => simp [serve, state, Table.announcements]
    | false =>
      refine .inr (.inl ⟨owner, declaration, rfl, rfl, ?_⟩)
      simp [serve, state, Table.announcements]
  | finish =>
    cases state : r.ended with
    | true =>
      refine .inl ⟨?_, ?_⟩
      · cases r
        simp_all [serve]
      · simp [serve, state, Table.announcements]
    | false => simp [serve, state, Table.announcements]
  | check owner signature =>
    refine .inl ?_
    cases found : r.find owner signature <;> simp [serve, found, Table.announcements]
  | containsOwner owner => exact .inl ⟨rfl, rfl⟩
  | named owner name => exact .inl ⟨rfl, rfl⟩
  | snapshot => exact .inl ⟨rfl, rfl⟩

end Registry

end UnitCompiler
