import Mathlib.Data.List.Infix
import UnitCompiler.Build

/-! What a file tree keeps. Directories stay, and a file stays until something is written at its own
place; what was written can be read. -/

namespace UnitCompiler

/-! ## Entries -/

namespace Entry

@[simp] theorem entries_directory (entries : List (String × Entry)) :
    (directory entries).entries = entries := rfl

theorem lookup_cons_ne {key other : String} (apart : other ≠ key) (e : Entry)
    (entries : List (String × Entry)) : ((key, e) :: entries).lookup other = entries.lookup other := by
  rw [List.lookup_cons, beq_eq_false_iff_ne.mpr apart]

theorem lookup_insert (name other : String) (e : Entry) (entries : List (String × Entry)) :
    (insert name e entries).lookup other = if other = name then some e else entries.lookup other := by
  by_cases same : other = name
  · subst same
    rw [if_pos rfl]
    induction entries with
    | nil => exact List.lookup_cons_self
    | cons first rest ih =>
      unfold insert
      split
      · exact List.lookup_cons_self
      · next apart =>
        split
        · exact List.lookup_cons_self
        · rw [lookup_cons_ne apart, ih]
  · rw [if_neg same]
    induction entries with
    | nil => exact lookup_cons_ne same e []
    | cons first rest ih =>
      obtain ⟨key, next⟩ := first
      unfold insert
      split
      · next found => rw [lookup_cons_ne same, lookup_cons_ne (found ▸ same)]
      · split
        · exact lookup_cons_ne same e _
        · rw [List.lookup_cons, List.lookup_cons, ih]

theorem at?_put_self (new e : Entry) (place : Location) : (put new e place).at? place = some new := by
  induction place generalizing e with
  | nil => rfl
  | cons name rest ih =>
    rw [put, at?]
    simp only [entries_directory, lookup_insert, if_true, ih]

/-- What is put somewhere brings its own entries along. -/
theorem at?_put_below (new e : Entry) (place rest : Location) :
    (put new e place).at? (place ++ rest) = new.at? rest := by
  induction place generalizing e with
  | nil => rfl
  | cons name place ih =>
    rw [List.cons_append, put, at?]
    simp only [entries_directory, lookup_insert, if_true, ih]

/-- What leads to a place are directories. -/
theorem at?_put_above (new e : Entry) (place : Location) (name : String) (rest : Location) :
    ∃ entries, (put new e (place ++ name :: rest)).at? place = some (.directory entries) := by
  induction place generalizing e with
  | nil => exact ⟨_, rfl⟩
  | cons first place ih =>
    rw [List.cons_append, put, at?]
    simp only [entries_directory, lookup_insert, if_true]
    exact ih _

/-- What is elsewhere stays. -/
theorem at?_put_apart (new e : Entry) {place other : Location} (outside : ¬place <+: other)
    (beside : ¬other <+: place) : (put new e place).at? other = e.at? other := by
  induction place generalizing e other with
  | nil => exact absurd (List.nil_prefix) outside
  | cons name place ih =>
    cases other with
    | nil => exact absurd (List.nil_prefix) beside
    | cons first other =>
      rw [put, at?, at?]
      simp only [entries_directory, lookup_insert]
      by_cases same : first = name
      · subst same
        rw [List.prefix_cons_inj] at outside beside
        rw [if_pos rfl]
        simp only [ih _ outside beside]
        cases found : e.entries.lookup first with
        | some next => rfl
        | none =>
          cases other with
          | nil => exact absurd (List.nil_prefix) beside
          | cons => rfl
      · rw [if_neg same]

/-- Something put at a place brings along what is below it and needs directories above it. Beside it nothing
changes. -/
theorem at?_put_cases (new e : Entry) {place other : Location} (apart : other ≠ place) :
    (∃ name rest, other = place ++ name :: rest ∧ (put new e place).at? other = new.at? (name :: rest)) ∨
    (other <+: place ∧ ∃ entries, (put new e place).at? other = some (.directory entries)) ∨
    (put new e place).at? other = e.at? other := by
  by_cases inside : place <+: other
  · obtain ⟨rest, rfl⟩ := inside
    obtain ⟨name, rest, rfl⟩ := List.exists_cons_of_ne_nil (l := rest) (by rintro rfl; simp at apart)
    exact .inl ⟨name, rest, rfl, at?_put_below new e place (name :: rest)⟩
  · by_cases above : other <+: place
    · obtain ⟨rest, rfl⟩ := above
      obtain ⟨name, rest, rfl⟩ := List.exists_cons_of_ne_nil (l := rest) (by rintro rfl; simp at apart)
      exact .inr (.inl ⟨List.prefix_append _ _, at?_put_above new e other name rest⟩)
    · exact .inr (.inr (at?_put_apart new e inside above))

theorem at?_append (e : Entry) (place rest : Location) :
    e.at? (place ++ rest) = (e.at? place).bind fun next => next.at? rest := by
  induction place generalizing e with
  | nil => rfl
  | cons name place ih =>
    rw [List.cons_append, at?, at?]
    cases e.entries.lookup name with
    | some next => exact ih next
    | none => rfl

/-- Only directories have something below. -/
theorem directory_of_below {e : Entry} {name : String} {rest : Location} {found : Entry}
    (below : e.at? (name :: rest) = some found) : ∃ entries, e = .directory entries := by
  cases e with
  | directory entries => exact ⟨entries, rfl⟩
  | file bytes => simp [at?, entries] at below

end Entry

namespace FileTree

variable {t t' t'' : FileTree} {place other : Location}

def HasDirectory (t : FileTree) (place : Location) : Prop :=
  ∃ entries, t.at? place = some (.directory entries)

theorem checkDirectory_eq_ok : t.checkDirectory place = .ok () ↔ t.HasDirectory place := by
  unfold checkDirectory HasDirectory
  cases t.at? place with
  | none => simp
  | some e => cases e <;> simp

theorem at?_file {bytes : List UInt8} :
    t.at? place = some (.file bytes) ↔ t.top.at? place = some (.file bytes) := by
  unfold at?
  cases t.top.at? place with
  | some e => rfl
  | none => simp

/-- Something is put at a place where there is no directory, and nothing stands below it. -/
theorem put_hasDirectory {new : Entry} (vacant : ¬t.HasDirectory place) (bare : new.entries = [])
    (there : t.HasDirectory other) : (t.put place new).HasDirectory other := by
  have apart : other ≠ place := by
    rintro rfl
    exact vacant there
  rcases Entry.at?_put_cases new t.top apart with ⟨name, rest, rfl, below⟩ | ⟨-, entries, found⟩ | same
  · -- Below the place there are only the directories that are always given.
    obtain ⟨entries, found⟩ := there
    unfold at? at found
    split at found
    · next e old =>
      rw [Entry.at?_append] at old
      obtain ⟨next, here, beneath⟩ := Option.bind_eq_some_iff.mp old
      obtain ⟨entries, rfl⟩ := Entry.directory_of_below beneath
      exact absurd ⟨entries, by rw [at?, here]⟩ vacant
    · have nothing : (t.put place new).top.at? (place ++ name :: rest) = none := by
        rw [put, below, Entry.at?, bare]
        rfl
      exact ⟨entries, by rw [at?, nothing, found]⟩
  · exact ⟨entries, by rw [at?, put, found]⟩
  · obtain ⟨entries, found⟩ := there
    exact ⟨entries, by rw [at?, put, same]; exact found⟩

def Reaches (t : FileTree) (place : Location) : Prop :=
  ∀ above, above <+: place → above ≠ place → t.HasDirectory above

theorem put_file {new : Entry} (reaches : t.Reaches place) (vacant : ¬t.HasDirectory place)
    (apart : other ≠ place) {bytes : List UInt8} (there : t.at? other = some (.file bytes)) :
    (t.put place new).at? other = some (.file bytes) := by
  rw [at?_file] at there ⊢
  rcases Entry.at?_put_cases new t.top apart with ⟨name, rest, rfl, -⟩ | ⟨above, -⟩ | same
  · rw [Entry.at?_append] at there
    obtain ⟨next, here, beneath⟩ := Option.bind_eq_some_iff.mp there
    obtain ⟨entries, rfl⟩ := Entry.directory_of_below beneath
    exact absurd ⟨entries, by rw [at?, here]⟩ vacant
  · obtain ⟨entries, found⟩ := reaches other above apart
    rw [at?, there] at found
    cases found
  · rw [put, same]
    exact there

theorem Reaches.enter (reaches : t.Reaches place) (there : t.HasDirectory place) (name : String) :
    t.Reaches (enter place name) := by
  have appended (name : String) : t.Reaches (place ++ [name]) := by
    intro above before apart
    rcases List.prefix_concat_iff.mp before with whole | within
    · exact absurd whole apart
    · by_cases same : above = place
      · rw [same]
        exact there
      · exact reaches above within same
  unfold FileTree.enter
  split
  · split
    · exact reaches
    · split
      · exact appended ".."
      · intro above before apart
        have within := before.trans (List.dropLast_prefix place)
        refine reaches above within fun same => ?_
        subst same
        exact apart (before.eq_of_length_le (List.dropLast_prefix _).length_le)
  · exact appended name

theorem Reaches.nil (t : FileTree) : t.Reaches [] := fun _ before apart =>
  absurd (List.prefix_nil.mp before) apart

/-! ## What a step keeps -/

structure Keeps (changed : Location → Prop) (t t' : FileTree) : Prop where
  directories : ∀ place, t.HasDirectory place → t'.HasDirectory place
  files : ∀ place bytes, ¬changed place → t.at? place = some (.file bytes) →
    t'.at? place = some (.file bytes)

variable {changed more : Location → Prop}

theorem Keeps.refl (t : FileTree) : t.Keeps changed t := ⟨fun _ => id, fun _ _ _ => id⟩

theorem Keeps.trans (first : t.Keeps changed t') (second : t'.Keeps changed t'') :
    t.Keeps changed t'' :=
  ⟨fun place there => second.directories place (first.directories place there),
    fun place bytes apart there => second.files place bytes apart (first.files place bytes apart there)⟩

theorem Keeps.mono (keeps : t.Keeps changed t') (weaker : ∀ place, changed place → more place) :
    t.Keeps more t' :=
  ⟨keeps.directories, fun place bytes apart => keeps.files place bytes fun same => apart (weaker place same)⟩

theorem Reaches.keep (reaches : t.Reaches place) (keeps : t.Keeps changed t') : t'.Reaches place :=
  fun above before apart => keeps.directories above (reaches above before apart)

theorem put_keeps (new : Entry) (reaches : t.Reaches place) (vacant : ¬t.HasDirectory place)
    (bare : new.entries = []) : t.Keeps (· = place) (t.put place new) :=
  ⟨fun _ => put_hasDirectory vacant bare, fun _ _ apart => put_file reaches vacant apart⟩

/-- Making a way changes no file. -/
theorem makeWay_keeps {made : Bool} {names : List String} (reaches : t.Reaches place)
    (there : t.HasDirectory place) (done : t.makeWay place made names = .ok t') :
    t.Keeps (fun _ => False) t' := by
  induction names generalizing t place made with
  | nil =>
    cases done
    exact .refl _
  | cons name rest ih =>
    have onward := reaches.enter there name
    unfold makeWay at done
    split at done
    · contradiction
    · dsimp only at done
      split at done
      · next entries found => exact ih onward ⟨entries, found⟩ done
      · contradiction
      · next absent =>
        have vacant : ¬t.HasDirectory (FileTree.enter place name) := by
          rintro ⟨entries, found⟩
          rw [absent] at found
          cases found
        have put := put_keeps (.directory []) onward vacant rfl
        have kept : t.Keeps (fun _ => False) (t.put (FileTree.enter place name) (.directory [])) := by
          refine ⟨put.directories, fun other bytes _ file => put.files other bytes ?_ file⟩
          rintro rfl
          rw [absent] at file
          cases file
        refine kept.trans (ih (onward.keep kept) ⟨[], ?_⟩ done)
        rw [at?, FileTree.put, Entry.at?_put_self]

theorem makeDirectories_way {path : String} (done : t.makeDirectories path = .ok t') :
    ∃ names, t.makeWay [] false names = .ok t' := by
  unfold makeDirectories at done
  split at done
  · exact ⟨[], done⟩
  · cases text : checkPath path with
    | error e => simp [text, bind, Except.bind] at done
    | ok => exact ⟨Path.names path, by simpa [text, bind, Except.bind] using done⟩

theorem makeDirectories_keeps {path : String} (rooted : t.HasDirectory [])
    (done : t.makeDirectories path = .ok t') : t.Keeps (fun _ => False) t' := by
  obtain ⟨names, way⟩ := makeDirectories_way done
  exact makeWay_keeps (.nil t) rooted way

/-! ## Following a path -/

theorem follow_cons {name : String} {rest : List String} :
    t.follow place (name :: rest) = .ok other ↔
      t.HasDirectory place ∧ name.utf8ByteSize ≤ maxNameSize ∧ t.follow (enter place name) rest = .ok other := by
  rw [← checkDirectory_eq_ok, follow]
  cases t.checkDirectory place with
  | error e => simp [bind, Except.bind]
  | ok =>
    by_cases long : maxNameSize < name.utf8ByteSize
    · simp [bind, Except.bind, long, Nat.not_le.mpr long, throw, throwThe, MonadExceptOf.throw]
    · simp [bind, Except.bind, long, Nat.not_lt.mp long]

/-- A path leads where its names lead, if it can be followed at all. -/
theorem follow_eq {names : List String} (followed : t.follow place names = .ok other) :
    other = names.foldl enter place := by
  induction names generalizing place with
  | nil => exact (Except.ok.inj followed).symm
  | cons name rest ih => exact ih (follow_cons.mp followed).2.2

theorem follow_reaches {names : List String} (reaches : t.Reaches place)
    (followed : t.follow place names = .ok other) : t.Reaches other := by
  induction names generalizing place with
  | nil =>
    cases followed
    exact reaches
  | cons name rest ih =>
    obtain ⟨there, -, further⟩ := follow_cons.mp followed
    exact ih (reaches.enter there name) further

theorem follow_keep {names : List String} (followed : t.follow place names = .ok other)
    (keeps : t.Keeps changed t') : t'.follow place names = .ok other := by
  induction names generalizing place with
  | nil => exact followed
  | cons name rest ih =>
    obtain ⟨there, short, further⟩ := follow_cons.mp followed
    exact follow_cons.mpr ⟨keeps.directories place there, short, ih further⟩

end FileTree

namespace Path

def place (path : String) : Location := (names path).foldl FileTree.enter []

theorem endsInDots_of_names_nil {path : String} (none : names path = []) : endsInDots path = true := by
  have dots (name : String) (member : name ∈ pieces path) (some : name ≠ "") : name = "." := by
    unfold names at none
    split at none
    · cases none
    · simpa [some] using List.filter_eq_nil_iff.mp none name member
  unfold endsInDots
  split
  · next last found =>
    have member := List.mem_reverse.mp (List.mem_of_find?_eq_some found)
    rw [dots last member (by simpa using List.find?_some found)]
    rfl
  · rfl

end Path

namespace FileTree

variable {t t' : FileTree} {path : String} {bytes : List UInt8} {changed : Location → Prop}

/-- A path can be followed to a place where there may be a file. -/
structure Leads (t : FileTree) (path : String) : Prop where
  text : checkPath path = .ok ()
  bare : Path.endsInSlash path = false ∧ Path.endsInDots path = false
  way : t.follow [] (Path.names path) = .ok (Path.place path)

theorem Leads.keep (leads : t.Leads path) (keeps : t.Keeps changed t') : t'.Leads path :=
  { leads with way := follow_keep leads.way keeps }

theorem Leads.read (leads : t.Leads path) (there : t.at? (Path.place path) = some (.file bytes)) :
    t.read path = .ok bytes := by
  have found : t.find path = .ok (Path.place path, .file bytes) := by
    simp [find, leads.text, leads.way, leads.bare, there, bind, Except.bind, pure, Except.pure]
  rw [FileTree.read, found]
  rfl

/-- What can only be a directory is refused, whatever is there. -/
theorem refused (names : List String) (rest : PUnit → Except FileError FileTree) :
    (do
      t.checkDirectory (← t.follow [] names)
      let done ← throw FileError.isDirectory
      rest done) ≠ .ok t' := by
  cases followed : t.follow [] names with
  | error e => simp [bind, Except.bind]
  | ok place =>
    cases checked : t.checkDirectory place <;>
      simp [checked, bind, Except.bind, throw, throwThe, MonadExceptOf.throw]

/-- What is written is put at the place of its path. -/
theorem write_eq_ok (written : t.write path bytes = .ok t') :
    t.Leads path ∧ ¬t.HasDirectory (Path.place path) ∧ t' = t.put (Path.place path) (.file bytes) := by
  unfold write at written
  cases text : checkPath path with
  | error e => simp [text, bind, Except.bind] at written
  | ok =>
    cases dots : Path.endsInDots path with
    | true =>
      simp only [text, dots] at written
      exact absurd written (refused _ _)
    | false =>
    cases slash : Path.endsInSlash path with
    | true =>
      simp only [text, dots, slash] at written
      exact absurd written (refused _ _)
    | false =>
    cases followed : t.follow [] (Path.names path) with
    | error e => simp [text, dots, slash, followed, bind, Except.bind] at written
    | ok place =>
      obtain rfl := follow_eq followed
      refine ⟨⟨text, ⟨slash, dots⟩, followed⟩, ?_⟩
      simp only [text, dots, slash, followed, bind, Except.bind, pure, Except.pure, Bool.false_eq_true,
        if_false] at written
      split at written
      · cases written
      · next none => exact ⟨fun ⟨entries, found⟩ => none entries found, (Except.ok.inj written).symm⟩

/-- What is written stands at the place of its path, and all other files stay. -/
theorem write_keeps (written : t.write path bytes = .ok t') :
    t.Keeps (· = Path.place path) t' ∧ t'.Leads path ∧
      t'.at? (Path.place path) = some (.file bytes) := by
  obtain ⟨leads, vacant, rfl⟩ := write_eq_ok written
  have kept := put_keeps (.file bytes) (follow_reaches (.nil t) leads.way) vacant rfl
  refine ⟨kept, leads.keep kept, ?_⟩
  rw [at?, put, Entry.at?_put_self]

/-- What is found somewhere is found from a directory on. -/
theorem rooted_of_find {found : Location × Entry} (located : t.find path = .ok found) :
    t.HasDirectory [] := by
  unfold find at located
  cases text : checkPath path with
  | error e => simp [text, bind, Except.bind] at located
  | ok =>
  cases followed : t.follow [] (Path.names path) with
  | error e => simp [text, followed, bind, Except.bind] at located
  | ok place =>
  cases names : Path.names path with
  | cons name rest =>
    rw [names] at followed
    exact (follow_cons.mp followed).1
  | nil =>
    -- A path without names can only be that of a directory.
    rw [names] at followed
    cases followed
    rw [← checkDirectory_eq_ok]
    cases checked : t.checkDirectory [] with
    | ok => rfl
    | error e =>
      simp [text, names, follow, Path.endsInDots_of_names_nil names, checked, bind, Except.bind] at located

end FileTree

/-! ## Artifacts -/

namespace Output

variable {t t' : FileTree} {directory : String} {a : Artifact} {artifacts : List Artifact}

def path (directory : String) (a : Artifact) : String := Path.join directory a.name

/-- An artifact is written at its path, and all other files stay. -/
theorem writeOne_eq_ok {path : String} (rooted : t.HasDirectory [])
    (written : writeOne t directory a = (.ok path, t')) :
    path = Output.path directory a ∧ t.Keeps (· = Path.place path) t' ∧ t'.Leads path ∧
      t'.at? (Path.place path) = some (.file a.bytes) := by
  unfold writeOne at written
  split at written
  · cases written
  · dsimp only at written
    split at written
    · cases written
    · next between made =>
      split at written
      · cases written
      · next after stored =>
        cases written
        obtain ⟨kept, leads, there⟩ := FileTree.write_keeps stored
        have way := FileTree.makeDirectories_keeps rooted made
        exact ⟨rfl, (way.mono fun _ => False.elim).trans kept, leads, there⟩

structure Stored (directory : String) (artifacts : List Artifact) (t t' : FileTree) : Prop where
  keeps : t.Keeps (fun place => ∃ a ∈ artifacts, Path.place (path directory a) = place) t'
  last : ∀ before a after, artifacts = before ++ a :: after →
    (∀ b ∈ after, Path.place (path directory b) ≠ Path.place (path directory a)) →
      t'.Leads (path directory a) ∧ t'.at? (Path.place (path directory a)) = some (.file a.bytes)

theorem write_cons_eq_ok {paths : List String} (written : write t directory (a :: artifacts) = (.ok paths, t')) :
    ∃ path between more, writeOne t directory a = (.ok path, between) ∧
      write between directory artifacts = (.ok more, t') ∧ paths = path :: more := by
  unfold write at written
  split at written
  · cases written
  · next path between one =>
    split at written
    · cases written
    · next more after others =>
      cases written
      exact ⟨path, between, more, one, others, rfl⟩

theorem write_eq_ok {paths : List String} (rooted : t.HasDirectory [])
    (written : write t directory artifacts = (.ok paths, t')) :
    paths = artifacts.map (path directory) ∧ Stored directory artifacts t t' := by
  induction artifacts generalizing t paths with
  | nil =>
    cases written
    exact ⟨rfl, .refl _, fun before a after split => absurd split.symm (by simp)⟩
  | cons a rest ih =>
    obtain ⟨path, between, more, one, others, rfl⟩ := write_cons_eq_ok written
    obtain ⟨rfl, kept, leads, there⟩ := writeOne_eq_ok rooted one
    obtain ⟨rfl, keeps, last⟩ := ih (kept.directories [] rooted) others
    refine ⟨rfl, (kept.mono ?_).trans (keeps.mono ?_), ?_⟩
    · rintro _ rfl
      exact ⟨a, List.mem_cons_self, rfl⟩
    · rintro _ ⟨b, member, rfl⟩
      exact ⟨b, List.mem_cons_of_mem a member, rfl⟩
    · rintro (_ | ⟨first, before⟩) b after split apart
      · cases split
        refine ⟨leads.keep keeps, keeps.files _ _ ?_ there⟩
        rintro ⟨b, member, same⟩
        exact apart b member same
      · cases split
        exact last before b after rfl apart

/-- Artifacts that are written in two parts are written one after the other. -/
theorem write_append {first second : List Artifact} {paths more : List String} {between : FileTree}
    (front : write t directory first = (.ok paths, between))
    (back : write between directory second = (.ok more, t')) :
    write t directory (first ++ second) = (.ok (paths ++ more), t') := by
  induction first generalizing t paths with
  | nil =>
    cases front
    exact back
  | cons a rest ih =>
    obtain ⟨path, middle, others, one, written, rfl⟩ := write_cons_eq_ok front
    rw [List.cons_append, write, one]
    simp only [ih written]
    rfl

end Output

/-- A build that succeeds writes the artifacts of its units. -/
theorem Build.writeUnits_eq_ok {t t' : FileTree} {output : String} {units : List CompiledUnit}
    {paths : List String} (written : writeUnits t output units = (.ok paths, t')) :
    Output.write t output (units.flatMap CompiledUnit.artifacts) = (.ok paths, t') := by
  induction units generalizing t paths with
  | nil =>
    cases written
    rfl
  | cons unit rest ih =>
    unfold writeUnits at written
    split at written
    · cases written
    · next first between one =>
      split at written
      · cases written
      · next more after others =>
        cases written
        exact Output.write_append one (ih others)

end UnitCompiler
