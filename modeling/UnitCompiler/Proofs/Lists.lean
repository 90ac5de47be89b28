import Mathlib.Algebra.GroupWithZero.Nat

/-! Lists in which one item changes: what becomes of the others, and of what is computed from all. -/

namespace UnitCompiler

variable {α β : Type} {list : List α}

/-- Of the items after one has changed, each is that one or stands at another place. -/
theorem place_of_mem_modify {change : α → α} {index : Nat} {item other : α}
    (there : list[index]? = some item) (member : other ∈ list.modify index change) :
    other = change item ∨ ∃ place, place ≠ index ∧ list[place]? = some other := by
  obtain ⟨place, found⟩ := List.mem_iff_getElem?.mp member
  by_cases same : index = place
  · subst same
    simp [there] at found
    exact .inl found.symm
  · simp [same] at found
    exact .inr ⟨place, Ne.symm same, found⟩

theorem mem_modify {change : α → α} {index : Nat} {item other : α}
    (there : list[index]? = some item) (member : other ∈ list.modify index change) :
    other = change item ∨ other ∈ list := by
  rcases place_of_mem_modify there member with changed | ⟨place, -, found⟩
  · exact .inl changed
  · exact .inr (List.mem_of_getElem? found)

/-- One more item: what is at a place was there before, or it is the new one. -/
theorem getElem?_snoc {index : Nat} {item other : α} (there : (list ++ [item])[index]? = some other) :
    list[index]? = some other ∨ index = list.length ∧ other = item := by
  by_cases inside : index < list.length
  · rw [List.getElem?_append_left inside] at there
    exact .inl there
  · rw [List.getElem?_append_right (by omega), List.getElem?_singleton] at there
    split at there
    · exact .inr ⟨by omega, (Option.some.inj there).symm⟩
    · contradiction

theorem getElem?_append_of_some {index : Nat} {other : α} (there : list[index]? = some other)
    (more : List α) : (list ++ more)[index]? = some other := by
  obtain ⟨inside, -⟩ := List.getElem?_eq_some_iff.mp there
  rw [List.getElem?_append_left inside, there]

/-- One item takes the place of another. -/
theorem getElem?_set_of_some {index : Nat} {item : α} (there : list[index]? = some item)
    (other : α) (place : Nat) :
    (list.set index other)[place]? = if index = place then some other else list[place]? := by
  obtain ⟨inside, -⟩ := List.getElem?_eq_some_iff.mp there
  by_cases same : index = place
  · subst same
    rw [if_pos rfl, List.getElem?_set_self inside]
  · rw [if_neg same, List.getElem?_set_ne same]

/-- What no change touches is the same for all items. -/
theorem map_modify {f : α → β} {change : α → α} (index : Nat)
    (same : ∀ item, f (change item) = f item) : (list.modify index change).map f = list.map f := by
  apply List.ext_getElem?
  intro place
  simp only [List.getElem?_map, List.getElem?_modify]
  cases list[place]? with
  | none => rfl
  | some item => split <;> simp [same]

/-- One item changes; what it contributes is added to what the others do. -/
theorem filterMap_modify_perm (f : α → Option β) (change : α → α) {index : Nat} {item : α}
    (there : list[index]? = some item) (before : f item = none) :
    ((list.modify index change).filterMap f).Perm
      (list.filterMap f ++ (f (change item)).toList) := by
  induction list generalizing index with
  | nil => simp at there
  | cons first rest ih =>
    cases index with
    | zero =>
      obtain rfl : first = item := by simpa using there
      rw [List.modify_zero_cons, List.filterMap_cons_none before]
      cases after : f (change first) with
      | none => simp [after]
      | some result =>
        rw [List.filterMap_cons_some after]
        exact (List.perm_append_singleton result _).symm
    | succ index =>
      rw [List.modify_succ_cons]
      have tail := ih (show rest[index]? = some item by simpa using there)
      cases own : f first with
      | none => simpa [own] using tail
      | some result => simpa [own] using tail.cons result

theorem set_eq_modify {index : Nat} {item : α} (there : list[index]? = some item) (other : α) :
    list.set index other = list.modify index fun _ => other := by
  apply List.ext_getElem?
  intro place
  rw [getElem?_set_of_some there, List.getElem?_modify]
  by_cases here : index = place
  · subst here
    simp [there]
  · simp [here]

/-- One item changes, and with it one summand. -/
theorem sum_modify (f : α → Nat) (change : α → α) {index : Nat} {item : α}
    (there : list[index]? = some item) :
    ((list.modify index change).map f).sum + f item = (list.map f).sum + f (change item) := by
  induction list generalizing index with
  | nil => simp at there
  | cons first rest ih =>
    cases index with
    | zero =>
      obtain rfl : first = item := by simpa using there
      simp only [List.modify_zero_cons, List.map_cons, List.sum_cons]
      omega
    | succ index =>
      have tail := ih (show rest[index]? = some item by simpa using there)
      simp only [List.modify_succ_cons, List.map_cons, List.sum_cons]
      omega

/-- Changing one item changes a count by what it does to that item. -/
theorem countP_modify (keep : α → Bool) (change : α → α) {index : Nat} {item : α}
    (there : list[index]? = some item) :
    (list.modify index change).countP keep + (keep item).toNat =
      list.countP keep + (keep (change item)).toNat := by
  have sum (list : List α) : list.countP keep = (list.map fun item => (keep item).toNat).sum := by
    induction list with
    | nil => rfl
    | cons first rest ih => cases kept : keep first <;> simp [kept, ih, Nat.add_comm]
  rw [sum, sum]
  exact sum_modify _ change there

theorem foldl_add_eq_sum (f : α → Nat) (list : List α) (start : Nat) :
    list.foldl (fun total item => total + f item) start = (list.map f).sum + start := by
  induction list generalizing start with
  | nil => simp
  | cons first rest ih =>
    simp only [List.foldl_cons, List.map_cons, List.sum_cons, ih]
    omega

/-- A price for each item bounds the price of all. -/
theorem sum_le_mul {f g : α → Nat} {price : Nat} (each : ∀ item, f item ≤ price * g item)
    (list : List α) : (list.map f).sum ≤ price * (list.map g).sum := by
  induction list with
  | nil => simp
  | cons first rest ih =>
    simp only [List.map_cons, List.sum_cons, Nat.mul_add]
    exact Nat.add_le_add (each first) ih

/-- An item that contributes nothing gives way to another. -/
theorem filterMap_set_perm (f : α → Option β) {index : Nat} {item : α}
    (there : list[index]? = some item) (before : f item = none) (other : α) :
    ((list.set index other).filterMap f).Perm (list.filterMap f ++ (f other).toList) := by
  rw [set_eq_modify there]
  exact filterMap_modify_perm f (fun _ => other) there before

/-- One item changes that contributes nothing before or after. -/
theorem filterMap_modify_none (f : α → Option β) (change : α → α) {index : Nat} {item : α}
    (there : list[index]? = some item) (before : f item = none) (after : f (change item) = none) :
    ((list.modify index change).filterMap f).Perm (list.filterMap f) := by
  have moved := filterMap_modify_perm f change there before
  rwa [after, Option.toList_none, List.append_nil] at moved

theorem filterMap_snoc_none (f : α → Option β) (list : List α) {item : α}
    (absent : f item = none) : (list ++ [item]).filterMap f = list.filterMap f := by
  rw [List.filterMap_append, List.filterMap_cons_none absent, List.filterMap_nil, List.append_nil]

/-- The places of the items that pass a test are as many as the items. -/
theorem length_places (list : List α) (keep : α → Bool) :
    ((List.range list.length).filter fun place => (list[place]?).any keep).length =
      list.countP keep := by
  induction list with
  | nil => rfl
  | cons first rest ih =>
    rw [List.length_cons, List.range_succ_eq_map, List.filter_cons, List.filter_map]
    cases kept : keep first <;> simpa [kept, Function.comp_def] using ih

/-- A choice that depends on a test is a filter. -/
theorem filterMap_keep {f : α → Option β} (keep : α → Bool) (result : α → β)
    (each : ∀ item ∈ list, f item = if keep item then some (result item) else none) :
    list.filterMap f = (list.filter keep).map result := by
  induction list with
  | nil => rfl
  | cons item rest ih =>
    have others := ih fun other member => each other (List.mem_cons_of_mem _ member)
    have own := each item List.mem_cons_self
    cases kept : keep item <;> simp [own, kept, others]

end UnitCompiler
