import Mathlib.Data.List.TakeWhile
import UnitCompiler.Text.Blank
import UnitCompiler.Text.Dotted

/-! Texts with separators, and the parts that they are cut into. -/

namespace UnitCompiler.Text

variable {separator : Char} {text head rest : List Char}

/-- A text is cut at the first separator. -/
theorem splitFirst_eq_some_iff :
    splitFirst separator text = some (head, rest) ↔
      text = head ++ separator :: rest ∧ separator ∉ head := by
  unfold splitFirst
  constructor
  · intro cut
    split at cut
    · contradiction
    · next first behind found =>
      obtain ⟨rfl, rfl⟩ := Prod.mk.inj (Option.some.inj cut)
      have stop : first = separator := by
        have last := List.head?_dropWhile_not (· != separator) text
        simpa [found] using last
      subst stop
      refine ⟨?_, fun inside => ?_⟩
      · rw [← found]
        exact List.takeWhile_append_dropWhile.symm
      · simpa using List.mem_takeWhile_imp inside
  · rintro ⟨rfl, before⟩
    have all : ∀ c ∈ head, (c != separator) = true := fun c inside => by
      rw [bne_iff_ne]
      rintro rfl
      exact before inside
    rw [List.dropWhile_append_of_pos all, List.takeWhile_append_of_pos all]
    simp

theorem splitFirst_eq_none_iff : splitFirst separator text = none ↔ separator ∉ text := by
  constructor
  · intro uncut
    unfold splitFirst at uncut
    split at uncut
    · next found =>
      intro inside
      simpa using List.dropWhile_eq_nil_iff.mp found separator inside
    · contradiction
  · intro absent
    cases cut : splitFirst separator text with
    | none => rfl
    | some parts =>
      obtain ⟨rfl, -⟩ := splitFirst_eq_some_iff.mp cut
      simp at absent

/-! ## Pieces -/

theorem pieces_eq_splitOn (separator : Char) (text : List Char) :
    pieces separator text = text.splitOn separator := by
  induction text with
  | nil => rfl
  | cons c text ih =>
    rw [pieces, List.splitOn_cons_eq_if_modifyHead, ih]
    simp only [beq_iff_eq]
    split
    · rfl
    · obtain ⟨piece, more, pieces⟩ := List.exists_cons_of_ne_nil (List.splitOn_ne_nil separator text)
      rw [pieces, List.modifyHead_cons]

theorem pieces_ne_nil (separator : Char) (text : List Char) : pieces separator text ≠ [] := by
  rw [pieces_eq_splitOn]
  exact List.splitOn_ne_nil separator text

theorem intercalate_pieces (separator : Char) (text : List Char) :
    [separator].intercalate (pieces separator text) = text := by
  rw [pieces_eq_splitOn]
  exact List.intercalate_splitOn separator

theorem pieces_intercalate {list : List (List Char)} (each : ∀ piece ∈ list, separator ∉ piece)
    (some : list ≠ []) : pieces separator ([separator].intercalate list) = list := by
  rw [pieces_eq_splitOn]
  exact List.splitOn_intercalate separator each some

theorem pieces_of_notMem (absent : separator ∉ text) : pieces separator text = [text] := by
  rw [pieces_eq_splitOn]
  exact List.splitOn_eq_singleton absent

theorem pieces_append (first second : List Char) :
    pieces separator (first ++ separator :: second) = pieces separator first ++ pieces separator second := by
  simp only [pieces_eq_splitOn, List.splitOn]
  exact List.splitOnP_append_cons first second (beq_self_eq_true separator)

theorem notMem_of_mem_pieces {piece : List Char} (member : piece ∈ pieces separator text) :
    separator ∉ piece := by
  induction text generalizing piece with
  | nil => simp_all [pieces]
  | cons c text ih =>
    rw [pieces] at member
    split at member
    · rcases List.mem_cons.mp member with rfl | later
      · exact List.not_mem_nil
      · exact ih later
    · next apart =>
      have front {piece : List Char} (absent : separator ∉ piece) : separator ∉ c :: piece := by
        simp [Ne.symm apart, absent]
      split at member
      · rw [List.mem_singleton.mp member]
        exact front List.not_mem_nil
      · next first more found =>
        rw [found] at ih
        rcases List.mem_cons.mp member with rfl | later
        · exact front (ih List.mem_cons_self)
        · exact ih (List.mem_cons_of_mem _ later)

theorem mem_intercalate_of_mem {list : List (List Char)} {piece : List Char} {c : Char}
    (member : piece ∈ list) (inside : c ∈ piece) : c ∈ [separator].intercalate list := by
  induction list with
  | nil => contradiction
  | cons first rest ih =>
    by_cases some : rest = []
    · subst some
      rw [List.intercalate_singleton, ← List.mem_singleton.mp member]
      exact inside
    · rw [List.intercalate_cons_of_ne_nil some]
      rcases List.mem_cons.mp member with rfl | later
      · simp [inside]
      · simp [ih later]

theorem intercalate_ne_nil (separator : Char) {list : List (List Char)} (some : list ≠ [])
    (each : ∀ piece ∈ list, piece ≠ []) : [separator].intercalate list ≠ [] := by
  obtain ⟨piece, member⟩ := List.exists_mem_of_ne_nil list some
  obtain ⟨c, inside⟩ := List.exists_mem_of_ne_nil piece (each piece member)
  exact List.ne_nil_of_mem (mem_intercalate_of_mem member inside)

theorem exists_of_mem_intercalate {list : List (List Char)} {c : Char}
    (inside : c ∈ [separator].intercalate list) : c = separator ∨ ∃ piece ∈ list, c ∈ piece := by
  induction list with
  | nil => simp at inside
  | cons first rest ih =>
    by_cases some : rest = []
    · subst some
      rw [List.intercalate_singleton] at inside
      exact .inr ⟨first, List.mem_cons_self, inside⟩
    · rw [List.intercalate_cons_of_ne_nil some, List.mem_append, List.mem_append] at inside
      rcases inside with (own | between) | later
      · exact .inr ⟨first, List.mem_cons_self, own⟩
      · exact .inl (List.mem_singleton.mp between)
      · exact (ih later).imp_right fun ⟨piece, member, within⟩ =>
          ⟨piece, List.mem_cons_of_mem first member, within⟩

theorem mem_of_mem_pieces {piece : List Char} {c : Char} (member : piece ∈ pieces separator text)
    (inside : c ∈ piece) : c ∈ text := by
  rw [← intercalate_pieces separator text]
  exact mem_intercalate_of_mem member inside

/-! ## Ends -/

theorem dropWhile_eq_self {p : Char → Bool} : text.dropWhile p = text ↔ ∀ c ∈ text.head?, p c = false := by
  cases text with
  | nil => simp
  | cons c rest => simp [List.dropWhile_eq_self_iff]

/-- Nothing is dropped exactly from a text that has nothing to drop at either end. -/
theorem stripBy_eq_self {p : Char → Bool} : stripBy p text = text ↔
    (∀ c ∈ text.head?, p c = false) ∧ ∀ c ∈ text.getLast?, p c = false := by
  rw [← dropWhile_eq_self, ← List.head?_reverse, ← dropWhile_eq_self, stripBy]
  constructor
  · intro whole
    have ahead := (List.dropWhile_suffix p (l := (text.dropWhile p).reverse)).length_le
    have kept : text.dropWhile p = text := by
      refine (List.dropWhile_suffix p).eq_of_length_le ?_
      rwa [← List.length_reverse, whole, List.length_reverse] at ahead
    rw [kept] at whole
    exact ⟨kept, List.reverse_eq_iff.mp whole⟩
  · rintro ⟨kept, last⟩
    rw [kept, last, List.reverse_reverse]

theorem stripBy_intercalate {p : Char → Bool} {list : List (List Char)}
    (each : ∀ piece ∈ list, piece ≠ [] ∧ stripBy p piece = piece) :
    stripBy p ([separator].intercalate list) = [separator].intercalate list := by
  simp only [stripBy_eq_self] at each ⊢
  induction list with
  | nil => simp
  | cons first rest ih =>
    rw [List.forall_mem_cons] at each
    obtain ⟨⟨some, ends⟩, others⟩ := each
    by_cases only : rest = []
    · subst only
      rwa [List.intercalate_singleton]
    · have behind := intercalate_ne_nil separator only fun piece member => (others piece member).1
      rw [List.intercalate_cons_of_ne_nil only, List.append_assoc]
      refine ⟨?_, ?_⟩
      · rw [List.head?_append, List.head?_eq_some_head some, Option.some_or, ← List.head?_eq_some_head some]
        exact ends.1
      · have last := (ih others).2
        rw [List.getLast?_eq_some_getLast behind] at last
        rw [List.getLast?_append, List.getLast?_append, List.getLast?_eq_some_getLast behind, Option.some_or,
          Option.some_or]
        exact last

end UnitCompiler.Text
