import Mathlib.Data.Bool.AllAny
import UnitCompiler.Proofs.JsonSpelling

/-! Values read back as they were written, whatever follows them. The reader's fuel need only reach the
size of a value, and the text of a value is at least as long as that. -/

namespace UnitCompiler.Json

/-- Nothing follows, or one of some marks. -/
def Follows (marks : List Char) (rest : Bytes) : Prop :=
  ∀ b ∈ rest.head?, b ∈ marks.map code

def closing : List Char := [',', ']', '\x7d']

theorem Follows.mono {marks more : List Char} {rest : Bytes} (follows : Follows marks rest)
    (sub : marks ⊆ more) : Follows more rest :=
  fun b first => List.map_subset code sub (follows b first)

theorem follows_nil (marks : List Char) : Follows marks [] := by
  simp [Follows]

/-! ## Numbers -/

structure Number.Written (n : Number) : Prop where
  whole : n.whole ≠ [] ∧ (n.whole.head? = some 0 → n.whole.length = 1)
  digits : (∀ d ∈ n.whole, d < 10) ∧ ∀ d ∈ n.fraction, d < 10
  exponent : ∀ e ∈ n.exponent, e.digits ≠ [] ∧ ∀ d ∈ e.digits, d < 10

theorem digit_read : ∀ d < 10, (Char.ofNat ('0'.toNat + d)).toNat < 128 ∧
    isDigit (code (Char.ofNat ('0'.toNat + d))) = true ∧
    (code (Char.ofNat ('0'.toNat + d))).toNat - 48 = d := by
  decide

-- The lists are searched item by item, and not through all bytes.
theorem isDigit_mark : ∀ b ∈ ('.' :: 'e' :: closing).map code, isDigit b = false :=
  List.all_iff_forall_prop.mp (by decide)

theorem takeDigits_end {rest : Bytes} (follows : Follows ('.' :: 'e' :: closing) rest) :
    takeDigits rest = ([], rest) := by
  cases rest with
  | nil => rfl
  | cons b rest =>
    have mark := isDigit_mark b (follows b rfl)
    simp [takeDigits, mark]

theorem takeDigits_digitChars {digits : List Nat} (small : ∀ d ∈ digits, d < 10) {rest : Bytes}
    (follows : Follows ('.' :: 'e' :: closing) rest) :
    takeDigits (utf8 (digitChars digits) ++ rest) = (digits, rest) := by
  induction digits with
  | nil => exact takeDigits_end follows
  | cons d digits ih =>
    obtain ⟨short, digit, value⟩ := digit_read d (small d List.mem_cons_self)
    have others := ih fun other member => small other (List.mem_cons_of_mem d member)
    simp only [takeDigits, Prod.mk.injEq] at others
    simp only [takeDigits, digitChars, List.map_cons, utf8_cons_code short, List.cons_append,
      List.takeWhile_cons, List.dropWhile_cons, digit, if_true, value, Prod.mk.injEq, List.cons.injEq,
      true_and]
    exact others

theorem digitChars_start {digits : List Nat} (filled : digits ≠ []) (small : ∀ d ∈ digits, d < 10)
    (text : List Char) :
    ∃ d rest, utf8 (digitChars digits ++ text) = code (Char.ofNat ('0'.toNat + d)) :: rest ∧ d < 10 := by
  obtain ⟨d, digits, rfl⟩ := List.exists_cons_of_ne_nil filled
  have below := small d List.mem_cons_self
  exact ⟨d, _, by rw [digitChars, List.map_cons, List.cons_append, utf8_cons_code (digit_read d below).1],
    below⟩

def Exponent.chars (e : Exponent) : List Char :=
  'e' :: e.sign.chars ++ digitChars e.digits

theorem readExponent_none {rest : Bytes} (follows : Follows closing rest) :
    readExponent rest = some (none, rest) := by
  cases rest with
  | nil => rfl
  | cons b rest =>
    have mark : ∀ b ∈ closing.map code, (b == code 'e' || b == code 'E') = false :=
      List.all_iff_forall_prop.mp (by decide)
    simp [readExponent, mark b (follows b rfl)]

theorem readExponent_some {e : Exponent} (digits : e.digits ≠ []) (small : ∀ d ∈ e.digits, d < 10)
    {rest : Bytes} (follows : Follows closing rest) :
    readExponent (utf8 e.chars ++ rest) = some (some e, rest) := by
  obtain ⟨sign, list⟩ := e
  have taken := takeDigits_digitChars small (follows.mono (by simp))
  have filled : list.isEmpty = false := by simpa using digits
  cases sign with
  | unsigned =>
    obtain ⟨d, inside, start, below⟩ := digitChars_start digits small []
    have plus : ∀ d < 10, (code (Char.ofNat ('0'.toNat + d)) == code '+') = false := by decide
    have minus : ∀ d < 10, (code (Char.ofNat ('0'.toNat + d)) == code '-') = false := by decide
    rw [List.append_nil] at start
    simp only [Exponent.chars, ExponentSign.chars, List.cons_append, List.nil_append,
      utf8_cons_code (show 'e'.toNat < 128 by decide), start] at taken ⊢
    simp only [readExponent, beq_self_eq_true, Bool.true_or, if_true, plus d below, minus d below,
      Bool.false_eq_true, if_false, taken, filled]
  | plus =>
    simp [Exponent.chars, ExponentSign.chars, utf8_cons_code, readExponent, taken, filled]
  | minus =>
    have other : (code '-' == code '+') = false := by decide
    simp [Exponent.chars, ExponentSign.chars, utf8_cons_code, readExponent, taken, filled, other]

theorem readFraction_written {digits : List Nat} (small : ∀ d ∈ digits, d < 10) {rest : Bytes}
    (follows : Follows ('e' :: closing) rest) :
    readFraction (utf8 (if digits.isEmpty then [] else '.' :: digitChars digits) ++ rest) =
      some (digits, rest) := by
  cases digits with
  | nil =>
    cases rest with
    | nil => rfl
    | cons b rest =>
      have mark : ∀ b ∈ ('e' :: closing).map code, (b == code '.') = false :=
        List.all_iff_forall_prop.mp (by decide)
      simp [readFraction, mark b (follows b rfl)]
  | cons d digits =>
    have taken := takeDigits_digitChars small (follows.mono (by simp))
    simp [utf8_cons_code, readFraction, taken]

theorem exponent_follows (e : Option Exponent) {rest : Bytes} (follows : Follows closing rest) :
    Follows ('e' :: closing) (utf8 (e.elim [] Exponent.chars) ++ rest) := by
  cases e with
  | none => exact follows.mono (List.subset_cons_self _ _)
  | some e =>
    intro b first
    rw [Option.elim_some, Exponent.chars, List.cons_append, utf8_cons_code (by decide)] at first
    cases first
    exact List.mem_cons_self

theorem fraction_follows (digits : List Nat) {rest : Bytes} (follows : Follows ('e' :: closing) rest) :
    Follows ('.' :: 'e' :: closing)
      (utf8 (if digits.isEmpty then [] else '.' :: digitChars digits) ++ rest) := by
  cases digits with
  | nil => exact follows.mono (List.subset_cons_self _ _)
  | cons d digits =>
    intro b first
    rw [List.isEmpty_cons, if_neg Bool.false_ne_true, utf8_cons_code (by decide)] at first
    cases first
    exact List.mem_cons_self

theorem Number.chars_eq (n : Number) : n.chars = (if n.negative then ['-'] else []) ++
    (digitChars n.whole ++ ((if n.fraction.isEmpty then [] else '.' :: digitChars n.fraction) ++
      n.exponent.elim [] Exponent.chars)) := by
  rw [Number.chars, List.append_assoc, List.append_assoc]
  cases n.exponent <;> rfl

theorem readNumber_chars {n : Number} (written : n.Written) {rest : Bytes}
    (follows : Follows closing rest) : readNumber (utf8 n.chars ++ rest) = some (n, rest) := by
  obtain ⟨negative, whole, fraction, exponent⟩ := n
  obtain ⟨⟨filled, single⟩, ⟨small, smallFraction⟩, proper⟩ := written
  dsimp only at filled single small smallFraction proper
  have last : readExponent (utf8 (exponent.elim [] Exponent.chars) ++ rest) = some (exponent, rest) := by
    cases exponent with
    | none => exact readExponent_none follows
    | some e => exact readExponent_some (proper e rfl).1 (proper e rfl).2 follows
  have ending := exponent_follows exponent follows
  have middle := readFraction_written smallFraction ending
  have first := takeDigits_digitChars small (fraction_follows fraction ending)
  have allowed : (whole.isEmpty || (whole.head? == some 0 && whole.length != 1)) = false := by
    by_cases zero : whole.head? = some 0 <;> simp [filled, zero, single]
  simp only [Number.chars_eq, utf8_append, List.append_assoc]
  cases negative with
  | true =>
    simp only [if_true, utf8_cons_code (show '-'.toNat < 128 by decide), utf8_nil, List.cons_append,
      List.nil_append, readNumber, beq_self_eq_true, first, allowed, Bool.false_eq_true, if_false, middle,
      last, Option.bind_eq_bind, Option.bind_some, Option.pure_def]
  | false =>
    obtain ⟨d, inside, start, below⟩ := digitChars_start filled small []
    have sign : ∀ d < 10, (code (Char.ofNat ('0'.toNat + d)) == code '-') = false := by decide
    rw [List.append_nil] at start
    rw [start, List.cons_append] at first
    simp only [Bool.false_eq_true, if_false, utf8_nil, List.nil_append, start, List.cons_append, readNumber,
      sign d below, first, allowed, middle, last, Option.bind_eq_bind, Option.bind_some, Option.pure_def]

/-! ## Sequences -/

def numberStart : List Char := ['-', '0', '1', '2', '3', '4', '5', '6', '7', '8', '9']

def opening : List Char := ['\"', '[', '\x7b', 'n', 't', 'f'] ++ numberStart

/-- A text that is read whole as an item, whatever closes it. -/
structure Readable {α : Type} (item : Bytes → Option (α × Bytes)) (text : List Char) (value : α) :
    Prop where
  start : ∃ c ∈ opening, ∃ more, text = c :: more
  read : ∀ rest, Follows closing rest → item (utf8 text ++ rest) = some (value, rest)

theorem opening_start : ∀ c ∈ opening, c.toNat < 128 ∧ isBlank (code c) = false ∧
    code c ∉ closing.map code :=
  List.all_iff_forall_prop.mp (by decide)

theorem skipBlank_cons {b : UInt8} (visible : isBlank b = false) (rest : Bytes) :
    skipBlank (b :: rest) = b :: rest := by
  simp [skipBlank, visible]

def joined {α : Type} (chars : α → List Char) (items : List α) : List Char :=
  [','].intercalate (items.map chars)

variable {α : Type} {item : Bytes → Option (α × Bytes)} {chars : α → List Char}

theorem joined_cons_cons (first next : α) (items : List α) :
    joined chars (first :: next :: items) = chars first ++ ',' :: joined chars (next :: items) :=
  List.intercalate_cons_cons.trans (List.append_assoc _ _ _)

theorem length_le_joined (chars : α → List Char) {items : List α} {first : α} (member : first ∈ items) :
    (chars first).length ≤ (joined chars items).length := by
  induction items with
  | nil => cases member
  | cons other items ih =>
    cases items with
    | nil => simp [List.mem_singleton.mp member, joined]
    | cons next items =>
      rw [joined_cons_cons, List.length_append, List.length_cons]
      rcases List.mem_cons.mp member with rfl | later
      · omega
      · have := ih later
        omega

theorem count_le_joined (chars : α → List Char) (items : List α) (filled : ∀ i ∈ items, chars i ≠ []) :
    items.length ≤ (joined chars items).length := by
  induction items with
  | nil => simp
  | cons first items ih =>
    cases items with
    | nil =>
      have positive := List.length_pos_iff.mpr (filled first List.mem_cons_self)
      rw [joined, List.map_singleton, List.intercalate_singleton]
      exact positive
    | cons next items =>
      have rest := ih fun i member => filled i (List.mem_cons_of_mem first member)
      simp only [joined_cons_cons, List.length_append, List.length_cons] at rest ⊢
      omega

theorem readItems_joined {close : Char} (closes : close = ']' ∨ close = '\x7d') {items : List α}
    (readable : ∀ i ∈ items, Readable item (chars i) i) (filled : items ≠ []) {fuel : Nat}
    (enough : items.length ≤ fuel) (rest : Bytes) :
    readItems item (code close) fuel (utf8 (joined chars items) ++ code close :: rest) =
      some (items, rest) := by
  induction items generalizing fuel with
  | nil => contradiction
  | cons first items ih =>
    obtain ⟨fuel, rfl⟩ : ∃ less, fuel = less + 1 := ⟨fuel - 1, by simp at enough; omega⟩
    have read := (readable first List.mem_cons_self).read
    cases items with
    | nil =>
      have follows : Follows closing (code close :: rest) := by
        rintro b ⟨⟩
        exact List.mem_map_of_mem (by rcases closes with rfl | rfl <;> decide)
      have mark : isBlank (code close) = false ∧ code close ≠ code ',' := by
        rcases closes with rfl | rfl <;> decide
      rw [joined, List.map_singleton, List.intercalate_singleton, readItems, read _ follows]
      simp [skipBlank_cons mark.1, mark.2]
    | cons next items =>
      have follows (bytes : Bytes) : Follows closing (code ',' :: bytes) := by
        rintro b ⟨⟩
        exact List.mem_map_of_mem (by decide)
      have comma : isBlank (code ',') = false := by decide
      have later := ih (fun i member => readable i (List.mem_cons_of_mem first member)) (by simp)
        (Nat.le_of_succ_le_succ enough)
      rw [joined_cons_cons, utf8_append, utf8_cons_code (by decide), List.append_assoc, List.cons_append,
        readItems, read _ (follows _)]
      simp [skipBlank_cons comma, later]

theorem readSequence_joined {close : Char} (closes : close = ']' ∨ close = '\x7d') {items : List α}
    (readable : ∀ i ∈ items, Readable item (chars i) i) {fuel : Nat} (enough : items.length ≤ fuel)
    (rest : Bytes) :
    readSequence item (code close) fuel (utf8 (joined chars items) ++ code close :: rest) =
      some (items, rest) := by
  cases items with
  | nil =>
    have visible : isBlank (code close) = false := by rcases closes with rfl | rfl <;> decide
    simp [readSequence, joined, skipBlank_cons visible]
  | cons first items =>
    have read := readItems_joined closes readable (by simp) enough rest
    obtain ⟨c, opens, more, start⟩ := (readable first List.mem_cons_self).start
    obtain ⟨short, visible, apart⟩ := opening_start c opens
    have other : (code c == code close) = false := by
      rw [beq_eq_false_iff_ne]
      intro same
      rw [same] at apart
      exact apart (List.mem_map_of_mem (by rcases closes with rfl | rfl <;> decide))
    obtain ⟨tail, text⟩ : ∃ tail, joined chars (first :: items) = c :: tail := by
      cases items with
      | nil => exact ⟨more, by rw [joined, List.map_singleton, List.intercalate_singleton, start]⟩
      | cons next items => exact ⟨_, by rw [joined_cons_cons, start, List.cons_append]⟩
    rw [text, utf8_cons_code short, List.cons_append] at read ⊢
    rw [readSequence, skipBlank_cons visible]
    simp only [other, Bool.false_eq_true, if_false, read]

/-! ## Values -/

inductive Written : Json → Prop where
  | null : Written .null
  | bool (value : Bool) : Written (.bool value)
  | number (value : Number) : value.Written → Written (.number value)
  | text (value : String) : Written (.text (some value))
  | array (items : List Json) : (∀ i ∈ items, Written i) → Written (.array items)
  | object (fields : List (Text × Json)) : (∀ f ∈ fields, f.1.isSome = true) →
      (∀ f ∈ fields, Written f.2) → Written (.object fields)

def fieldChars (field : Text × Json) : List Char :=
  Text.chars field.1 ++ ':' :: field.2.chars

mutual

theorem onto_eq : ∀ (json : Json) (rest : List Char), json.onto rest = json.chars ++ rest
  | .null, _ | .bool true, _ | .bool false, _ => rfl
  | .number value, rest => by simp [onto, Json.chars]
  | .text value, rest => by simp [onto, Json.chars]
  | .array items, rest => by simp [onto, Json.chars, itemsOnto_eq items]
  | .object fields, rest => by simp [onto, Json.chars, fieldsOnto_eq fields]

theorem itemsOnto_eq : ∀ (items : List Json) (rest : List Char),
    itemsOnto items rest = joined Json.chars items ++ rest
  | [], _ => rfl
  | [item], rest => by simp [itemsOnto, joined, onto_eq item]
  | item :: next :: items, rest => by
    rw [itemsOnto, onto_eq item, itemsOnto_eq (next :: items), joined_cons_cons, List.append_assoc,
      List.cons_append]

theorem fieldsOnto_eq : ∀ (fields : List (Text × Json)) (rest : List Char),
    fieldsOnto fields rest = joined fieldChars fields ++ rest
  | [], _ => rfl
  | [(key, value)], rest => by simp [fieldsOnto, joined, fieldChars, onto_eq value]
  | (key, value) :: next :: fields, rest => by
    rw [fieldsOnto, onto_eq value, fieldsOnto_eq (next :: fields), joined_cons_cons, fieldChars]
    simp

end

theorem chars_array (items : List Json) :
    (Json.array items).chars = '[' :: joined Json.chars items ++ [']'] := by
  rw [Json.chars, onto, itemsOnto_eq, List.cons_append]

theorem chars_object (fields : List (Text × Json)) :
    (Json.object fields).chars = '\x7b' :: joined fieldChars fields ++ ['\x7d'] := by
  rw [Json.chars, onto, fieldsOnto_eq, List.cons_append]

theorem Number.Written.start {n : Number} (written : n.Written) :
    ∃ c ∈ numberStart, ∃ more, n.chars = c :: more := by
  obtain ⟨negative, whole, fraction, exponent⟩ := n
  obtain ⟨d, digits, rfl⟩ := List.exists_cons_of_ne_nil written.whole.1
  have digit : ∀ d < 10, Char.ofNat ('0'.toNat + d) ∈ numberStart := by decide
  rw [Number.chars_eq]
  cases negative with
  | true => exact ⟨'-', List.mem_cons_self, _, rfl⟩
  | false => exact ⟨_, digit d (written.digits.1 d List.mem_cons_self), _, rfl⟩

theorem Written.start {json : Json} (written : json.Written) :
    ∃ c ∈ opening, ∃ more, json.chars = c :: more := by
  cases written with
  | null => exact ⟨'n', by decide, _, rfl⟩
  | bool value => cases value <;> exact ⟨_, by decide, _, rfl⟩
  | number value written =>
    obtain ⟨c, digit, more, text⟩ := written.start
    exact ⟨c, List.mem_append_right _ digit, more, by rw [Json.chars, onto, List.append_nil, text]⟩
  | text value => exact ⟨'\"', by decide, _, rfl⟩
  | array items each => exact ⟨'[', by decide, _, chars_array items⟩
  | object fields keys each => exact ⟨'\x7b', by decide, _, chars_object fields⟩

theorem readField_readable {value : Bytes → Option (Json × Bytes)} {field : Text × Json}
    (key : field.1.isSome = true) (readable : Readable value field.2.chars field.2) :
    Readable (readField value) (fieldChars field) field := by
  obtain ⟨_ | name, content⟩ := field
  · contradiction
  refine ⟨⟨'\"', by decide, _, rfl⟩, fun rest follows => ?_⟩
  obtain ⟨inside, text, read⟩ := readString_quoted name
  have quote : isBlank (code '\"') = false := by decide
  have colon : isBlank (code ':') = false := by decide
  simp [readField, fieldChars, text, utf8_cons_code, skipBlank_cons quote, read, skipBlank_cons colon,
    readable.read rest follows]

/-- Neither a string, an array, an object nor a word starts like a number. -/
theorem number_start : ∀ c ∈ numberStart, c.toNat < 128 ∧ isBlank (code c) = false ∧
    code c ∉ ['\"', '[', '\x7b', 'n', 't', 'f'].map code :=
  List.all_iff_forall_prop.mp (by decide)

theorem readValue_number {n : Number} (written : n.Written) (fuel : Nat) {rest : Bytes}
    (follows : Follows closing rest) :
    readValue (fuel + 1) (utf8 (Json.number n).chars ++ rest) = some (.number n, rest) := by
  have read := readNumber_chars written follows
  obtain ⟨c, digit, more, start⟩ := written.start
  obtain ⟨short, visible, other⟩ := number_start c digit
  simp only [List.map_cons, List.map_nil, List.mem_cons, List.not_mem_nil, or_false, not_or] at other
  rw [start, utf8_cons_code short, List.cons_append] at read
  rw [Json.chars, onto, List.append_nil, start, utf8_cons_code short, List.cons_append, readValue,
    skipBlank_cons visible]
  simp [other, read]

theorem readValue_quote (fuel : Nat) (rest : Bytes) : readValue (fuel + 1) (code '\"' :: rest) =
    (readString rest).map fun (content, rest) => (.text content, rest) :=
  rfl

theorem readValue_bracket (fuel : Nat) (rest : Bytes) : readValue (fuel + 1) (code '[' :: rest) =
    (readSequence (readValue fuel) (code ']') fuel rest).map fun (items, rest) => (.array items, rest) :=
  rfl

theorem readValue_brace (fuel : Nat) (rest : Bytes) : readValue (fuel + 1) (code '\x7b' :: rest) =
    (readSequence (readField (readValue fuel)) (code '\x7d') fuel rest).map
      fun (fields, rest) => (.object fields, rest) :=
  rfl

theorem Written.chars_ne_nil {json : Json} (written : json.Written) : json.chars ≠ [] := by
  obtain ⟨c, -, more, text⟩ := written.start
  simp [text]

theorem fieldChars_ne_nil (field : Text × Json) : fieldChars field ≠ [] := by
  simp [fieldChars]

theorem readValue_array {items : List Json} {fuel : Nat}
    (readable : ∀ i ∈ items, Readable (readValue fuel) i.chars i) (enough : items.length ≤ fuel)
    (rest : Bytes) :
    readValue (fuel + 1) (utf8 (Json.array items).chars ++ rest) = some (.array items, rest) := by
  rw [chars_array, List.cons_append, utf8_cons_code (by decide), List.cons_append, readValue_bracket,
    utf8_append, utf8_cons_code (by decide), utf8_nil, List.append_assoc, List.singleton_append,
    readSequence_joined (.inl rfl) readable enough, Option.map_some]

theorem readValue_object {fields : List (Text × Json)} {fuel : Nat}
    (readable : ∀ f ∈ fields, Readable (readField (readValue fuel)) (fieldChars f) f)
    (enough : fields.length ≤ fuel) (rest : Bytes) :
    readValue (fuel + 1) (utf8 (Json.object fields).chars ++ rest) = some (.object fields, rest) := by
  rw [chars_object, List.cons_append, utf8_cons_code (by decide), List.cons_append, readValue_brace,
    utf8_append, utf8_cons_code (by decide), utf8_nil, List.append_assoc, List.singleton_append,
    readSequence_joined (.inr rfl) readable enough, Option.map_some]

/-- A value whose text the reader's fuel covers is read, whatever closes it. -/
def Covered (json : Json) : Prop :=
  ∀ fuel, json.chars.length ≤ fuel → ∀ rest, Follows closing rest →
    readValue fuel (utf8 json.chars ++ rest) = some (json, rest)

theorem Covered.of_succ {json : Json} (written : json.Written)
    (read : ∀ fuel, json.chars.length ≤ fuel + 1 → ∀ rest, Follows closing rest →
      readValue (fuel + 1) (utf8 json.chars ++ rest) = some (json, rest)) : json.Covered := by
  intro fuel enough
  have positive := List.length_pos_iff.mpr written.chars_ne_nil
  obtain ⟨less, rfl⟩ : ∃ less, fuel = less + 1 := ⟨fuel - 1, by omega⟩
  exact read less enough

theorem Covered.array {items : List Json} (each : ∀ i ∈ items, i.Written) (covered : ∀ i ∈ items, i.Covered) :
    (Json.array items).Covered := by
  refine .of_succ (.array items each) fun fuel enough rest _ => ?_
  have count := count_le_joined Json.chars items fun i member => (each i member).chars_ne_nil
  rw [chars_array, List.length_append, List.length_cons] at enough
  refine readValue_array (fun i member => ⟨(each i member).start, covered i member fuel ?_⟩) (by omega) rest
  have shorter := length_le_joined Json.chars member
  omega

theorem Covered.object {fields : List (Text × Json)} (keys : ∀ f ∈ fields, f.1.isSome = true)
    (each : ∀ f ∈ fields, f.2.Written) (covered : ∀ f ∈ fields, f.2.Covered) :
    (Json.object fields).Covered := by
  refine .of_succ (.object fields keys each) fun fuel enough rest _ => ?_
  have count := count_le_joined fieldChars fields fun f _ => fieldChars_ne_nil f
  rw [chars_object, List.length_append, List.length_cons] at enough
  refine readValue_object (fun f member => readField_readable (keys f member)
    ⟨(each f member).start, covered f member fuel ?_⟩) (by omega) rest
  have shorter := length_le_joined fieldChars member
  rw [fieldChars, List.length_append, List.length_cons] at shorter
  omega

theorem Written.covered {json : Json} (written : json.Written) : json.Covered := by
  induction written with
  | null => exact .of_succ .null fun fuel _ rest _ => rfl
  | bool value => exact .of_succ (.bool value) fun fuel _ rest _ => by cases value <;> rfl
  | number value written =>
    exact .of_succ (.number value written) fun fuel _ rest follows => readValue_number written fuel follows
  | text value =>
    refine .of_succ (.text value) fun fuel _ rest _ => ?_
    obtain ⟨inside, text, read⟩ := readString_quoted value
    rw [Json.chars, onto, List.append_nil, text, List.cons_append, readValue_quote, read, Option.map_some]
  | array items each ih => exact .array each ih
  | object fields keys each ih => exact .object keys each ih

theorem parse_bytes {json : Json} (written : json.Written) : parse json.bytes = some json := by
  have enough : json.chars.length ≤ json.bytes.length + 1 :=
    Nat.le_succ_of_le (length_le_utf8 json.chars)
  have read := written.covered _ enough [] (follows_nil closing)
  rw [List.append_nil, show utf8 json.chars = json.bytes from rfl] at read
  simp [parse, read, skipBlank]

end UnitCompiler.Json
