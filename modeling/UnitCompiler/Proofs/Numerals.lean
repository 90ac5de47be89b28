import UnitCompiler.Json.Number
import UnitCompiler.Proofs.JsonReading

/-! The numbers of the compiler are written numbers. Integers read back as they are; a decimal is
written with digits that start with no zero, since its shortest coefficient is never zero. -/

namespace UnitCompiler

namespace Binary64

/-! ## Digits -/

theorem digitChar_value : ∀ d < 10, (Nat.digitChar d).toNat - '0'.toNat = d := by
  decide

theorem decimalDigits_eq (n : Nat) :
    decimalDigits n = if n < 10 then [n] else decimalDigits (n / 10) ++ [n % 10] := by
  rw [decimalDigits, Nat.toDigits_eq_if (by omega)]
  split
  · next small => simp only [List.map_singleton, digitChar_value n small]
  · simp only [List.map_append, List.map_singleton, digitChar_value (n % 10) (by omega), decimalDigits]

theorem digitsValue_snoc (digits : List Nat) (last : Nat) :
    digitsValue (digits ++ [last]) = digitsValue digits * 10 + last := by
  simp [digitsValue]

structure Spelled (digits : List Nat) (n : Nat) : Prop where
  filled : digits ≠ []
  small : ∀ d ∈ digits, d < 10
  value : digitsValue digits = n
  leading : digits.head? = some 0 → digits = [0]

theorem decimalDigits_spelled (n : Nat) : Spelled (decimalDigits n) n := by
  induction n using Nat.strongRecOn with
  | ind n ih =>
    rw [decimalDigits_eq]
    split
    · next small => exact ⟨by simp, by simpa using small, by simp [digitsValue], by simp⟩
    · next large =>
      obtain ⟨filled, small, value, leading⟩ := ih (n / 10) (by omega)
      refine ⟨by simp, ?_, ?_, ?_⟩
      · intro d member
        rcases List.mem_append.mp member with first | last
        · exact small d first
        · have := List.mem_singleton.mp last
          omega
      · rw [digitsValue_snoc, value]
        omega
      · intro zero
        have zero : (decimalDigits (n / 10)).head? = some 0 := by
          obtain ⟨first, others, digits⟩ := List.exists_cons_of_ne_nil filled
          rw [digits] at zero ⊢
          exact zero
        rw [leading zero] at value
        simp only [digitsValue, List.foldl_cons, List.foldl_nil] at value
        omega

structure Significant (digits : List Nat) : Prop where
  filled : digits ≠ []
  small : ∀ d ∈ digits, d < 10
  leading : digits.head? ≠ some 0

theorem dropTrailingZeros_cons {first : Nat} (nonzero : first ≠ 0) (others : List Nat) :
    dropTrailingZeros (first :: others) = first :: dropTrailingZeros others := by
  rw [dropTrailingZeros, dropTrailingZeros, List.reverse_cons, List.dropWhile_append]
  split
  · next none =>
    rw [List.isEmpty_iff] at none
    simp [none, nonzero]
  · simp

theorem dropTrailingZeros_significant {digits : List Nat} {n : Nat} (spelled : Spelled digits n)
    (positive : 0 < n) : Significant (dropTrailingZeros digits) := by
  obtain ⟨first, others, rfl⟩ := List.exists_cons_of_ne_nil spelled.filled
  have nonzero : first ≠ 0 := by
    rintro rfl
    have value := spelled.value
    rw [spelled.leading rfl] at value
    simp only [digitsValue, List.foldl_cons, List.foldl_nil] at value
    omega
  rw [dropTrailingZeros_cons nonzero]
  refine ⟨by simp, fun d member => spelled.small d ?_, by simpa using nonzero⟩
  rcases List.mem_cons.mp member with rfl | other
  · exact List.mem_cons_self
  · rw [dropTrailingZeros, List.mem_reverse] at other
    exact List.mem_cons_of_mem first (List.mem_reverse.mp (List.dropWhile_subset _ other))

/-! ## Shortest coefficients -/

/-- The ratio is not below a power of ten. -/
def Reached (num den : Nat) (exponent : Int) : Prop :=
  if 0 ≤ exponent then den * powerOfTen exponent.toNat ≤ num
  else den ≤ num * powerOfTen (-exponent).toNat

theorem powerOfTen_succ (n : Nat) : powerOfTen (n + 1) = powerOfTen n * 10 := rfl

theorem Reached.pred {num den : Nat} {exponent : Int} (reached : Reached num den exponent) :
    Reached num den (exponent - 1) := by
  unfold Reached at *
  by_cases positive : 0 < exponent
  · obtain ⟨n, rfl⟩ : ∃ n : Nat, exponent = n + 1 := ⟨(exponent - 1).toNat, by omega⟩
    rw [if_pos (by omega), show ((n : Int) + 1).toNat = n + 1 by omega, powerOfTen_succ] at reached
    rw [if_pos (by omega), show ((n : Int) + 1 - 1).toNat = n by omega]
    exact Nat.le_trans (Nat.mul_le_mul_left den (Nat.le_mul_of_pos_right _ (by omega))) reached
  · obtain ⟨n, rfl⟩ : ∃ n : Nat, exponent = -n := ⟨(-exponent).toNat, by omega⟩
    have below : den ≤ num * powerOfTen n := by
      split at reached
      · next zero =>
        obtain rfl : n = 0 := by omega
        simpa [powerOfTen] using reached
      · rwa [show (-(-(n : Int))).toNat = n by omega] at reached
    rw [if_neg (by omega), show (-(-(n : Int) - 1)).toNat = n + 1 by omega, powerOfTen_succ,
      ← Nat.mul_assoc]
    omega

theorem leadingExponent_reached {num den : Nat} (fuel : Nat) (start : Int)
    (last : Reached num den (start - fuel)) : Reached num den (leadingExponent num den fuel start) := by
  induction fuel generalizing start with
  | zero => simpa [leadingExponent] using last
  | succ fuel ih =>
    by_cases reached : Reached num den start
    · rw [show leadingExponent num den (fuel + 1) start = start from if_pos reached]
      exact reached
    · rw [show leadingExponent num den (fuel + 1) start = leadingExponent num den fuel (start - 1) from
        if_neg reached]
      exact ih (start - 1) (by rwa [show start - 1 - (fuel : Int) = start - (fuel + 1 : Nat) by omega])

theorem Interval.floorAt_pos {i : Interval} (scale : 0 < i.scale) {exponent : Int}
    (reached : Reached i.center i.scale exponent) : 0 < i.floorAt exponent := by
  unfold Reached at reached
  unfold floorAt
  split at reached
  · next whole =>
    rw [if_pos whole]
    exact Nat.div_pos reached (Nat.mul_pos scale (Nat.pow_pos (by omega)))
  · next part =>
    rw [if_neg part]
    exact Nat.div_pos reached scale

theorem Interval.pick_pos {i : Interval} {exponent : Int} (floor : 0 < i.floorAt exponent)
    {d : Decimal} (picked : i.pick exponent = some d) : 0 < d.coefficient := by
  unfold pick at picked
  grind

theorem Interval.shortest_pos {i : Interval} (scale : 0 < i.scale) (fuel : Nat) {exponent : Int}
    (reached : Reached i.center i.scale exponent) : 0 < (i.shortest fuel exponent).coefficient := by
  induction fuel generalizing exponent with
  | zero => exact floorAt_pos scale reached
  | succ fuel ih =>
    rw [shortest]
    split
    · next d picked => exact pick_pos (floorAt_pos scale reached) picked
    · exact ih reached.pred

theorem Interval.leading_pos {i : Interval} (scale : 0 < i.scale) (grids fuel : Nat) (start : Int)
    (last : Reached i.center i.scale (start - fuel)) :
    0 < (i.shortest grids (leadingExponent i.center i.scale fuel start)).coefficient :=
  shortest_pos scale grids (leadingExponent_reached fuel start last)

theorem shortestDigits_significant {significand : Nat} (positive : 0 < significand) (exponent : Nat) :
    Significant (shortestDigits significand exponent).digits := by
  have scale : 0 < (Interval.around significand exponent).scale := by
    show 0 < 1 <<< 1076
    rw [Nat.one_shiftLeft]
    exact Nat.two_pow_pos 1076
  -- The last candidate is below the least double, so that some power of ten is always reached.
  have least : Reached (Interval.around significand exponent).center
      (Interval.around significand exponent).scale (309 - (640 : Nat)) := by
    have center : 4 ≤ (Interval.around significand exponent).center := by
      show 4 ≤ (4 * significand) <<< exponent
      rw [Nat.shiftLeft_eq]
      exact Nat.le_trans (by omega : 4 ≤ 4 * significand)
        (Nat.le_mul_of_pos_right _ (Nat.two_pow_pos exponent))
    have power : 1 <<< 1076 ≤ 4 * powerOfTen 331 := by decide +kernel
    rw [Reached, if_neg (by decide)]
    exact Nat.le_trans power (Nat.mul_le_mul_right _ center)
  exact dropTrailingZeros_significant (decimalDigits_spelled _)
    (Interval.leading_pos scale 18 640 309 least)

end Binary64

namespace Json

open Binary64

/-! ## Written numbers -/

theorem Number.ofInt_written (value : Int) : (Number.ofInt value).Written := by
  obtain ⟨filled, small, -, leading⟩ := decimalDigits_spelled value.natAbs
  refine ⟨⟨filled, fun zero => ?_⟩, ⟨small, by simp [Number.ofInt]⟩, by simp [Number.ofInt]⟩
  show (decimalDigits value.natAbs).length = 1
  rw [leading zero, List.length_singleton]

theorem Number.toInt64?_ofInt (value : Int64) : (Number.ofInt value.toInt).toInt64? = some value := by
  have low := value.le_toInt
  have high := value.toInt_lt
  have digits := (decimalDigits_spelled value.toInt.natAbs).value
  simp only [toInt64?, Number.ofInt, digits, List.isEmpty_nil, Option.isSome_none, Bool.not_true,
    Bool.or_self, Bool.false_eq_true, if_false, decide_eq_true_eq]
  split
  · next negative =>
    rw [if_pos (by omega), show -(value.toInt.natAbs : Int) = value.toInt by omega, Int64.ofInt_toInt]
  · next positive =>
    rw [if_pos (by omega), ← Int64.ofInt_eq_ofNat, show (value.toInt.natAbs : Int) = value.toInt by omega,
      Int64.ofInt_toInt]

theorem Number.positional_written (negative : Bool) {digits : List Nat} (significant : Significant digits)
    (exponent : Int) : (Number.positional negative digits exponent).Written := by
  obtain ⟨filled, small, leading⟩ := significant
  obtain ⟨first, others, rfl⟩ := List.exists_cons_of_ne_nil filled
  unfold positional
  split
  · refine ⟨by simp, ⟨by simp, fun d member => ?_⟩, by simp⟩
    rcases List.mem_append.mp member with zero | digit
    · rw [List.eq_of_mem_replicate zero]
      omega
    · exact small d digit
  · dsimp only
    refine ⟨⟨by simp, fun zero => absurd zero leading⟩, ⟨fun d member => ?_, fun d member => ?_⟩, by simp⟩
    · rcases List.mem_append.mp member with digit | zero
      · exact small d (List.take_subset _ _ digit)
      · rw [List.eq_of_mem_replicate zero]
        omega
    · split at member
      · rw [List.mem_singleton.mp member]
        omega
      · exact small d (List.drop_subset _ _ member)

theorem Number.scientific_written (negative : Bool) {digits : List Nat} (significant : Significant digits)
    (exponent : Int) : (Number.scientific negative digits exponent).Written := by
  obtain ⟨filled, small, leading⟩ := significant
  obtain ⟨first, others, rfl⟩ := List.exists_cons_of_ne_nil filled
  obtain ⟨spelled, digit, -, -⟩ := decimalDigits_spelled exponent.natAbs
  refine ⟨⟨by simp [scientific], fun zero => absurd zero leading⟩, ⟨fun d member => ?_, fun d member => ?_⟩, ?_⟩
  · exact small d (List.take_subset _ _ member)
  · exact small d (List.drop_subset _ _ member)
  · rintro e ⟨⟩
    exact ⟨spelled, digit⟩

/-- Zero, the one decimal whose digits start with a zero. -/
theorem Number.zero_written (negative : Bool) : (Number.positional negative [0] 0).Written :=
  ⟨by simp [positional], by simp [positional], by simp [positional]⟩

theorem ofDecimal_written (d : Binary64) : (ofDecimal d).Written := by
  unfold ofDecimal
  split
  · next negative significand exponent value =>
    split
    · exact .number _ (Number.zero_written negative)
    · next nonzero =>
      have significant := shortestDigits_significant (Nat.pos_of_ne_zero nonzero) exponent
      dsimp only
      split
      · exact .number _ (Number.positional_written negative significant _)
      · exact .number _ (Number.scientific_written negative significant _)
  · exact .null

end Json

end UnitCompiler
