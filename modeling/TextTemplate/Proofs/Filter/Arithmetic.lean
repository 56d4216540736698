import Mathlib.Data.Rat.Floor
import TextTemplate.Filter.Apply
import TextTemplate.Proofs.Value.Numeric
/-! # Arithmetic on integers

Sums, differences and products of integers of 64 bits are exact or, where they do not fit,
floating-point values. Division leaves a remainder that is not negative, so that quotient and
remainder agree; it is not division rounded down where the divisor is negative.
-/

namespace TextTemplate.Filter

open Value

variable {input operand value : Value} {a b n : Int}

/-! ## Operands -/

/-- Null counts as the integer zero. -/
theorem exactInt?_eq_some_iff :
    exactInt? value = some n ↔ value.IsInt64 n ∨ value = .null ∧ n = 0 := by
  constructor
  · intro h
    cases value with
    | null => exact .inr ⟨rfl, (Option.some.inj h).symm⟩
    | string s => exact .inl (readInt64?_trim_eq_some_iff.mp h)
    | number m =>
        cases m with
        | float x => cases h
        | int m =>
            rw [exactInt?, Number.toInt64?, Option.ite_none_right_eq_some] at h
            obtain ⟨hfits, ⟨⟩⟩ := h
            exact .inl (.number hfits)
    | _ => cases h
  · rintro (h | ⟨rfl, rfl⟩)
    · cases h with
      | number hfits => exact if_pos hfits
      | text hbody hpadded hfits =>
          exact readInt64?_trim_eq_some_iff.mpr (.text hbody hpadded hfits)
    · rfl

theorem toBinary64_of_denotes {x : Binary64} (h : value.Denotes x) : toBinary64 value = x := by
  rw [toBinary64, toBinary64?_eq_some_iff.mpr h, Option.getD_some]

/-- An exact operand is also a float: the nearest one. -/
theorem exists_toBinary64 (h : value.IsInt64 n) :
    ∃ x, toBinary64 value = .finite x ∧ x.units = Binary64.unitsOfInt n := by
  obtain ⟨x, hdenotes, hunits⟩ := h.denotes
  exact ⟨x, toBinary64_of_denotes hdenotes, hunits⟩

/-- The guard against a divisor of zero works on the floating-point view of an operand, the division
on its integer: they agree on what is zero. -/
theorem isZero_toBinary64_iff (h : value.IsInt64 n) :
    (toBinary64 value).isZero = true ↔ n = 0 := by
  obtain ⟨x, hx, hunits⟩ := exists_toBinary64 h
  rw [hx]
  exact Binary64.isZero_iff hunits

/-! ## Exact results -/

section Operation

variable {exact : Int → Int → Int} {rounded : Binary64 → Binary64 → Binary64}

/-- The exact result is given if it fits, and for exact operands the rest is left to floats. -/
theorem exactResult?_eq (hinput : input.IsInt64 a) (hoperand : operand.IsInt64 b) :
    exactResult? exact input operand = fitting? (exact a b) := by
  rw [exactResult?, exactInt?_eq_some_iff.mpr (.inl hinput),
    exactInt?_eq_some_iff.mpr (.inl hoperand)]
  rfl

theorem arithmetic_of_fits (hinput : input.IsInt64 a) (hoperand : operand.IsInt64 b)
    (hfits : Numeral.fitsInt64 (exact a b) = true) :
    arithmetic exact rounded input operand = .ofInt (exact a b) := by
  rw [arithmetic, exactResult?_eq hinput hoperand, fitting?, if_pos hfits]

theorem arithmetic_of_not_fits (hinput : input.IsInt64 a) (hoperand : operand.IsInt64 b)
    (hfits : ¬ Numeral.fitsInt64 (exact a b) = true) :
    arithmetic exact rounded input operand =
      .ofBinary64 (rounded (toBinary64 input) (toBinary64 operand)) := by
  rw [arithmetic, exactResult?_eq hinput hoperand, fitting?, if_neg hfits]

/-- The result of an operation whose exact result is known: that one if it fits 64 bits, and
otherwise a floating-point value of its sign that is at least `2 ^ 62` in size. -/
def ExactOrFloat (exact : Int) (result : Value) : Prop :=
  if Numeral.fitsInt64 exact = true then result = .ofInt exact
  else ∃ z : Finite64, result = .number (.float z) ∧ z.negative = decide (exact < 0) ∧
    2 ^ 62 * unitsPerOne ≤ z.magnitude

/-- An integer out of range is at least as large as the limit. -/
theorem le_natAbs_of_not_fits (h : ¬ Numeral.fitsInt64 n = true) : 2 ^ 63 ≤ n.natAbs := by
  rw [Numeral.fitsInt64_iff] at h
  omega

/-- It is enough that the operation on the values next to two integers is large where the exact
result does not fit. -/
theorem exactOrFloat_arithmetic (hinput : input.IsInt64 a) (hoperand : operand.IsInt64 b)
    (hlarge : ∀ x y : Finite64, x.units = Binary64.unitsOfInt a → y.units = Binary64.unitsOfInt b →
      a.natAbs ≤ 2 ^ 63 → b.natAbs ≤ 2 ^ 63 → 2 ^ 63 ≤ (exact a b).natAbs →
      Binary64.IsLarge (decide (exact a b < 0)) (rounded (.finite x) (.finite y))) :
    ExactOrFloat (exact a b) (arithmetic exact rounded input operand) := by
  unfold ExactOrFloat
  split
  next hfits => exact arithmetic_of_fits hinput hoperand hfits
  next hfits =>
    obtain ⟨x, hx, hxUnits⟩ := exists_toBinary64 hinput
    obtain ⟨y, hy, hyUnits⟩ := exists_toBinary64 hoperand
    have ha := hinput.bounds
    have hb := hoperand.bounds
    rw [arithmetic_of_not_fits hinput hoperand hfits, hx, hy]
    refine (hlarge x y hxUnits hyUnits ?_ ?_ (le_natAbs_of_not_fits hfits)).ofBinary64
    · omega
    · omega

end Operation

/-- Sums, differences and products of integers of 64 bits, be they whole numbers or texts: the exact
whole number if it fits 64 bits, and otherwise a floating-point value; no other whole number, and
never null. -/
theorem plus_minus_times_exact (hinput : input.IsInt64 a) (hoperand : operand.IsInt64 b)
    (more : List Value) :
    ExactOrFloat (a + b) (apply .plus input (operand :: more)) ∧
      ExactOrFloat (a - b) (apply .minus input (operand :: more)) ∧
      ExactOrFloat (a * b) (apply .times input (operand :: more)) := by
  have hsum : ExactOrFloat (a + b) (sum input operand) :=
    exactOrFloat_arithmetic hinput hoperand fun _ _ => Binary64.isLarge_add
  -- a difference is a sum with the sign of the operand turned
  have hdifference : ExactOrFloat (a - b) (difference input operand) := by
    refine exactOrFloat_arithmetic hinput hoperand fun x y hx hy ha hb h => ?_
    exact Binary64.isLarge_add hx (Binary64.units_neg hy) ha (by omega) h
  have hproduct : ExactOrFloat (a * b) (product input operand) :=
    exactOrFloat_arithmetic hinput hoperand fun _ _ => Binary64.isLarge_mul
  exact ⟨hsum, hdifference, hproduct⟩

/-- The sum and the product of a text and a whole number are too large, the difference is not. -/
theorem plus_minus_times_exact_greatest :
    let greatest := Value.string " +09223372036854775807\n"
    (∃ z, apply .plus greatest [.ofInt 2] = .number (.float z)) ∧
      apply .minus greatest [.ofInt 2] = .ofInt 9223372036854775805 ∧
      ∃ z, apply .times greatest [.ofInt 2] = .number (.float z) := by
  intro greatest
  have hgreatest : greatest.IsInt64 9223372036854775807 := by
    refine .text (@Numeral.WritesInt.intro ['+'] "09223372036854775807".toList _ .plus ?_) ?_
      (by decide)
    · exact Numeral.isDigits_iff.mpr rfl
    · refine ⟨[' '], ['\n'], ?_, ?_, rfl⟩
      · exact List.forall_mem_singleton.mpr rfl
      · exact List.forall_mem_singleton.mpr rfl
  have htwo : (Value.ofInt 2).IsInt64 2 := .number (by decide)
  obtain ⟨hsum, hdifference, hproduct⟩ := plus_minus_times_exact hgreatest htwo []
  rw [ExactOrFloat, if_neg (by decide)] at hsum hproduct
  rw [ExactOrFloat, if_pos (by decide)] at hdifference
  obtain ⟨z, hsum, -⟩ := hsum
  obtain ⟨w, hproduct, -⟩ := hproduct
  exact ⟨⟨z, hsum⟩, hdifference, ⟨w, hproduct⟩⟩

/-! ## Division -/

/-- The quotient whose remainder is not negative is the one rounded down, unless the divisor is
negative and leaves a remainder. -/
theorem floor_div_eq (a b : Int) :
    ⌊(a / b : ℚ)⌋ = a / b - if 0 ≤ b ∨ b ∣ a then 0 else 1 := by
  rcases le_or_gt 0 b with hb | hb
  · obtain ⟨n, rfl⟩ := Int.eq_ofNat_of_zero_le hb
    rw [if_pos (.inl hb), Int.sub_zero, ← Rat.floor_intCast_div_natCast]
    rfl
  · -- both signs are turned, as the floor is known for positive divisors
    obtain ⟨n, rfl⟩ : ∃ n : Nat, b = -n := ⟨b.natAbs, by omega⟩
    have hpos : 0 < (n : Int) := by omega
    have hflip : (a / (-n : Int) : ℚ) = (-a : Int) / (n : Nat) := by
      push_cast
      rw [div_neg, neg_div]
    rw [hflip, Rat.floor_intCast_div_natCast, Int.neg_ediv, Int.ediv_neg,
      Int.sign_eq_one_of_pos hpos]
    simp only [Int.neg_dvd, not_le.mpr hb, false_or]

/-- A quotient of integers of 64 bits fits, but for one. -/
theorem fits_ediv (ha : Numeral.fitsInt64 a = true) (hne : b ≠ 0)
    (h : ¬ (a = -2 ^ 63 ∧ b = -1)) : Numeral.fitsInt64 (a / b) = true := by
  rw [Numeral.fitsInt64_iff] at ha ⊢
  by_contra hnot
  -- a quotient is no greater in size than the dividend
  have hquotient : a / b = 2 ^ 63 := by
    have hsize := Int.natAbs_ediv_le_natAbs a b
    omega
  have hdivision := Int.mul_ediv_add_emod a b
  have hremainder := Int.emod_nonneg a hne
  have hremainder' := Int.emod_lt_abs a hne
  rw [hquotient] at hdivision
  -- there is room for so large a multiple of the divisor in one dividend only
  rcases abs_cases b with ⟨habs, -⟩ | ⟨habs, -⟩ <;> omega

/-- A remainder is no larger than the divisor. -/
theorem fits_emod (hb : Numeral.fitsInt64 b = true) (hne : b ≠ 0) :
    Numeral.fitsInt64 (a % b) = true := by
  rw [Numeral.fitsInt64_iff] at hb ⊢
  have hremainder := Int.emod_nonneg a hne
  have hremainder' := Int.emod_lt_abs a hne
  rcases abs_cases b with ⟨habs, -⟩ | ⟨habs, -⟩ <;> omega

/-- The one quotient that does not fit. -/
theorem quotient_overflow (hinput : input.IsInt64 (-2 ^ 63)) (hoperand : operand.IsInt64 (-1)) :
    ∃ z, quotient input operand = .number (.float z) := by
  obtain ⟨x, hx, hxUnits⟩ := exists_toBinary64 hinput
  obtain ⟨y, hy, hyUnits⟩ := exists_toBinary64 hoperand
  have hguard : ¬ (toBinary64 operand).isZero = true := by
    rw [isZero_toBinary64_iff hoperand]
    decide
  obtain ⟨z, hz, -⟩ := (Binary64.isLarge_div hxUnits hyUnits rfl rfl).ofBinary64
  refine ⟨z, ?_⟩
  rw [quotient, if_neg hguard, arithmetic_of_not_fits hinput hoperand (by decide), hx, hy, hz]

section Division

variable (hinput : input.IsInt64 a) (hoperand : operand.IsInt64 b) (hne : b ≠ 0)
include hinput hoperand hne

/-- Only one division of 64-bit integers has a quotient out of range. -/
theorem quotient_eq (h : ¬ (a = -2 ^ 63 ∧ b = -1)) : quotient input operand = .ofInt (a / b) := by
  rw [quotient, if_neg (fun h => hne ((isZero_toBinary64_iff hoperand).mp h))]
  exact arithmetic_of_fits hinput hoperand (fits_ediv hinput.fits hne h)

theorem remainder_eq : remainder input operand = .ofInt (a % b) := by
  rw [remainder, if_neg (fun h => hne ((isZero_toBinary64_iff hoperand).mp h))]
  exact arithmetic_of_fits hinput hoperand (fits_emod hoperand.fits hne)

/-- Whole-number division rounds down exactly if the divisor is positive or leaves no remainder;
otherwise the quotient is greater by one than the one rounded down. -/
theorem dividedBy_eq_floor_iff (hfits : Numeral.fitsInt64 ⌊(a / b : ℚ)⌋ = true)
    (more : List Value) :
    (apply .dividedBy input (operand :: more) = .ofInt ⌊(a / b : ℚ)⌋ ↔ 0 < b ∨ b ∣ a) ∧
      apply .dividedBy input (operand :: more) =
        .ofInt (⌊(a / b : ℚ)⌋ + if 0 < b ∨ b ∣ a then 0 else 1) := by
  have hfloor := floor_div_eq a b
  have hquotient : apply .dividedBy input (operand :: more) = .ofInt (a / b) := by
    refine quotient_eq hinput hoperand hne ?_
    rintro ⟨rfl, rfl⟩
    -- the one quotient that is too large is whole, so that its floor is too large as well
    rw [hfloor] at hfits
    exact absurd hfits (by decide)
  have hsign : 0 ≤ b ∨ b ∣ a ↔ 0 < b ∨ b ∣ a := by
    refine or_congr_left ?_
    omega
  rw [if_congr hsign rfl rfl] at hfloor
  rw [hquotient, hfloor, Int.sub_add_cancel]
  refine ⟨?_, rfl⟩
  rw [Value.ofInt, Value.ofInt, Value.number.injEq, Number.int.injEq]
  by_cases h : 0 < b ∨ b ∣ a
  · rw [if_pos h, Int.sub_zero]
    exact iff_of_true rfl h
  · rw [if_neg h]
    exact iff_of_false (by omega) h

end Division

/-- Seven by minus two is minus four rounded down, but minus three. -/
theorem dividedBy_eq_floor_iff_seven :
    ⌊((7 : Int) / (-2 : Int) : ℚ)⌋ = -4 ∧
      apply .dividedBy (.ofInt 7) [.ofInt (-2)] = .ofInt (-3) := by
  have hfloor : ⌊((7 : Int) / (-2 : Int) : ℚ)⌋ = -4 := by
    rw [floor_div_eq]
    decide
  have hinput : (Value.ofInt 7).IsInt64 7 := .number (by decide)
  have hoperand : (Value.ofInt (-2)).IsInt64 (-2) := .number (by decide)
  obtain ⟨-, hresult⟩ :=
    dividedBy_eq_floor_iff hinput hoperand (by decide) (by rw [hfloor]; decide) []
  rw [hfloor, if_neg (by decide)] at hresult
  exact ⟨hfloor, hresult⟩

/-! ## Divisors that are no numbers or zero -/

theorem div_nan (x : Binary64) : x.div .nan = .nan := by
  cases x <;> rfl

theorem euclideanRem_nan (x : Binary64) : x.euclideanRem .nan = .nan := by
  cases x <;> rfl

/-- What is no number counts as zero, and by zero nothing is divided. -/
theorem undivided_of_isZero (h : (toBinary64 operand).isZero = true) (input : Value) :
    quotient input operand = .null ∧ remainder input operand = .null :=
  ⟨if_pos h, if_pos h⟩

/-- The text of no number is no integer either. -/
theorem exactInt?_of_nan (h : operand.Denotes .nan) : exactInt? operand = none := by
  rw [Option.eq_none_iff_forall_ne_some]
  intro n hn
  rcases exactInt?_eq_some_iff.mp hn with hint | ⟨rfl, -⟩
  · obtain ⟨x, hx, -⟩ := hint.denotes
    cases h.unique hx
  · cases h

/-- Behind the guard, what is no number makes the result no number, and that is null. -/
theorem undivided_of_nan (h : operand.Denotes .nan) (input : Value) :
    quotient input operand = .null ∧ remainder input operand = .null := by
  have hoperand := toBinary64_of_denotes h
  have hexact : ∀ operation, exactResult? operation input operand = none := by
    intro operation
    rw [exactResult?, exactInt?_of_nan h]
    cases exactInt? input <;> rfl
  constructor
  · rw [quotient, hoperand, if_neg nofun, arithmetic, hexact, hoperand, div_nan]
    rfl
  · rw [remainder, hoperand, if_neg nofun, arithmetic, hexact, hoperand, euclideanRem_nan]
    rfl

/-- Quotient and remainder agree: on integers of 64 bits, be they whole numbers or texts, they make
up the dividend, and the remainder lies between zero and the size of the divisor. The one quotient
that does not fit is a floating-point value, and its remainder zero. Without an operand, and by an
operand that is no number or zero, nothing is divided. -/
theorem dividedBy_modulo_agree :
    (∀ {input operand : Value} {a b : Int}, input.IsInt64 a → operand.IsInt64 b → b ≠ 0 →
      ¬ (a = -2 ^ 63 ∧ b = -1) → ∀ more, ∃ q r,
        apply .dividedBy input (operand :: more) = .ofInt q ∧
        apply .modulo input (operand :: more) = .ofInt r ∧
        a = b * q + r ∧ 0 ≤ r ∧ r < |b|) ∧
    (∀ {input operand : Value}, input.IsInt64 (-2 ^ 63) → operand.IsInt64 (-1) → ∀ more,
      apply .modulo input (operand :: more) = .ofInt 0 ∧
        ∃ z, apply .dividedBy input (operand :: more) = .number (.float z)) ∧
    (∀ input args,
      (args = [] ∨ (∀ x, ¬ (arg args 0).Denotes x) ∨
        ∃ x, (arg args 0).Denotes x ∧ (x.isZero = true ∨ x = .nan)) →
      apply .dividedBy input args = .null ∧ apply .modulo input args = .null) := by
  refine ⟨fun {input operand a b} hinput hoperand hne hfits more => ?_,
    fun {input operand} hinput hoperand more => ?_, fun input args hargs => ?_⟩
  · refine ⟨a / b, a % b, quotient_eq hinput hoperand hne hfits, remainder_eq hinput hoperand hne,
      (Int.mul_ediv_add_emod a b).symm, Int.emod_nonneg a hne, Int.emod_lt_abs a hne⟩
  · exact ⟨remainder_eq hinput hoperand (by decide), quotient_overflow hinput hoperand⟩
  · rcases hargs with rfl | hnone | ⟨x, hx, hzero | rfl⟩
    · exact undivided_of_isZero rfl input
    · refine undivided_of_isZero ?_ input
      have hview : (arg args 0).toBinary64? = none :=
        Option.eq_none_iff_forall_ne_some.mpr fun x hx => hnone x (toBinary64?_eq_some_iff.mp hx)
      rw [toBinary64, hview]
      rfl
    · exact undivided_of_isZero (toBinary64_of_denotes hx ▸ hzero) input
    · exact undivided_of_nan hx input

/-- A text and a whole number of different signs, the quotient that does not fit, and a zero that is
written as a text. -/
theorem dividedBy_modulo_agree_signs :
    let dividend := Value.string " -07"
    let zero := Value.string "-0.0e5\n"
    apply .dividedBy dividend [.ofInt (-2)] = .ofInt 4 ∧
      apply .modulo dividend [.ofInt (-2)] = .ofInt 1 ∧
      (apply .modulo (.ofInt (-2 ^ 63)) [.ofInt (-1)] = .ofInt 0 ∧
        ∃ z, apply .dividedBy (.ofInt (-2 ^ 63)) [.ofInt (-1)] = .number (.float z)) ∧
      apply .dividedBy dividend [zero] = .null ∧ apply .modulo dividend [zero] = .null := by
  intro dividend zero
  obtain ⟨hagree, hoverflow, hundivided⟩ := dividedBy_modulo_agree
  have hdividend : dividend.IsInt64 (-7) := by
    refine .text (@Numeral.WritesInt.intro ['-'] ['0', '7'] _ .minus ?_) ?_ (by decide)
    · exact Numeral.isDigits_iff.mpr rfl
    · exact ⟨[' '], [], List.forall_mem_singleton.mpr rfl, nofun, rfl⟩
  have hdivisor : (Value.ofInt (-2)).IsInt64 (-2) := .number (by decide)
  have hzero : zero.Denotes (.finite (Finite64.zero true)) := by
    have hdigit : ∀ c ∈ ['0'], Numeral.isDigit c = true := List.forall_mem_singleton.mpr rfl
    have hexponent : Numeral.WritesExponent ['e', '5'] 5 :=
      .some (.inl rfl) (@Numeral.WritesInt.intro [] ['5'] _ .none (Numeral.isDigits_iff.mpr rfl))
    have hbody : Numeral.Writes "-0.0e5".toList (.finite (Finite64.zero true)) :=
      @Numeral.Writes.decimal ['-'] ['0'] _ _ _ _ _ .minus hdigit (.some hdigit) (by decide)
        hexponent
    exact .text hbody ⟨[], ['\n'], nofun, List.forall_mem_singleton.mpr rfl, rfl⟩
  obtain ⟨q, r, hq, hr, hsum, hlow, hhigh⟩ :=
    hagree hdividend hdivisor (by decide) (by decide) []
  rw [abs_of_neg (by decide)] at hhigh
  obtain rfl : q = 4 := by omega
  obtain rfl : r = 1 := by omega
  refine ⟨hq, hr, hoverflow (.number (by decide)) (.number (by decide)) [], ?_⟩
  exact hundivided dividend [zero] (.inr (.inr ⟨_, hzero, .inl rfl⟩))

end TextTemplate.Filter
