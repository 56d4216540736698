import TextTemplate.Filter.Apply
import TextTemplate.Proofs.Value.Integer
/-! # Absolute values of whole numbers

Integers of 64 bits lose their sign, but for the least, which has no counterpart. Whole numbers
above them are taken as floating-point values. Main statement: which of them stay exact, and that a
result is its own absolute value.
-/

namespace TextTemplate

/-- Whether a number is a given integer, be it held as one or as a floating-point value. -/
def Number.IsExactly : Number → Int → Prop
  | .int m, n => m = n
  | .float x, n => x.toRat = n

/-- Integers that a floating-point value holds without rounding. -/
theorem Finite64.toRat_of_dvd {x : Finite64} {n : Int} {k : Nat}
    (hx : x.units = Binary64.unitsOfInt n) (hdvd : 2 ^ k ∣ n) (h : n.natAbs < 2 ^ (k + 53)) :
    x.toRat = n := by
  have hunits : Binary64.unitsOfInt n = n * unitsPerOne := by
    rcases Nat.eq_zero_or_pos n.natAbs with hzero | hpos
    · obtain rfl := Int.natAbs_eq_zero.mp hzero
      rw [Binary64.unitsOfInt, Int.sign_zero, Int.zero_mul, Int.zero_mul]
    · have hdvd : 2 ^ k ∣ n.natAbs := by
        have := Int.natAbs_dvd_natAbs.mpr hdvd
        rwa [Int.natAbs_pow] at this
      rw [Binary64.unitsOfInt, roundedUnits_of_dvd hpos hdvd h, Int.natCast_mul, ← Int.mul_assoc,
        Int.sign_mul_natAbs]
  have hunit : (unitsPerOne : ℚ) ≠ 0 := by exact_mod_cast unitsPerOne_pos.ne'
  rw [Finite64.toRat, hx, hunits, Int.cast_mul, Int.cast_natCast, mul_div_cancel_right₀ _ hunit]

namespace Filter

variable {n : Int} {x : Finite64}

theorem fitsInt64_abs (hn : Numeral.fitsInt64 n = true) (hne : n ≠ -2 ^ 63) :
    Numeral.fitsInt64 |n| = true := by
  rw [Numeral.fitsInt64_iff, ← Int.natCast_natAbs] at *
  omega

/-- An integer that has a counterpart of the other sign loses its sign. -/
theorem absolute_of_fits (hn : Numeral.fitsInt64 n = true) (hne : n ≠ -2 ^ 63) :
    absolute (.ofInt n) = .ofInt |n| := by
  have hexact : exactInt? (.ofInt n) = some n := if_pos hn
  have hmagnitude : fitting? |n| = some |n| := if_pos (fitsInt64_abs hn hne)
  simp only [absolute, hexact, Int.natCast_natAbs, hmagnitude]

theorem absolute_least : absolute (.ofInt (-2 ^ 63)) = .null := rfl

/-- Integers above the signed 64 bits are not taken for exact operands. -/
theorem exactInt?_of_le (h : 2 ^ 63 ≤ n) : exactInt? (.ofInt n) = none :=
  if_neg (Numeral.not_fitsInt64_of_le h)

/-- What is taken as a large value without a sign is that value. -/
theorem absolute_of_large {value : Value} (hexact : exactInt? value = none)
    (hview : value.toBinary64? = some (.finite x)) (hsign : x.negative = false)
    (hsize : 2 ^ 62 * unitsPerOne ≤ x.magnitude) : absolute value = .number (.float x) := by
  have habs : Binary64.abs (.finite x) = .finite x := by
    rw [Binary64.abs, ← hsign]
  simp only [absolute, hexact, hview, habs, Binary64.ofBinary64_of_le_magnitude hsize]

/-- Whole numbers beyond 64 bits become the floating-point values next to them, and these stay. -/
theorem exists_absolute_of_le (hlow : 2 ^ 63 ≤ n) (hhigh : n < 2 ^ 64) :
    ∃ x : Finite64, absolute (.ofInt n) = .number (.float x) ∧
      absolute (.number (.float x)) = .number (.float x) ∧ x.units = Binary64.unitsOfInt n := by
  obtain ⟨x, hx, hunits⟩ := Binary64.exists_ofInt_eq_finite (n := n) (by omega)
  have hsign : x.negative = false := by
    rw [Binary64.negative_of_units hunits (by omega)]
    exact decide_eq_false (by omega)
  have hsize := Binary64.le_magnitude (k := 62) hunits (by omega)
  have hview : (Value.ofInt n).toBinary64? = some (.finite x) := congrArg some hx
  exact ⟨x, absolute_of_large (exactInt?_of_le hlow) hview hsign hsize,
    absolute_of_large rfl rfl hsign hsize, hunits⟩

/-- The absolute value of a whole number is a number unless it is the least one, where it is null.
It is the exact integer below `2 ^ 63`, and exact beyond for the multiples of `2 ^ 11`; and it is
its own absolute value. -/
theorem abs_int (hfits : (Number.int n).Fits) (args : List Value) :
    (n ≠ -2 ^ 63 → ∃ m : Number, apply .abs (.ofInt n) args = .number m ∧
      (n < 2 ^ 63 → m = .int |n|) ∧ (2 ^ 11 ∣ n → m.IsExactly |n|) ∧
      ∀ more, apply .abs (.number m) more = .number m) ∧
    (n = -2 ^ 63 → apply .abs (.ofInt n) args = .null) := by
  obtain ⟨hlow, hhigh⟩ := hfits
  constructor
  · intro hne
    rcases lt_or_ge n (2 ^ 63) with hsmall | hlarge
    · have hn : Numeral.fitsInt64 n = true := Numeral.fitsInt64_iff.mpr ⟨hlow, hsmall⟩
      have hnonneg := abs_nonneg n
      have hagain := absolute_of_fits (fitsInt64_abs hn hne) (by omega)
      rw [abs_abs] at hagain
      exact ⟨.int |n|, absolute_of_fits hn hne, fun _ => rfl, fun _ => rfl, fun _ => hagain⟩
    · obtain ⟨x, habs, hagain, hunits⟩ := exists_absolute_of_le hlarge (by omega)
      have hsame : |n| = n := abs_of_nonneg (by omega)
      refine ⟨.float x, habs, fun hsmall => absurd hsmall (not_lt.mpr hlarge), fun hdvd => ?_,
        fun more => hagain⟩
      rw [hsame]
      exact Finite64.toRat_of_dvd hunits hdvd (by omega)
  · rintro rfl
    exact absolute_least

/-- A negative integer, one beyond 64 bits that stays exact, and the least one. -/
theorem abs_int_ends :
    apply .abs (.ofInt (-5)) [] = .ofInt 5 ∧
      (∃ m : Number, apply .abs (.ofInt (2 ^ 63)) [] = .number m ∧ m.IsExactly (2 ^ 63)) ∧
      apply .abs (.ofInt (-2 ^ 63)) [] = .null := by
  obtain ⟨hnegative, -⟩ := abs_int (n := -5) ⟨by decide, by decide⟩ []
  obtain ⟨m, hfive, hm, -⟩ := hnegative (by decide)
  obtain rfl := hm (by decide)
  obtain ⟨hbeyond, -⟩ := abs_int (n := 2 ^ 63) ⟨by decide, by decide⟩ []
  obtain ⟨x, hx, -, hexact, -⟩ := hbeyond (by decide)
  obtain ⟨-, hleast⟩ := abs_int (n := -2 ^ 63) ⟨by decide, by decide⟩ []
  exact ⟨hfive, ⟨x, hx, hexact (by decide)⟩, hleast rfl⟩

/-- The least integer has no absolute value, and that of an integer beyond 64 bits is rounded. -/
theorem abs_not_exact :
    apply .abs (.ofInt (-2 ^ 63)) [] = .null ∧
      ¬ ∃ m : Number, apply .abs (.ofInt (2 ^ 63 + 1)) [] = .number m ∧
        m.IsExactly (2 ^ 63 + 1) := by
  refine ⟨absolute_least, ?_⟩
  rintro ⟨m, hm, hexact⟩
  obtain ⟨x, habs, -, hunits⟩ := exists_absolute_of_le (n := 2 ^ 63 + 1) (by decide) (by decide)
  obtain rfl := Value.number.inj (habs.symm.trans hm)
  -- the value next to it is that next to the power of two, which is not rounded
  have hnearest : Binary64.ofInt (2 ^ 63 + 1) = Binary64.ofInt (2 ^ 63) := by decide
  obtain ⟨y, hy, hyUnits⟩ := Binary64.exists_ofInt_eq_finite (n := 2 ^ 63 + 1) (by decide)
  obtain ⟨z, hz, hzUnits⟩ := Binary64.exists_ofInt_eq_finite (n := 2 ^ 63) (by decide)
  obtain rfl : y = z := Binary64.finite.inj (hy.symm.trans (hnearest.trans hz))
  have hpower : x.toRat = (2 ^ 63 : Int) :=
    Finite64.toRat_of_dvd (hunits.trans (hyUnits.symm.trans hzUnits)) dvd_rfl (by decide)
  have hsame : ((2 ^ 63 : Int) : ℚ) = (2 ^ 63 + 1 : Int) := hpower.symm.trans hexact
  exact absurd (Int.cast_injective hsame) (by decide)

end Filter

end TextTemplate
