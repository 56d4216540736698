import TextTemplate.Proofs.Number.Rounding
import TextTemplate.Value.Basic
/-! # Results that do not fit 64 bits

Rounding does not take a number across a power of two. So a sum, a product or a quotient of two
integers that exceeds 64 bits is, worked out on the values nearest to them, still at least `2 ^ 62`
in size: far above what becomes a whole number again, and far below the infinities.
-/

namespace TextTemplate

/-! ## Powers of two -/

section Powers

variable {num den k : Nat}

theorem two_pow_mul_unitsPerOne (k : Nat) : 2 ^ k * unitsPerOne = 2 ^ (k + 1074) := by
  unfold unitsPerOne
  generalize 1074 = n
  exact (pow_add 2 k n).symm

/-- A ratio of at least a power of two is rounded at the exponent of its own size. -/
theorem roundingExponent_of_le (hnum : 0 < num) (hden : 0 < den) (h : 2 ^ k * den ≤ num) :
    roundingExponent num den = ratioLog2 num den - 52 ∧ (k : Int) ≤ ratioLog2 num den := by
  have hratio : (2 : ℚ) ^ (k : Int) ≤ ratio num den := by
    rw [zpow_natCast, ratio, le_div_iff₀ (by exact_mod_cast hden)]
    exact_mod_cast h
  have hlog : (k : Int) < ratioLog2 num den + 1 :=
    (zpow_lt_zpow_iff_right₀ one_lt_two).mp (hratio.trans_lt (ratioLog2_spec hnum hden).2)
  unfold roundingExponent leastExponent
  omega

theorem unitsPerOne_pos : 0 < unitsPerOne := by
  unfold unitsPerOne
  generalize 1074 = n
  exact Nat.two_pow_pos n

/-- What is at least a power of two is not rounded to less. -/
theorem le_roundedUnits (hnum : 0 < num) (hden : 0 < den) (h : 2 ^ k * den ≤ num) :
    2 ^ k * unitsPerOne ≤ roundedUnits num den := by
  obtain ⟨hexponent, hlog⟩ := roundingExponent_of_le hnum hden h
  have hleast : leastExponent = -1074 := rfl
  have hmantissa := le_roundedMantissa hnum hden (by omega)
  obtain ⟨gap, hgap⟩ : ∃ gap : Nat, (roundingExponent num den - leastExponent).toNat + 52 =
      k + 1074 + gap := Nat.exists_eq_add_of_le (by omega)
  calc 2 ^ k * unitsPerOne = 2 ^ (k + 1074) := two_pow_mul_unitsPerOne k
    _ ≤ 2 ^ (k + 1074 + gap) := Nat.pow_le_pow_right (by decide) (Nat.le_add_right _ gap)
    _ = 2 ^ 52 * 2 ^ (roundingExponent num den - leastExponent).toNat := by
        rw [← hgap, pow_add, mul_comm]
    _ ≤ roundedUnits num den := Nat.mul_le_mul_right _ hmantissa

/-- What is below a power of two is rounded at most to it. -/
theorem roundedUnits_le (hnum : 0 < num) (hden : 0 < den) (h : num < 2 ^ (k + 1) * den) :
    roundedUnits num den ≤ 2 ^ (k + 1) * unitsPerOne := by
  have hratio : ratio num den < 2 ^ ((k + 1 : Nat) : Int) := by
    rw [zpow_natCast, ratio, div_lt_iff₀ (by exact_mod_cast hden)]
    exact_mod_cast h
  have hlog := ratioLog2_lt hnum hden hratio
  have hmantissa := roundedMantissa_le hnum hden
  have hexponent : (roundingExponent num den - leastExponent).toNat ≤ k + 1022 := by
    unfold roundingExponent leastExponent
    omega
  calc roundedUnits num den
      ≤ 2 ^ 53 * 2 ^ (roundingExponent num den - leastExponent).toNat :=
        Nat.mul_le_mul_right _ hmantissa
    _ ≤ 2 ^ 53 * 2 ^ (k + 1022) :=
        Nat.mul_le_mul_left _ (Nat.pow_le_pow_right (by decide) hexponent)
    _ = 2 ^ (k + 1 + 1074) := by
        have hsum : 53 + (k + 1022) = k + 1 + 1074 := by omega
        rw [← pow_add, hsum]
    _ = 2 ^ (k + 1) * unitsPerOne := (two_pow_mul_unitsPerOne (k + 1)).symm

/-- An integer of at most 53 binary digits, scaled by a power of two, is not rounded. -/
theorem roundedUnits_of_dvd {n : Nat} (hpos : 0 < n) (hdvd : 2 ^ k ∣ n) (h : n < 2 ^ (k + 53)) :
    roundedUnits n 1 = n * unitsPerOne := by
  have hratio : ratio n 1 < 2 ^ ((k + 53 : Nat) : Int) := by
    rw [ratio_one, zpow_natCast]
    exact_mod_cast h
  have hlog := ratioLog2_lt hpos Nat.one_pos hratio
  have hone : 2 ^ 0 * 1 ≤ n := hpos
  obtain ⟨hexponent, hlow⟩ := roundingExponent_of_le hpos Nat.one_pos hone
  unfold roundedUnits roundedMantissa
  rw [leastExponent, Nat.one_mul]
  rcases le_or_gt 0 (roundingExponent n 1) with hwhole | hfraction
  · -- the digits that are cut off are zeros
    obtain ⟨e, he⟩ := Int.eq_ofNat_of_zero_le hwhole
    obtain ⟨m, rfl⟩ : 2 ^ e ∣ n := (Nat.pow_dvd_pow 2 (by omega)).trans hdvd
    have hshift : (roundingExponent (2 ^ e * m) 1 - -1074).toNat = e + 1074 := by omega
    rw [hshift, he, Int.toNat_neg_natCast, Int.toNat_natCast]
    simp only [Nat.pow_eq, pow_zero, Nat.mul_one]
    rw [Nat.mul_comm (2 ^ e) m, roundHalfEven_mul_self m (Nat.two_pow_pos e), Nat.mul_assoc,
      two_pow_mul_unitsPerOne]
  · -- no digit is cut off
    obtain ⟨e, he⟩ : ∃ e : Nat, -roundingExponent n 1 = e := Int.eq_ofNat_of_zero_le (by omega)
    have hshift : e + (roundingExponent n 1 - -1074).toNat = 1074 := by omega
    have hzero : (roundingExponent n 1).toNat = 0 := by omega
    rw [he, hzero, Int.toNat_natCast]
    simp only [Nat.pow_eq, pow_zero]
    have hunit := two_pow_mul_unitsPerOne 0
    rw [roundHalfEven_one, Nat.mul_assoc, ← pow_add, hshift, ← Nat.zero_add 1074, ← hunit, pow_zero,
      Nat.one_mul]

/-! The unit is a parameter here: the powers of two that it stands for are never worked out. -/

theorem scaled_mul_le {p q m n unit : Nat} (hm : p * unit ≤ m) (hn : q * unit ≤ n) :
    p * q * (unit * unit) ≤ m * n := by
  rw [mul_mul_mul_comm]
  exact Nat.mul_le_mul hm hn

theorem mul_le_scaled {p q m n unit : Nat} (hm : m ≤ p * unit) (hn : n ≤ q * unit) :
    m * n ≤ p * q * (unit * unit) := by
  rw [mul_mul_mul_comm]
  exact Nat.mul_le_mul hm hn

end Powers

namespace Binary64

variable {x y : Finite64} {a b : Int} {k : Nat}

/-! ## Values next to integers -/

theorem unitsOfInt_neg (n : Int) : unitsOfInt (-n) = -unitsOfInt n := by
  rw [unitsOfInt, unitsOfInt, Int.sign_neg, Int.natAbs_neg, Int.neg_mul]

/-- A power of two is rounded to a value between itself and the next one. -/
theorem unitsOfInt_two_pow (k : Nat) :
    2 ^ k * (unitsPerOne : Int) ≤ unitsOfInt (2 ^ k) ∧
      unitsOfInt (2 ^ k) ≤ 2 ^ (k + 1) * (unitsPerOne : Int) := by
  have hpos : 0 < 2 ^ k := Nat.two_pow_pos k
  have hunits : unitsOfInt (2 ^ k) = roundedUnits (2 ^ k) 1 := by
    rw [unitsOfInt, Int.sign_eq_one_of_pos (by exact_mod_cast hpos), Int.one_mul]
    congr
  have hlow := le_roundedUnits (k := k) hpos Nat.one_pos (by omega)
  have hhigh := roundedUnits_le (k := k) hpos Nat.one_pos (by omega)
  rw [hunits]
  constructor
  · exact_mod_cast hlow
  · exact_mod_cast hhigh

/-- With the other sign, the float nearest to an integer is nearest to the opposite integer. -/
theorem units_neg (hx : x.units = unitsOfInt a) :
    ({ x with negative := !x.negative } : Finite64).units = unitsOfInt (-a) := by
  rw [unitsOfInt_neg, ← hx]
  cases hsign : x.negative <;> simp [Finite64.units, Finite64.magnitude, hsign]

theorem natAbs_units (x : Finite64) : x.units.natAbs = x.magnitude := by
  unfold Finite64.units
  split <;> simp

/-- The float nearest to an integer is as large as the rounded size of the integer. -/
theorem magnitude_of_units (hx : x.units = unitsOfInt a) (ha : a ≠ 0) :
    x.magnitude = roundedUnits a.natAbs 1 := by
  rw [← natAbs_units, hx, unitsOfInt, Int.natAbs_mul, Int.natAbs_sign_of_ne_zero ha]
  simp

/-- Rounding does not fall below a power of two that the integer reaches. -/
theorem le_magnitude (hx : x.units = unitsOfInt a) (ha : 2 ^ k ≤ a.natAbs) :
    2 ^ k * unitsPerOne ≤ x.magnitude := by
  have hpos : 0 < a.natAbs := (Nat.two_pow_pos k).trans_le ha
  rw [magnitude_of_units hx (Int.natAbs_pos.mp hpos)]
  exact le_roundedUnits hpos Nat.one_pos (by rwa [Nat.mul_one])

/-- Rounding does not rise above the next power of two. -/
theorem magnitude_le (hx : x.units = unitsOfInt a) (hne : a ≠ 0) (ha : a.natAbs < 2 ^ (k + 1)) :
    x.magnitude ≤ 2 ^ (k + 1) * unitsPerOne := by
  rw [magnitude_of_units hx hne]
  exact roundedUnits_le (Int.natAbs_pos.mpr hne) Nat.one_pos (by rwa [Nat.mul_one])

theorem magnitude_pos (hx : x.units = unitsOfInt a) (hne : a ≠ 0) : 0 < x.magnitude := by
  have hlow := le_magnitude (k := 0) hx (Int.natAbs_pos.mpr hne)
  have := unitsPerOne_pos
  omega

theorem isZero_iff_magnitude : x.isZero = true ↔ x.magnitude = 0 := by
  simp [Finite64.isZero, Finite64.magnitude]

/-- Zero is the only integer that is rounded to zero. -/
theorem isZero_iff (hx : x.units = unitsOfInt a) : x.isZero = true ↔ a = 0 := by
  rw [isZero_iff_magnitude]
  constructor
  · intro hzero
    by_contra hne
    exact (magnitude_pos hx hne).ne' hzero
  · rintro rfl
    rw [← natAbs_units, hx, unitsOfInt, Int.sign_zero, Int.zero_mul, Int.natAbs_zero]

/-- The sign of the value nearest to an integer other than zero is that of the integer. -/
theorem negative_of_units (hx : x.units = unitsOfInt a) (hne : a ≠ 0) :
    x.negative = decide (a < 0) := by
  have hzero : unitsOfInt 0 = 0 := Int.zero_mul _
  have hpos := magnitude_pos hx hne
  cases hsign : x.negative with
  | true =>
      have hunits : x.units = -x.magnitude := by simp [Finite64.units, hsign]
      by_contra hwrong
      have hle : (0 : Int) ≤ a := by simpa using hwrong
      have := unitsOfInt_mono hle
      omega
  | false =>
      have hunits : x.units = x.magnitude := by simp [Finite64.units, hsign]
      by_contra hwrong
      have hle : a ≤ 0 := by
        simp only [Bool.false_eq, decide_eq_false_iff_not, not_not] at hwrong
        omega
      have := unitsOfInt_mono hle
      omega

/-! ## Large values -/

/-- A finite value of a given sign that is at least `2 ^ 62` in size. -/
def IsLarge (negative : Bool) (value : Binary64) : Prop :=
  ∃ z, value = .finite z ∧ z.negative = negative ∧ 2 ^ 62 * unitsPerOne ≤ z.magnitude

/-- A ratio between the limits is rounded to a large float with its sign, and not to infinity. -/
theorem isLarge_ofRatio (negative : Bool) {num den : Nat} (hden : 0 < den)
    (hlow : 2 ^ 62 * den ≤ num) (hhigh : num ≤ 2 ^ 128 * den) :
    IsLarge negative (ofRatio negative num den) := by
  have hnum : 0 < num := (Nat.mul_pos (Nat.two_pow_pos 62) hden).trans_le hlow
  have hratio : ratio num den < 2 ^ (1023 : Int) := by
    have hle : ratio num den ≤ 2 ^ (128 : Int) := by
      rw [ratio, div_le_iff₀ (by exact_mod_cast hden)]
      exact_mod_cast hhigh
    exact hle.trans_lt (zpow_lt_zpow_right₀ one_lt_two (by decide))
  refine ⟨roundedValue negative num den, ofRatio_eq_finite negative hnum hden hratio,
    roundedValue_negative negative num den, ?_⟩
  rw [roundedValue_magnitude negative hnum hden]
  exact le_roundedUnits hnum hden hlow

/-- A large value does not become a whole number. -/
theorem ofBinary64_of_le_magnitude {z : Finite64} (h : 2 ^ 62 * unitsPerOne ≤ z.magnitude) :
    Value.ofBinary64 (.finite z) = .number (.float z) := by
  have hlimit : Value.wholeLimit.toNat ≤ 2 ^ 62 := by decide
  have hnot : ¬ z.magnitude < Value.wholeLimit.toNat * unitsPerOne :=
    not_lt.mpr ((Nat.mul_le_mul_right unitsPerOne hlimit).trans h)
  rw [Value.ofBinary64, decide_eq_false hnot, Bool.and_false]
  rfl

/-- A large float is a number among the values. -/
theorem IsLarge.ofBinary64 {negative : Bool} {value : Binary64} (h : IsLarge negative value) :
    ∃ z, Value.ofBinary64 value = .number (.float z) ∧ z.negative = negative ∧
      2 ^ 62 * unitsPerOne ≤ z.magnitude := by
  obtain ⟨z, rfl, hsign, hsize⟩ := h
  exact ⟨z, ofBinary64_of_le_magnitude hsize, hsign, hsize⟩

/-! ## Sums, products and quotients -/

/-- Two integers whose sum exceeds 64 bits are of one sign, and one of them is at least `2 ^ 62` in
size. -/
theorem unitsOfInt_add_bounds (ha : a ≤ 2 ^ 63) (hb : b ≤ 2 ^ 63) (hsum : 2 ^ 63 ≤ a + b) :
    2 ^ 62 * (unitsPerOne : Int) ≤ unitsOfInt a + unitsOfInt b ∧
      unitsOfInt a + unitsOfInt b ≤ 2 ^ 65 * (unitsPerOne : Int) := by
  have hzero : unitsOfInt 0 = 0 := Int.zero_mul _
  have hlow := (unitsOfInt_two_pow 62).1
  have hhigh := (unitsOfInt_two_pow 63).2
  have haLow := unitsOfInt_mono (show 0 ≤ a by omega)
  have hbLow := unitsOfInt_mono (show 0 ≤ b by omega)
  have haHigh := unitsOfInt_mono ha
  have hbHigh := unitsOfInt_mono hb
  refine ⟨?_, by omega⟩
  rcases le_total (2 ^ 62) a with hlarge | hsmall
  · have := unitsOfInt_mono hlarge
    omega
  · have := unitsOfInt_mono (show 2 ^ 62 ≤ b by omega)
    omega

section Overflow

variable (hx : x.units = unitsOfInt a) (hy : y.units = unitsOfInt b)
include hx hy

/-- A sum that exceeds 64 bits. -/
theorem isLarge_add (ha : a.natAbs ≤ 2 ^ 63) (hb : b.natAbs ≤ 2 ^ 63)
    (hsum : 2 ^ 63 ≤ (a + b).natAbs) :
    IsLarge (decide (a + b < 0)) (add (.finite x) (.finite y)) := by
  have hunit := unitsPerOne_pos
  -- the sum of the values nearest to the integers has the sign of the sum and is as large
  have hbounds : 2 ^ 62 * unitsPerOne ≤ (x.units + y.units).natAbs ∧
      (x.units + y.units).natAbs ≤ 2 ^ 65 * unitsPerOne ∧ (x.units + y.units < 0 ↔ a + b < 0) := by
    rw [hx, hy]
    rcases le_or_gt 0 (a + b) with hpos | hneg
    · have := unitsOfInt_add_bounds (a := a) (b := b) (by omega) (by omega) (by omega)
      omega
    · have := unitsOfInt_add_bounds (a := -a) (b := -b) (by omega) (by omega) (by omega)
      rw [unitsOfInt_neg, unitsOfInt_neg] at this
      omega
  obtain ⟨hlow, hhigh, hsign⟩ := hbounds
  have hne : x.units + y.units ≠ 0 := by
    intro hzero
    rw [hzero] at hlow
    omega
  have hadd : add (.finite x) (.finite y) =
      ofRatio (decide (x.units + y.units < 0)) (x.units + y.units).natAbs unitsPerOne :=
    if_neg hne
  rw [hadd, decide_eq_decide.mpr hsign]
  exact isLarge_ofRatio _ hunit hlow (hhigh.trans (Nat.mul_le_mul_right _ (by decide)))

/-- A product that exceeds 64 bits. -/
theorem isLarge_mul (ha : a.natAbs ≤ 2 ^ 63) (hb : b.natAbs ≤ 2 ^ 63)
    (hproduct : 2 ^ 63 ≤ (a * b).natAbs) :
    IsLarge (decide (a * b < 0)) (mul (.finite x) (.finite y)) := by
  have hane : a ≠ 0 := by
    rintro rfl
    simp at hproduct
  have hbne : b ≠ 0 := by
    rintro rfl
    simp at hproduct
  have hsign : (x.negative != y.negative) = decide (a * b < 0) := by
    rw [negative_of_units hx hane, negative_of_units hy hbne, Bool.eq_iff_iff]
    simp only [bne_iff_ne, ne_eq, decide_eq_decide, decide_eq_true_eq, mul_neg_iff]
    omega
  have haLow := Nat.log2_self_le (Int.natAbs_ne_zero.mpr hane)
  have hbLow := Nat.log2_self_le (Int.natAbs_ne_zero.mpr hbne)
  -- the powers of two below the factors make more than a quarter of the product
  have hlogs : 2 ^ 62 ≤ 2 ^ a.natAbs.log2 * 2 ^ b.natAbs.log2 := by
    have hexceeds : 2 ^ 63 < 2 ^ (a.natAbs.log2 + 1 + (b.natAbs.log2 + 1)) := by
      calc 2 ^ 63 ≤ a.natAbs * b.natAbs := by rwa [Int.natAbs_mul] at hproduct
        _ < 2 ^ (a.natAbs.log2 + 1) * 2 ^ (b.natAbs.log2 + 1) :=
            Nat.mul_lt_mul'' Nat.lt_log2_self Nat.lt_log2_self
        _ = 2 ^ (a.natAbs.log2 + 1 + (b.natAbs.log2 + 1)) := (pow_add 2 _ _).symm
    have hsum := (Nat.pow_lt_pow_iff_right (by decide)).mp hexceeds
    rw [← pow_add]
    exact Nat.pow_le_pow_right (by decide) (by omega)
  have hlow := scaled_mul_le (le_magnitude hx haLow) (le_magnitude hy hbLow)
  have hhigh := mul_le_scaled (magnitude_le (k := 63) hx hane (by omega))
    (magnitude_le (k := 63) hy hbne (by omega))
  have hpow : 2 ^ (63 + 1) * 2 ^ (63 + 1) = 2 ^ 128 := by decide
  rw [hpow] at hhigh
  rw [mul, hsign]
  refine isLarge_ofRatio _ (Nat.mul_pos unitsPerOne_pos unitsPerOne_pos) ?_ hhigh
  exact (Nat.mul_le_mul_right _ hlogs).trans hlow

/-- The one quotient that exceeds 64 bits. -/
theorem isLarge_div (ha : a = -2 ^ 63) (hb : b = -1) :
    IsLarge false (div (.finite x) (.finite y)) := by
  have hane : a ≠ 0 := by omega
  have hbne : b ≠ 0 := by omega
  have hsign : (x.negative != y.negative) = false := by
    rw [negative_of_units hx hane, negative_of_units hy hbne, ha, hb]
    rfl
  have hxLow := le_magnitude (k := 63) hx (by omega)
  have hxHigh := magnitude_le (k := 63) hx hane (by omega)
  have hyLow := le_magnitude (k := 0) hy (by omega)
  have hyHigh := magnitude_le (k := 0) hy hbne (by omega)
  have hunit := unitsPerOne_pos
  have hzero : y.isZero = false := Bool.eq_false_iff.mpr fun h => hbne ((isZero_iff hy).mp h)
  rw [div, hzero, hsign]
  generalize unitsPerOne = unit at *
  exact isLarge_ofRatio false (by omega) (by omega) (by omega)

end Overflow

end Binary64

end TextTemplate
