import TextTemplate.Number.Binary64
import Mathlib.Algebra.Order.Field.Power
import Mathlib.Tactic.FieldSimp
import Mathlib.Tactic.Linarith
import Mathlib.Tactic.Positivity
import Mathlib.Tactic.Ring
/-! # Rounding keeps the order

A quotient is rounded to a multiple of a power of two, which grows with the quotient. Main
statements: of two quotients the smaller one is not rounded to the larger value, and quotients below
`2 ^ 1023` stay finite.
-/

namespace TextTemplate

/-! ## Whole numbers -/

/-- Rounding does not fall below the quotient. -/
theorem div_le_roundHalfEven (num den : Nat) : num / den ≤ roundHalfEven num den := by
  unfold roundHalfEven
  dsimp only
  split
  · exact le_refl _
  · exact Nat.le_succ _
  · split
    · exact le_refl _
    · exact Nat.le_succ _

/-- Rounding adds at most one to the quotient. -/
theorem roundHalfEven_le (num den : Nat) : roundHalfEven num den ≤ num / den + 1 := by
  unfold roundHalfEven
  dsimp only
  split
  · exact Nat.le_succ _
  · exact le_refl _
  · split
    · exact Nat.le_succ _
    · exact le_refl _

/-- What is rounded up lies at least half way, and behind it if the number below is even. -/
theorem roundHalfEven_eq_succ_iff (num den : Nat) :
    roundHalfEven num den = num / den + 1 ↔
      den < 2 * (num % den) ∨ den = 2 * (num % den) ∧ (num / den) % 2 = 1 := by
  unfold roundHalfEven
  dsimp only
  split
  next h =>
    have := Nat.compare_eq_lt.mp h
    omega
  next h =>
    have := Nat.compare_eq_gt.mp h
    omega
  next h =>
    have := Nat.compare_eq_eq.mp h
    split <;> omega

/-- Rounding to the nearest integer, ties to even, is monotone. -/
theorem roundHalfEven_mono {num den num' den' : Nat} (hden : 0 < den) (hden' : 0 < den')
    (h : num * den' ≤ num' * den) : roundHalfEven num den ≤ roundHalfEven num' den' := by
  have hquotient : num / den ≤ num' / den' := by
    rw [Nat.le_div_iff_mul_le hden']
    refine Nat.le_of_mul_le_mul_right ?_ hden
    calc num / den * den' * den = num / den * den * den' := by ring
      _ ≤ num * den' := Nat.mul_le_mul_right den' (Nat.div_mul_le_self num den)
      _ ≤ num' * den := h
  rcases hquotient.lt_or_eq with hlt | heq
  · calc roundHalfEven num den ≤ num / den + 1 := roundHalfEven_le num den
      _ ≤ num' / den' := hlt
      _ ≤ roundHalfEven num' den' := div_le_roundHalfEven num' den'
  · -- the whole number below is the same, so the remainders decide
    have hremainder : num % den * den' ≤ num' % den' * den := by
      have hnum := Nat.div_add_mod num den
      have hnum' := Nat.div_add_mod num' den'
      rw [← heq] at hnum'
      rw [← hnum, ← hnum'] at h
      nlinarith
    by_contra hlt
    have hup : roundHalfEven num den = num / den + 1 := by
      have := roundHalfEven_le num den
      have := div_le_roundHalfEven num' den'
      omega
    have hdown : roundHalfEven num' den' ≠ num' / den' + 1 := by omega
    rw [roundHalfEven_eq_succ_iff] at hup
    rw [Ne, roundHalfEven_eq_succ_iff, ← heq] at hdown
    have hcross : 2 * (num % den) * den' ≤ 2 * (num' % den') * den := by
      calc 2 * (num % den) * den' = 2 * (num % den * den') := by ring
        _ ≤ 2 * (num' % den' * den) := Nat.mul_le_mul_left 2 hremainder
        _ = 2 * (num' % den') * den := by ring
    rcases hup with hbehind | ⟨hmiddle, hodd⟩
    · have hstrict : den' * den < 2 * (num' % den') * den := by
        calc den' * den = den * den' := Nat.mul_comm den' den
          _ < 2 * (num % den) * den' := Nat.mul_lt_mul_of_pos_right hbehind hden'
          _ ≤ 2 * (num' % den') * den := hcross
      exact hdown (.inl (Nat.lt_of_mul_lt_mul_right hstrict))
    · have hle : den' * den ≤ 2 * (num' % den') * den := by
        calc den' * den = 2 * (num % den) * den' := by rw [← hmiddle, Nat.mul_comm]
          _ ≤ 2 * (num' % den') * den := hcross
      rcases (Nat.le_of_mul_le_mul_right hle hden).lt_or_eq with hbehind' | hmiddle'
      · exact hdown (.inl hbehind')
      · exact hdown (.inr ⟨hmiddle', hodd⟩)

/-- An integer is rounded to itself. -/
theorem roundHalfEven_mul_self (n : Nat) {den : Nat} (hden : 0 < den) :
    roundHalfEven (n * den) den = n := by
  have hdiv : n * den / den = n := Nat.mul_div_cancel n hden
  have hmod : n * den % den = 0 := Nat.mul_mod_left n den
  have hne : roundHalfEven (n * den) den ≠ n * den / den + 1 := by
    rw [Ne, roundHalfEven_eq_succ_iff, hmod]
    omega
  have := div_le_roundHalfEven (n * den) den
  have := roundHalfEven_le (n * den) den
  omega

/-! ## Binary exponents -/

/-- A ratio as a rational number. -/
abbrev ratio (num den : Nat) : ℚ := num / den

theorem two_zpow_mul_toNat (k : Int) : (2 : ℚ) ^ k * 2 ^ (-k).toNat = 2 ^ k.toNat := by
  rcases le_total 0 k with h | h
  · lift k to ℕ using h
    simp
  · obtain ⟨n, rfl⟩ : ∃ n : ℕ, k = -n := ⟨(-k).toNat, by omega⟩
    simp

/-- Comparing a quotient with a power of two, in whole numbers. -/
theorem lt_two_zpow_iff {num den : Nat} (hden : 0 < den) (k : Int) :
    num * Nat.pow 2 (-k).toNat < den * Nat.pow 2 k.toNat ↔ ratio num den < 2 ^ k := by
  have hpos : (0 : ℚ) < den := by exact_mod_cast hden
  have hscale : (0 : ℚ) < 2 ^ (-k).toNat := by positivity
  rw [ratio, div_lt_iff₀ hpos, ← mul_lt_mul_iff_left₀ hscale, mul_right_comm, two_zpow_mul_toNat,
    mul_comm ((2 : ℚ) ^ k.toNat)]
  exact_mod_cast Iff.rfl

/-- The binary logarithm of a number finds the two powers of two it lies between. -/
theorem ratio_log2_bounds {n : Nat} (hn : 0 < n) :
    (2 : ℚ) ^ (n.log2 : Int) ≤ n ∧ (n : ℚ) < 2 ^ ((n.log2 : Int) + 1) := by
  have hlow : 2 ^ n.log2 ≤ n := Nat.log2_self_le hn.ne'
  have hhigh : n < 2 ^ (n.log2 + 1) := Nat.lt_log2_self
  constructor
  · exact_mod_cast hlow
  · exact_mod_cast hhigh

/-- The binary logarithm of a ratio finds the two powers of two it lies between. -/
theorem ratioLog2_spec {num den : Nat} (hnum : 0 < num) (hden : 0 < den) :
    2 ^ ratioLog2 num den ≤ ratio num den ∧ ratio num den < 2 ^ (ratioLog2 num den + 1) := by
  obtain ⟨hnumLow, hnumHigh⟩ := ratio_log2_bounds hnum
  obtain ⟨hdenLow, hdenHigh⟩ := ratio_log2_bounds hden
  have hpos : (0 : ℚ) < den := by exact_mod_cast hden
  have hlow : 2 ^ ((num.log2 : Int) - den.log2 - 1) ≤ ratio num den := by
    rw [le_div_iff₀ hpos]
    calc (2 : ℚ) ^ ((num.log2 : Int) - den.log2 - 1) * den
        ≤ 2 ^ ((num.log2 : Int) - den.log2 - 1) * 2 ^ ((den.log2 : Int) + 1) := by gcongr
      _ = 2 ^ (num.log2 : Int) := by
          rw [← zpow_add₀ two_ne_zero]
          congr 1
          ring
      _ ≤ num := hnumLow
  have hhigh : ratio num den < 2 ^ ((num.log2 : Int) - den.log2 + 1) := by
    rw [div_lt_iff₀ hpos]
    calc (num : ℚ) < 2 ^ ((num.log2 : Int) + 1) := hnumHigh
      _ = 2 ^ ((num.log2 : Int) - den.log2 + 1) * 2 ^ (den.log2 : Int) := by
          rw [← zpow_add₀ two_ne_zero]
          congr 1
          ring
      _ ≤ 2 ^ ((num.log2 : Int) - den.log2 + 1) * den := by gcongr
  unfold ratioLog2
  dsimp only
  split
  next h =>
    rw [lt_two_zpow_iff hden] at h
    exact ⟨hlow, by rwa [sub_add_cancel]⟩
  next h =>
    rw [lt_two_zpow_iff hden, not_lt] at h
    exact ⟨h, hhigh⟩

theorem ratioLog2_lt {num den : Nat} (hnum : 0 < num) (hden : 0 < den) {k : Int}
    (h : ratio num den < 2 ^ k) : ratioLog2 num den < k := by
  have hlow := (ratioLog2_spec hnum hden).1
  exact (zpow_lt_zpow_iff_right₀ one_lt_two).mp (hlow.trans_lt h)

/-- A greater ratio has no smaller logarithm. -/
theorem ratioLog2_mono {num den num' den' : Nat} (hnum : 0 < num) (hden : 0 < den)
    (hnum' : 0 < num') (hden' : 0 < den') (h : ratio num den ≤ ratio num' den') :
    ratioLog2 num den ≤ ratioLog2 num' den' := by
  have hhigh := (ratioLog2_spec hnum' hden').2
  have := ratioLog2_lt hnum hden (h.trans_lt hhigh)
  omega

/-! ## Rounded quotients -/

/-- The exponent at which a quotient is rounded. -/
def roundingExponent (num den : Nat) : Int := max leastExponent (ratioLog2 num den - 52)

/-- The mantissa that a quotient is rounded to. It may be `2 ^ 53`, which is carried. -/
def roundedMantissa (num den : Nat) : Nat :=
  roundHalfEven (num * Nat.pow 2 (-roundingExponent num den).toNat)
    (den * Nat.pow 2 (roundingExponent num den).toNat)

/-- What a quotient is rounded to, in units of `2 ^ leastExponent`. -/
def roundedUnits (num den : Nat) : Nat :=
  roundedMantissa num den * Nat.pow 2 (roundingExponent num den - leastExponent).toNat

variable {num den num' den' : Nat}

/-- A greater ratio is rounded at no smaller exponent. -/
theorem roundingExponent_mono (hnum : 0 < num) (hden : 0 < den) (hnum' : 0 < num')
    (hden' : 0 < den') (h : ratio num den ≤ ratio num' den') :
    roundingExponent num den ≤ roundingExponent num' den' := by
  have := ratioLog2_mono hnum hden hnum' hden' h
  unfold roundingExponent
  omega

theorem ratio_scaled (num den : Nat) (e : Int) :
    ratio (num * Nat.pow 2 (-e).toNat) (den * Nat.pow 2 e.toNat) = ratio num den / 2 ^ e := by
  have hscale := two_zpow_mul_toNat e
  have hpos : (0 : ℚ) < 2 ^ e := by positivity
  simp only [ratio, Nat.pow_eq, Nat.cast_mul, Nat.cast_pow, Nat.cast_ofNat, ← hscale]
  field_simp

theorem roundHalfEven_mono_ratio (hden : 0 < den) (hden' : 0 < den')
    (h : ratio num den ≤ ratio num' den') : roundHalfEven num den ≤ roundHalfEven num' den' := by
  refine roundHalfEven_mono hden hden' ?_
  rw [ratio, ratio, div_le_div_iff₀ (by exact_mod_cast hden) (by exact_mod_cast hden')] at h
  exact_mod_cast h

theorem ratio_scaled_pos (hden : 0 < den) (e : Int) : 0 < den * Nat.pow 2 e.toNat :=
  Nat.mul_pos hden (Nat.pow_pos (by decide))

theorem roundHalfEven_one (n : Nat) : roundHalfEven n 1 = n := by
  have h := roundHalfEven_mul_self n Nat.one_pos
  rwa [Nat.mul_one] at h

theorem ratio_one (n : Nat) : ratio n 1 = n := by simp [ratio]

/-- The mantissa has at most 53 digits, but for the carry. -/
theorem roundedMantissa_le (hnum : 0 < num) (hden : 0 < den) :
    roundedMantissa num den ≤ Nat.pow 2 53 := by
  let e := roundingExponent num den
  have hexponent : ratioLog2 num den + 1 ≤ 53 + e := by
    have : ratioLog2 num den - 52 ≤ e := le_max_right _ _
    omega
  have hratio : ratio num den / 2 ^ e ≤ 2 ^ (53 : Int) := by
    rw [div_le_iff₀ (by positivity), ← zpow_add₀ two_ne_zero]
    exact (ratioLog2_spec hnum hden).2.le.trans (zpow_le_zpow_right₀ one_le_two hexponent)
  rw [← roundHalfEven_one (Nat.pow 2 53)]
  refine roundHalfEven_mono_ratio (ratio_scaled_pos hden e) Nat.one_pos ?_
  rw [ratio_scaled, ratio_one]
  exact_mod_cast hratio

/-- The mantissa has 53 digits unless the exponent is least. -/
theorem le_roundedMantissa (hnum : 0 < num) (hden : 0 < den)
    (h : leastExponent < roundingExponent num den) :
    Nat.pow 2 52 ≤ roundedMantissa num den := by
  let e := roundingExponent num den
  have hexponent : 52 + e = ratioLog2 num den := by
    have : e = max leastExponent (ratioLog2 num den - 52) := rfl
    omega
  have hratio : 2 ^ (52 : Int) ≤ ratio num den / 2 ^ e := by
    rw [le_div_iff₀ (by positivity), ← zpow_add₀ two_ne_zero, hexponent]
    exact (ratioLog2_spec hnum hden).1
  rw [← roundHalfEven_one (Nat.pow 2 52)]
  refine roundHalfEven_mono_ratio Nat.one_pos (ratio_scaled_pos hden e) ?_
  rw [ratio_scaled, ratio_one]
  exact_mod_cast hratio

/-- Of two quotients the smaller is not rounded to more. -/
theorem roundedUnits_mono (hnum : 0 < num) (hden : 0 < den) (hnum' : 0 < num') (hden' : 0 < den')
    (h : ratio num den ≤ ratio num' den') : roundedUnits num den ≤ roundedUnits num' den' := by
  have hleast : leastExponent ≤ roundingExponent num den := le_max_left _ _
  rcases (roundingExponent_mono hnum hden hnum' hden' h).lt_or_eq with hlt | heq
  · -- a smaller exponent leaves at most the power of two at which the greater one starts
    have hlow := roundedMantissa_le hnum hden
    have hhigh := le_roundedMantissa hnum' hden' (hleast.trans_lt hlt)
    obtain ⟨gap, hgap⟩ : ∃ gap : Nat, (roundingExponent num' den' - leastExponent).toNat =
        (roundingExponent num den - leastExponent).toNat + 1 + gap := by
      exact Nat.exists_eq_add_of_le (by omega)
    unfold roundedUnits
    rw [hgap]
    generalize (roundingExponent num den - leastExponent).toNat = k
    calc roundedMantissa num den * 2 ^ k ≤ 2 ^ 53 * 2 ^ k := Nat.mul_le_mul_right _ hlow
      _ = 2 ^ 52 * 2 ^ (k + 1) := by ring
      _ ≤ 2 ^ 52 * 2 ^ (k + 1 + gap) :=
          Nat.mul_le_mul_left _ (Nat.pow_le_pow_right (by decide) (Nat.le_add_right _ gap))
      _ ≤ roundedMantissa num' den' * 2 ^ (k + 1 + gap) := Nat.mul_le_mul_right _ hhigh
  · have hmantissa : roundedMantissa num den ≤ roundedMantissa num' den' := by
      unfold roundedMantissa
      rw [← heq]
      refine roundHalfEven_mono_ratio (ratio_scaled_pos hden _) (ratio_scaled_pos hden' _) ?_
      rw [ratio_scaled, ratio_scaled]
      gcongr
    unfold roundedUnits
    rw [← heq]
    exact Nat.mul_le_mul_right _ hmantissa

/-! ## Values -/

/-- A rounded quotient before it is known to be finite; a mantissa of 54 digits is carried. -/
def roundedValue (negative : Bool) (num den : Nat) : Finite64 :=
  if roundedMantissa num den < Nat.pow 2 53 then
    ⟨negative, roundedMantissa num den, roundingExponent num den⟩
  else ⟨negative, Nat.pow 2 52, roundingExponent num den + 1⟩

/-- Rounding may reach the next power of two, so the exponent grows by one at most. -/
theorem roundedValue_exponent_le (negative : Bool) (num den : Nat) :
    (roundedValue negative num den).exponent ≤ roundingExponent num den + 1 := by
  unfold roundedValue
  split
  · exact Int.le_add_one (Int.le_refl _)
  · exact Int.le_refl _

theorem roundedValue_negative (negative : Bool) (num den : Nat) :
    (roundedValue negative num den).negative = negative := by
  unfold roundedValue
  split <;> rfl

/-- The carry does not change the size. -/
theorem roundedValue_magnitude (negative : Bool) (hnum : 0 < num) (hden : 0 < den) :
    (roundedValue negative num den).magnitude = roundedUnits num den := by
  have hle := roundedMantissa_le hnum hden
  have hleast : leastExponent ≤ roundingExponent num den := le_max_left _ _
  unfold roundedValue roundedUnits
  split
  next => rfl
  next h =>
    have hmantissa : roundedMantissa num den = Nat.pow 2 53 := Nat.le_antisymm hle (Nat.not_lt.mp h)
    have hexponent : (roundingExponent num den + 1 - leastExponent).toNat =
        (roundingExponent num den - leastExponent).toNat + 1 := by omega
    rw [Finite64.magnitude, hmantissa, hexponent]
    generalize (roundingExponent num den - leastExponent).toNat = k
    simp only [Nat.pow_eq]
    ring

namespace Binary64

/-- A ratio is rounded to infinity where the rounded exponent passes the greatest one, and to a
finite float otherwise. -/
theorem ofRatio_eq (negative : Bool) (hnum : 0 < num) (den : Nat) :
    ofRatio negative num den =
      if (roundedValue negative num den).exponent ≤ greatestExponent then
        .finite (roundedValue negative num den)
      else .infinite negative := by
  rw [ofRatio, if_neg hnum.ne']
  rfl

/-- A quotient below `2 ^ 1023` is rounded to a finite value. -/
theorem ofRatio_eq_finite (negative : Bool) (hnum : 0 < num) (hden : 0 < den)
    (h : ratio num den < 2 ^ (1023 : Int)) :
    ofRatio negative num den = .finite (roundedValue negative num den) := by
  have hexponent : roundingExponent num den ≤ 970 := by
    have := ratioLog2_lt hnum hden h
    unfold roundingExponent leastExponent
    omega
  have hgreatest : (971 : Int) = greatestExponent := rfl
  rw [ofRatio_eq negative hnum den, if_pos]
  have := roundedValue_exponent_le negative num den
  omega

/-- The value nearest to a whole number, in units of `2 ^ leastExponent`. -/
def unitsOfInt (n : Int) : Int := n.sign * roundedUnits n.natAbs 1

/-- Integers of 64 bits are rounded to finite values. -/
theorem exists_ofInt_eq_finite {n : Int} (h : n.natAbs < 2 ^ 64) :
    ∃ x, ofInt n = .finite x ∧ x.units = unitsOfInt n := by
  rcases Nat.eq_zero_or_pos n.natAbs with hzero | hpos
  · obtain rfl := Int.natAbs_eq_zero.mp hzero
    refine ⟨Finite64.zero false, rfl, ?_⟩
    have hmagnitude : (Finite64.zero false).magnitude = 0 := Nat.zero_mul _
    rw [unitsOfInt, Int.sign_zero, Int.zero_mul, Finite64.units, hmagnitude]
    rfl
  · refine ⟨_, ofRatio_eq_finite _ hpos Nat.one_pos ?_, ?_⟩
    · rw [ratio_one]
      calc (n.natAbs : ℚ) < 2 ^ 64 := by exact_mod_cast h
        _ ≤ 2 ^ (1023 : Int) := by
            rw [← zpow_natCast]
            exact zpow_le_zpow_right₀ one_le_two (by decide)
    · rw [Finite64.units, roundedValue_negative, roundedValue_magnitude _ hpos Nat.one_pos,
        unitsOfInt]
      rcases lt_trichotomy n 0 with hneg | rfl | hpos
      · simp [hneg, Int.sign_eq_neg_one_of_neg hneg]
      · cases hpos
      · simp [not_lt.mpr hpos.le, Int.sign_eq_one_of_pos hpos]

/-- Of two whole numbers the smaller is not rounded to more. -/
theorem unitsOfInt_mono {m n : Int} (h : m ≤ n) : unitsOfInt m ≤ unitsOfInt n := by
  have hrounded : ∀ {a b : Nat}, 0 < a → a ≤ b → roundedUnits a 1 ≤ roundedUnits b 1 := by
    intro a b ha hab
    refine roundedUnits_mono ha Nat.one_pos (ha.trans_le hab) Nat.one_pos ?_
    rw [ratio_one, ratio_one]
    exact_mod_cast hab
  unfold unitsOfInt
  rcases lt_trichotomy m 0 with hm | rfl | hm
  · rw [Int.sign_eq_neg_one_of_neg hm]
    rcases lt_trichotomy n 0 with hn | rfl | hn
    · rw [Int.sign_eq_neg_one_of_neg hn]
      have := hrounded (a := n.natAbs) (b := m.natAbs) (by omega) (by omega)
      omega
    · rw [Int.sign_zero, Int.zero_mul]
      omega
    · rw [Int.sign_eq_one_of_pos hn]
      omega
  · have hn : 0 ≤ n.sign := Int.sign_nonneg_iff.mpr h
    rw [Int.sign_zero, Int.zero_mul]
    exact Int.mul_nonneg hn (Int.natCast_nonneg _)
  · have hn : 0 < n := hm.trans_le h
    rw [Int.sign_eq_one_of_pos hm, Int.sign_eq_one_of_pos hn]
    have := hrounded (a := m.natAbs) (b := n.natAbs) (by omega) (by omega)
    omega

end Binary64

end TextTemplate
