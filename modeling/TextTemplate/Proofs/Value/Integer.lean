import Mathlib.Data.Rat.Floor
import TextTemplate.Proofs.Value.Numeric
import TextTemplate.Proofs.Value.Proper
/-! # Values as integers

Where an integer is asked for, a value that stands for another number is taken without its fraction
and brought into the range of 64 bits. Main statement: which integer a value counts as, said without
the readers of texts and without units.
-/

namespace TextTemplate

/-- The value as a rational number. -/
def Finite64.toRat (x : Finite64) : ℚ := x.units / unitsPerOne

/-- A rational number without its fraction. -/
def towardZero (q : ℚ) : Int := if 0 ≤ q then ⌊q⌋ else ⌈q⌉

/-- The integer of 64 bits nearest to an integer. -/
def saturated (n : Int) : Int := max (-2 ^ 63) (min (2 ^ 63 - 1) n)

theorem saturated_bounds (n : Int) : -2 ^ 63 ≤ saturated n ∧ saturated n < 2 ^ 63 := by
  unfold saturated
  omega

/-- The integer part of a float is its value, rounded toward zero. -/
theorem Finite64.truncate_eq (x : Finite64) : x.truncate = towardZero x.toRat := by
  have hunit := unitsPerOne_pos
  rw [Finite64.truncate, towardZero, Finite64.toRat]
  generalize unitsPerOne = unit at *
  generalize x.units = units
  have hpos : (0 : ℚ) < unit := by exact_mod_cast hunit
  rcases le_or_gt 0 units with h | h
  · have hnonneg : (0 : ℚ) ≤ units / unit := div_nonneg (by exact_mod_cast h) hpos.le
    rw [if_pos hnonneg, Rat.floor_intCast_div_natCast, Int.tdiv_eq_ediv_of_nonneg h]
  · have hneg : ¬ (0 : ℚ) ≤ units / unit :=
      not_le.mpr (div_neg_of_neg_of_pos (by exact_mod_cast h) hpos)
    obtain ⟨size, rfl⟩ : ∃ size : Int, units = -size := ⟨-units, by omega⟩
    have hflip : ((-size : Int) : ℚ) / unit = -((size : ℚ) / unit) := by
      push_cast
      exact neg_div _ _
    rw [if_neg hneg, hflip, Int.ceil_neg, Rat.floor_intCast_div_natCast, Int.neg_tdiv,
      Int.tdiv_eq_ediv_of_nonneg (by omega)]

namespace Value

/-- The integers that values count as. An integer of 64 bits counts as itself. Any other number
loses its fraction and becomes the nearest integer of 64 bits; no number, written as a text, counts
as zero. -/
inductive CountsAs : Value → Int → Prop
  | exact {value : Value} {n : Int} (hint : value.IsInt64 n) : CountsAs value n
  | finite {value : Value} {x : Finite64} (hnot : ∀ n, ¬ value.IsInt64 n)
      (hdenotes : value.Denotes (.finite x)) : CountsAs value (saturated (towardZero x.toRat))
  | infinite {value : Value} {negative : Bool} (hdenotes : value.Denotes (.infinite negative)) :
      CountsAs value (if negative then -2 ^ 63 else 2 ^ 63 - 1)
  | nan {value : Value} (hdenotes : value.Denotes .nan) : CountsAs value 0

variable {value : Value} {n : Int}

theorem toInt64?_of_isInt64 (h : value.IsInt64 n) : value.toInt64? = some n := by
  cases h with
  | number hfits => simp only [toInt64?, Number.toInt64?, hfits, ↓reduceIte]
  | text hbody hpadded hfits =>
      simp only [toInt64?, readInt64?_trim_eq_some_iff.mpr (.text hbody hpadded hfits)]

/-- A value that is no integer of 64 bits counts as the integer part of its float. -/
theorem toInt64?_of_not_isInt64 (h : ∀ n, ¬ value.IsInt64 n) :
    value.toInt64? = value.toBinary64?.map Binary64.toInt64 := by
  cases value with
  | number m =>
      have hnone : m.toInt64? = none := by
        cases m with
        | float x => rfl
        | int m => exact if_neg fun hfits => h m (.number hfits)
      simp only [toInt64?, hnone]
      rfl
  | string s =>
      have hnone : Numeral.readInt64? (Text.trim s.toList) = none :=
        Option.eq_none_iff_forall_ne_some.mpr fun n hn => h n (readInt64?_trim_eq_some_iff.mp hn)
      simp only [toInt64?, hnone]
      rfl
  | _ => rfl

/-- An integer of 64 bits is a finite number. -/
theorem not_isInt64_of_denotes {x : Binary64} (hdenotes : value.Denotes x)
    (hx : ∀ y, x ≠ .finite y) (n : Int) : ¬ value.IsInt64 n := by
  intro hint
  obtain ⟨y, hy, -⟩ := hint.denotes
  exact hx y (hdenotes.unique hy)

/-- The integer of a value is the one it counts as. -/
theorem toInt64?_eq_some_iff : value.toInt64? = some n ↔ value.CountsAs n := by
  have hview : ∀ {x : Binary64}, (∀ n, ¬ value.IsInt64 n) → value.Denotes x →
      value.toInt64? = some x.toInt64 := by
    intro x hnot hdenotes
    rw [toInt64?_of_not_isInt64 hnot, toBinary64?_eq_some_iff.mpr hdenotes, Option.map_some]
  have hfinite : ∀ x : Finite64, (Binary64.finite x).toInt64 = saturated (towardZero x.toRat) := by
    intro x
    rw [← x.truncate_eq]
    rfl
  constructor
  · intro h
    by_cases hint : ∃ m, value.IsInt64 m
    · obtain ⟨m, hint⟩ := hint
      obtain rfl : m = n := Option.some.inj ((toInt64?_of_isInt64 hint).symm.trans h)
      exact .exact hint
    · have hnot : ∀ m, ¬ value.IsInt64 m := not_exists.mp hint
      rw [toInt64?_of_not_isInt64 hnot] at h
      obtain ⟨x, hx, rfl⟩ := Option.map_eq_some_iff.mp h
      have hdenotes := toBinary64?_eq_some_iff.mp hx
      cases x with
      | nan => exact .nan hdenotes
      | infinite negative => cases negative <;> exact .infinite hdenotes
      | finite x =>
          rw [hfinite]
          exact .finite hnot hdenotes
  · intro h
    cases h with
    | exact hint => exact toInt64?_of_isInt64 hint
    | finite hnot hdenotes => rw [hview hnot hdenotes, hfinite]
    | @infinite negative hdenotes =>
        rw [hview (not_isInt64_of_denotes hdenotes nofun) hdenotes]
        cases negative <;> rfl
    | nan hdenotes => exact hview (not_isInt64_of_denotes hdenotes nofun) hdenotes

/-- A value has no integer exactly if it denotes no number. -/
theorem toInt64?_eq_none_iff : value.toInt64? = none ↔ ∀ x, ¬ value.Denotes x := by
  have hnone : value.toBinary64? = none ↔ ∀ x, ¬ value.Denotes x := by
    simp only [Option.eq_none_iff_forall_ne_some, ne_eq, toBinary64?_eq_some_iff]
  rw [← hnone]
  by_cases hint : ∃ m, value.IsInt64 m
  · obtain ⟨m, hint⟩ := hint
    obtain ⟨x, hdenotes, -⟩ := hint.denotes
    rw [toInt64?_of_isInt64 hint, toBinary64?_eq_some_iff.mpr hdenotes]
    exact iff_of_false nofun nofun
  · rw [toInt64?_of_not_isInt64 (not_exists.mp hint), Option.map_eq_none_iff]

theorem CountsAs.bounds (h : value.CountsAs n) : -2 ^ 63 ≤ n ∧ n < 2 ^ 63 := by
  cases h with
  | exact hint => exact hint.bounds
  | finite => exact saturated_bounds _
  | @infinite negative => cases negative <;> decide
  | nan => decide

/-- Whole numbers count as the nearest integers of 64 bits, also those beyond them, which are
rounded before. -/
theorem countsAs_int (h : (Number.int n).Fits) :
    (Value.number (.int n)).CountsAs (saturated n) := by
  obtain ⟨hlow, hhigh⟩ := h
  rcases lt_or_ge n (2 ^ 63) with hsmall | hlarge
  · have hself : saturated n = n := by
      unfold saturated
      omega
    rw [hself]
    exact .exact (.number (Numeral.fitsInt64_iff.mpr ⟨by omega, hsmall⟩))
  · obtain ⟨x, hx, hunits⟩ := Binary64.exists_ofInt_eq_finite (n := n) (by omega)
    have hnot : ∀ m, ¬ (Value.number (.int n)).IsInt64 m := by
      rintro m ⟨hfits⟩
      exact Numeral.not_fitsInt64_of_le hlarge hfits
    have hrational : (2 ^ 63 : ℚ) ≤ x.toRat := by
      have hpow := (Binary64.unitsOfInt_two_pow 63).1
      have hmono := Binary64.unitsOfInt_mono hlarge
      have hunit := unitsPerOne_pos
      rw [Finite64.toRat, hunits]
      generalize unitsPerOne = unit at *
      rw [le_div_iff₀ (by exact_mod_cast hunit)]
      exact_mod_cast hpow.trans hmono
    have hfloor : 2 ^ 63 ≤ towardZero x.toRat := by
      rw [towardZero, if_pos (le_trans (by norm_num) hrational)]
      exact Int.le_floor.mpr (by exact_mod_cast hrational)
    have hends : saturated n = saturated (towardZero x.toRat) := by
      unfold saturated
      omega
    rw [hends]
    exact .finite hnot (hx ▸ .number (.int n))

end Value

end TextTemplate
