import TextTemplate.Proofs.Number.Rounding
import TextTemplate.Proofs.Value.Proper
import TextTemplate.Value.Compare
import Mathlib.Data.Char
import Mathlib.Data.List.Lex
import Mathlib.Order.Compare
/-! # The order used for sorting

Numbers are compared in two ways: whole numbers exactly, all other pairs as floating-point values.
So the order is reversed when its sides change places, but it is not transitive: a floating-point
value may be equal to two different whole numbers that are rounded to it. Main statement: no other
three values of the data model stand in the way of a preorder.
-/

namespace TextTemplate

namespace Number

/-- The number as a floating-point value, in units of `2 ^ leastExponent`. -/
def units : Number → Int
  | .int n => Binary64.unitsOfInt n
  | .float x => x.units

/-- The order of two numbers of the data model. -/
def comparison : Number → Number → Ordering
  | .int a, .int b => compare a b
  | a, b => compare a.units b.units

/-- A number that fits is a finite float, the nearest one. -/
theorem exists_toBinary64 {n : Number} (h : n.Fits) :
    ∃ x, n.toBinary64 = .finite x ∧ x.units = n.units := by
  cases n with
  | int n =>
      obtain ⟨hlow, hhigh⟩ := h
      exact Binary64.exists_ofInt_eq_finite (by omega)
  | float x => exact ⟨x, rfl, rfl⟩

/-- Any two numbers of the data model are ordered. -/
theorem order_eq {a b : Number} (ha : a.Fits) (hb : b.Fits) :
    a.order b = some (a.comparison b) := by
  obtain ⟨x, hx, hxunits⟩ := exists_toBinary64 ha
  obtain ⟨y, hy, hyunits⟩ := exists_toBinary64 hb
  have hunits : x.order y = compare a.units b.units := by rw [Finite64.order, hxunits, hyunits]
  cases a <;> cases b <;> simp [order, comparison, hx, hy, hunits]

/-- The comparison of two numbers the other way round is the other outcome. -/
theorem comparison_swap (a b : Number) : b.comparison a = (a.comparison b).swap := by
  cases a <;> cases b <;> exact Std.OrientedOrd.eq_swap

/-- Numbers in order are in order as floating-point values. -/
theorem units_le_of_comparison {a b : Number} (h : a.comparison b ≠ .gt) : a.units ≤ b.units := by
  cases a <;> cases b
  case int.int a b => exact Binary64.unitsOfInt_mono (Int.compare_ne_gt.mp h)
  all_goals exact Int.compare_ne_gt.mp h

/-- Of three numbers in order the first comes behind the last only if they are whole numbers and the
one between them is not. Then all three are one as floating-point values. -/
theorem comparison_trans_iff {a b c : Number} :
    (a.comparison b ≠ .gt ∧ b.comparison c ≠ .gt ∧ a.comparison c = .gt) ↔
      ∃ m x n, a = .int m ∧ b = .float x ∧ c = .int n ∧ n < m ∧
        a.comparison b = .eq ∧ b.comparison c = .eq := by
  constructor
  · rintro ⟨hab, hbc, hac⟩
    have habUnits := units_le_of_comparison hab
    have hbcUnits := units_le_of_comparison hbc
    have hunits : ¬ c.units < a.units := not_lt.mpr (habUnits.trans hbcUnits)
    cases a with
    | float x => cases c <;> exact absurd (compare_gt_iff_gt.mp hac) hunits
    | int m =>
        cases c with
        | float y => exact absurd (compare_gt_iff_gt.mp hac) hunits
        | int n =>
            have hlt : n < m := compare_gt_iff_gt.mp hac
            have hback : (Number.int n).units ≤ (Number.int m).units :=
              Binary64.unitsOfInt_mono hlt.le
            cases b with
            | int k =>
                have hmk : m ≤ k := Int.compare_ne_gt.mp hab
                have hkn : k ≤ n := Int.compare_ne_gt.mp hbc
                omega
            | float x =>
                refine ⟨m, x, n, rfl, rfl, rfl, hlt, ?_, ?_⟩
                · exact compare_eq_iff_eq.mpr (by omega)
                · exact compare_eq_iff_eq.mpr (by omega)
  · rintro ⟨m, x, n, rfl, rfl, rfl, hlt, hab, hbc⟩
    exact ⟨by rw [hab]; decide, by rw [hbc]; decide, compare_gt_iff_gt.mpr hlt⟩

end Number

namespace Value

variable {a b c : Value}

/-- Whether `b` is a floating-point value that two different whole numbers are rounded to, the
greater one `a` and the smaller one `c`. -/
def Blurred (a b c : Value) : Prop :=
  ∃ m x n, a = .number (.int m) ∧ b = .number (.float x) ∧ c = .number (.int n) ∧ n < m ∧
    a.sortOrder b = .eq ∧ b.sortOrder c = .eq

theorem sortOrder_number {m n : Number} (hm : m.Fits) (hn : n.Fits) :
    (Value.number m).sortOrder (.number n) = m.comparison n := by
  simp [sortOrder, order?, Number.order_eq hm hn]

/-- Values of different kinds are ordered by kind. -/
theorem sortOrder_of_rank_ne (h : a.rank ≠ b.rank) : a.sortOrder b = compare a.rank b.rank := by
  cases a <;> cases b <;> first | rfl | exact absurd rfl h

/-- Values of lower rank come first. -/
theorem rank_le_of_sortOrder (h : a.sortOrder b ≠ .gt) : a.rank ≤ b.rank := by
  by_contra hlt
  rw [sortOrder_of_rank_ne (by omega)] at h
  exact h (compare_gt_iff_gt.mpr (by omega))

/-- The order of texts, as the lists of their characters. -/
theorem compareOfLessAndEq_swap (s t : List Char) :
    compareOfLessAndEq t s = (compareOfLessAndEq s t).swap :=
  compareOfLessAndEq_eq_swap le_antisymm le_total not_le

theorem compareOfLessAndEq_ne_gt {s t : List Char} : compareOfLessAndEq s t ≠ .gt ↔ s ≤ t := by
  rw [Ne, compareOfLessAndEq_eq_gt le_antisymm le_total not_le, not_lt]

/-- The order is reversed when its sides change places. -/
theorem sortOrder_swap (ha : a.Proper) (hb : b.Proper) : b.sortOrder a = (a.sortOrder b).swap := by
  by_cases hrank : a.rank = b.rank
  · cases a with
    | number m =>
        cases b with
        | number n =>
            rw [sortOrder_number ha.fits hb.fits, sortOrder_number hb.fits ha.fits]
            exact Number.comparison_swap m n
        | _ => cases hrank
    | string s =>
        cases b with
        | string t => exact compareOfLessAndEq_swap s.toList t.toList
        | _ => cases hrank
    | bool x =>
        cases b with
        | bool y => exact Std.OrientedOrd.eq_swap
        | _ => cases hrank
    | _ =>
        cases b <;> cases hrank
        rfl
  · rw [sortOrder_of_rank_ne hrank, sortOrder_of_rank_ne (Ne.symm hrank)]
    exact Std.OrientedOrd.eq_swap

/-- The kind of a value that stands between two of one kind. -/
theorem rank_between (hab : a.sortOrder b ≠ .gt) (hbc : b.sortOrder c ≠ .gt)
    (hac : a.sortOrder c = .gt) : a.rank = b.rank ∧ a.rank = c.rank := by
  have habRank := rank_le_of_sortOrder hab
  have hbcRank := rank_le_of_sortOrder hbc
  have hacRank : a.rank = c.rank := by
    by_contra hne
    rw [sortOrder_of_rank_ne hne] at hac
    have := compare_gt_iff_gt.mp hac
    omega
  omega

/-- What is no number is not in the way of a preorder. -/
theorem sortOrder_trans_of_not_number (ha : ∀ n, a ≠ .number n) (hab : a.sortOrder b ≠ .gt)
    (hbc : b.sortOrder c ≠ .gt) : a.sortOrder c ≠ .gt := by
  intro hac
  obtain ⟨habRank, hacRank⟩ := rank_between hab hbc hac
  cases a with
  | number n => exact ha n rfl
  | string s =>
      cases b <;> cases habRank
      next t =>
      cases c <;> cases hacRank
      next u =>
      have hle : s.toList ≤ u.toList :=
        (compareOfLessAndEq_ne_gt.mp hab).trans (compareOfLessAndEq_ne_gt.mp hbc)
      exact compareOfLessAndEq_ne_gt.mpr hle hac
  | bool x =>
      cases b <;> cases habRank
      next y =>
      cases c <;> cases hacRank
      next z =>
      have hle : x.toNat ≤ z.toNat :=
        (compare_le_iff_le.mp hab).trans (compare_le_iff_le.mp hbc)
      exact compare_le_iff_le.mpr hle hac
  | _ =>
      cases c <;> cases hacRank
      cases hac

/-- Three values of the data model stand in the way of a preorder only if the first and the last are
different whole numbers and the one between them is the floating-point value of both. -/
theorem sortOrder_trans_iff (ha : a.Proper) (hb : b.Proper) (hc : c.Proper) :
    (a.sortOrder b ≠ .gt ∧ b.sortOrder c ≠ .gt ∧ a.sortOrder c = .gt) ↔ Blurred a b c := by
  constructor
  · rintro ⟨hab, hbc, hac⟩
    obtain ⟨habRank, hacRank⟩ := rank_between hab hbc hac
    by_cases hnumber : ∃ n, a = .number n
    · obtain ⟨m, rfl⟩ := hnumber
      cases b <;> cases habRank
      next k =>
      cases c <;> cases hacRank
      next n =>
      rw [sortOrder_number ha.fits hb.fits] at hab
      rw [sortOrder_number hb.fits hc.fits] at hbc
      rw [sortOrder_number ha.fits hc.fits] at hac
      obtain ⟨m, x, n, rfl, rfl, rfl, hlt, hab, hbc⟩ :=
        Number.comparison_trans_iff.mp ⟨hab, hbc, hac⟩
      refine ⟨m, x, n, rfl, rfl, rfl, hlt, ?_, ?_⟩
      · rwa [sortOrder_number ha.fits hb.fits]
      · rwa [sortOrder_number hb.fits hc.fits]
    · exact absurd hac (sortOrder_trans_of_not_number (not_exists.mp hnumber) hab hbc)
  · rintro ⟨m, x, n, rfl, rfl, rfl, hlt, hab, hbc⟩
    refine ⟨by rw [hab]; decide, by rw [hbc]; decide, ?_⟩
    rw [sortOrder_number ha.fits hc.fits]
    exact compare_gt_iff_gt.mpr hlt

/-- `2 ^ 53 + 1` and `2 ^ 53` are both rounded to `2 ^ 53`. -/
example : Blurred (.number (.int 9007199254740993)) (.number (.float ⟨false, 4503599627370496, 1⟩))
    (.number (.int 9007199254740992)) :=
  ⟨_, _, _, rfl, rfl, rfl, by decide, by decide +kernel, by decide +kernel⟩

end Value

end TextTemplate
