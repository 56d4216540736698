import TextTemplate.Eval
import TextTemplate.Proofs.Value.Integer
/-! # Ranges

A range between two bounds is the array of the integers from the first to the last, unless there are
more of them than a loop may run over. Their number is compared with the limit before there is any
array; it may be as large as `2 ^ 64`, although each of them has 64 bits.
-/

namespace TextTemplate.Context

variable {context : Context} {a b : Expr} {first last : Value}

/-- The integer that a value stands for as a bound of a range; what is no number is zero. -/
def IsBound (value : Value) (n : Int) : Prop :=
  value.CountsAs n ∨ (∀ x, ¬ value.Denotes x) ∧ n = 0

/-- What a range takes for its bound is the integer of the value, or zero if it has none. -/
theorem isBound_iff {value : Value} {n : Int} : IsBound value n ↔ n = value.toInt64?.getD 0 := by
  cases hview : value.toInt64? with
  | none =>
      have hnone := Value.toInt64?_eq_none_iff.mp hview
      have hcounts : ¬ value.CountsAs n := by
        rw [← Value.toInt64?_eq_some_iff, hview]
        nofun
      simp [IsBound, hcounts, hnone]
  | some m =>
      have hcounts : ∀ n, value.CountsAs n ↔ m = n := by
        intro n
        rw [← Value.toInt64?_eq_some_iff, hview, Option.some.injEq]
      have hsome : ¬ ∀ x, ¬ value.Denotes x := by
        rw [← Value.toInt64?_eq_none_iff, hview]
        nofun
      simp [IsBound, hcounts, hsome, eq_comm]

/-- Bounds are integers of 64 bits. -/
theorem IsBound.fits {value : Value} {n : Int} (h : IsBound value n) :
    -2 ^ 63 ≤ n ∧ n < 2 ^ 63 := by
  rcases h with hcounts | ⟨-, rfl⟩
  · exact hcounts.bounds
  · decide

theorem length_integers (s e : Int) : (integers s e).length = (e - s + 1).toNat := by
  rw [integers, List.length_map, List.length_range]

theorem getElem?_integers {i : Nat} (h : i < (integers s e).length) :
    (integers s e)[i]? = some (.ofInt (s + i)) := by
  rw [length_integers] at h
  rw [integers, List.getElem?_map, List.getElem?_range h, Option.map_some]

/-- A range is empty if its last bound is below the first. Otherwise it is the array of the integers
from the first to the last in order, as many as there are, if these are no more than the limit, and
an error at its place if they are more. No bound of 64 bits is an exception. -/
theorem evaluate_range (ha : context.evaluate a = .ok first) (hb : context.evaluate b = .ok last)
    (position : Position) :
    ∃ s e : Int, (∀ n, IsBound first n ↔ n = s) ∧ (∀ n, IsBound last n ↔ n = e) ∧
      (-2 ^ 63 ≤ s ∧ s < 2 ^ 63) ∧ (-2 ^ 63 ≤ e ∧ e < 2 ^ 63) ∧
      (e < s → context.evaluate (.range a b position) = .ok (.array [])) ∧
      (s ≤ e → e - s + 1 ≤ context.maxIterations →
        ∃ items, context.evaluate (.range a b position) = .ok (.array items) ∧
          (items.length : Int) = e - s + 1 ∧
          ∀ i < items.length, items[i]? = some (.ofInt (s + i))) ∧
      (s ≤ e → context.maxIterations < e - s + 1 →
        context.evaluate (.range a b position) =
          .error (.iterationLimitExceeded context.maxIterations position)) := by
  have hvalue : context.evaluate (.range a b position) = context.range first last position := by
    rw [evaluate, ha, hb]
    rfl
  have hfirst : ∀ n, IsBound first n ↔ n = first.toInt64?.getD 0 := fun _ => isBound_iff
  have hlast : ∀ n, IsBound last n ↔ n = last.toInt64?.getD 0 := fun _ => isBound_iff
  refine ⟨_, _, hfirst, hlast, ((hfirst _).mpr rfl).fits, ((hlast _).mpr rfl).fits, ?_⟩
  rw [hvalue, range]
  generalize first.toInt64?.getD 0 = s
  generalize last.toInt64?.getD 0 = e
  refine ⟨fun hempty => ?empty, fun hle hlimit => ?whole, fun hle hlimit => ?exceeded⟩
  case empty => exact if_pos hempty
  case whole =>
    refine ⟨integers s e, ?_, ?_, fun i hi => getElem?_integers hi⟩
    · rw [if_neg (not_lt.mpr hle), if_neg (not_lt.mpr hlimit)]
    · rw [length_integers]
      omega
  case exceeded => rw [if_neg (not_lt.mpr hle), if_pos hlimit]

/-- The last two integers of 64 bits, between a text and a whole number beyond them; and a range
that is longer than any limit of 64 bits. -/
theorem evaluate_range_greatest :
    let text := Expr.literal (.string " +9223372036854775806\n")
    let least := Expr.literal (.number (.int (-9223372036854775808)))
    let beyond := Expr.literal (.number (.int 18446744073709551615))
    let scope := Scope.ofDocument .null
    evaluate ⟨scope, 2⟩ (.range text beyond .start) =
        .ok (.array [.ofInt 9223372036854775806, .ofInt 9223372036854775807]) ∧
      evaluate ⟨scope, 18446744073709551615⟩ (.range least beyond .start) =
        .error (.iterationLimitExceeded 18446744073709551615 .start) := by
  intro text least beyond scope
  have htext : IsBound (.string " +9223372036854775806\n") 9223372036854775806 := by
    refine .inl (.exact (.text (@Numeral.WritesInt.intro ['+'] "9223372036854775806".toList _ .plus
      (Numeral.isDigits_iff.mpr rfl)) ?_ (by decide)))
    exact ⟨[' '], ['\n'], List.forall_mem_singleton.mpr rfl, List.forall_mem_singleton.mpr rfl, rfl⟩
  have hleast : IsBound (.number (.int (-9223372036854775808))) (-9223372036854775808) :=
    .inl (.exact (.number (by decide)))
  have hbeyond : IsBound (.number (.int 18446744073709551615)) 9223372036854775807 :=
    .inl (Value.countsAs_int ⟨by decide, by decide⟩)
  have hlit : ∀ limit value, evaluate ⟨scope, limit⟩ (.literal value) = .ok value :=
    fun _ _ => rfl
  obtain ⟨s, e, hs, he, -, -, -, hwhole, -⟩ := evaluate_range (hlit 2 _) (hlit 2 _) .start
  obtain rfl := (hs _).mp htext
  obtain rfl := (he _).mp hbeyond
  obtain ⟨items, hitems, hlength, hget⟩ := hwhole (by decide) (by decide)
  obtain ⟨x, y, rfl⟩ := List.length_eq_two.mp (Int.ofNat.inj hlength)
  obtain rfl : x = _ := Option.some.inj (hget 0 Nat.zero_lt_two)
  obtain rfl : y = _ := Option.some.inj (hget 1 Nat.one_lt_two)
  obtain ⟨s', e', hs', he', -, -, -, -, hexceeded⟩ :=
    evaluate_range (hlit 18446744073709551615 _) (hlit _ _) .start
  obtain rfl := (hs' _).mp hleast
  obtain rfl := (he' _).mp hbeyond
  exact ⟨hitems, hexceeded (by decide) (by decide)⟩

end TextTemplate.Context
