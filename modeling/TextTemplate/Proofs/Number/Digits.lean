import TextTemplate.Number.Numeral
import Mathlib.Data.List.Basic
/-! # Decimal digits of whole numbers

The digits that are written for a number are digits, begin with a zero only if the number is zero,
and stand for the number.
-/

namespace TextTemplate.Numeral

theorem isDigit_digitChar {n : Nat} (h : n < 10) : isDigit (digitChar n) = true := by
  revert n
  decide

theorem toNat_digitChar {n : Nat} (h : n < 10) : (digitChar n).toNat - 48 = n := by
  revert n
  decide

theorem ne_of_isDigit {c d : Char} (hc : isDigit c = true) (hd : isDigit d = false) : c ≠ d := by
  rintro rfl
  rw [hc] at hd
  cases hd

/-- A digit is the character of a number below ten. -/
theorem exists_digitChar {c : Char} (h : isDigit c = true) : ∃ n < 10, c = digitChar n := by
  simp only [isDigit, decide_eq_true_eq, Char.le_def] at h
  obtain ⟨hlow, hhigh⟩ := h
  have hlow' : 48 ≤ c.toNat := UInt32.le_iff_toNat_le.mp hlow
  have hhigh' : c.toNat ≤ 57 := UInt32.le_iff_toNat_le.mp hhigh
  refine ⟨c.toNat - 48, by omega, ?_⟩
  rw [digitChar, Nat.add_sub_cancel' hlow', Char.ofNat_toNat]

/-- What holds of the ten digits holds of every digit. -/
theorem of_isDigit {P : Char → Prop} (h : ∀ n < 10, P (digitChar n)) {c : Char}
    (hc : isDigit c = true) : P c := by
  obtain ⟨n, hn, rfl⟩ := exists_digitChar hc
  exact h n hn

theorem digitValue?_of_isDigit {c : Char} (h : isDigit c = true) :
    digitValue? c = some (c.toNat - 48) := by
  simp only [isDigit, decide_eq_true_eq] at h
  simp [digitValue?, h]

theorem digits_of_lt {n : Nat} (h : n < 10) : digits n = [digitChar n] := by
  rw [digits, if_pos h]

theorem digits_of_ge {n : Nat} (h : ¬ n < 10) :
    digits n = digits (n / 10) ++ [digitChar (n % 10)] := by
  rw [digits, if_neg h]

/-- Numbers are written with nothing but digits. -/
theorem isDigit_of_mem_digits {n : Nat} {c : Char} (h : c ∈ digits n) : isDigit c = true := by
  induction n using digits.induct with
  | case1 n hn =>
      rw [digits_of_lt hn, List.mem_singleton] at h
      exact h ▸ isDigit_digitChar hn
  | case2 n hn ih =>
      rw [digits_of_ge hn, List.mem_append, List.mem_singleton] at h
      rcases h with h | rfl
      · exact ih h
      · exact isDigit_digitChar (Nat.mod_lt n (by decide))

theorem value_append_singleton (text : List Char) (c : Char) :
    value (text ++ [c]) = 10 * value text + (c.toNat - 48) := by
  simp [value]

/-- The digits of a number stand for it. -/
theorem value_digits (n : Nat) : value (digits n) = n := by
  induction n using digits.induct with
  | case1 n hn =>
      rw [digits_of_lt hn]
      simp [value, toNat_digitChar hn]
  | case2 n hn ih =>
      rw [digits_of_ge hn, value_append_singleton, ih, toNat_digitChar (Nat.mod_lt n (by decide))]
      exact Nat.div_add_mod n 10

/-- The first digit is a zero only if there is nothing else. -/
theorem exists_digits_eq_cons (n : Nat) :
    ∃ c rest, digits n = c :: rest ∧ isDigit c = true ∧ (c = '0' → n = 0) := by
  induction n using digits.induct with
  | case1 n hn =>
      refine ⟨digitChar n, [], digits_of_lt hn, isDigit_digitChar hn, ?_⟩
      revert n
      decide
  | case2 n hn ih =>
      obtain ⟨c, rest, heq, hc, hzero⟩ := ih
      refine ⟨c, rest ++ [digitChar (n % 10)], by rw [digits_of_ge hn, heq]; rfl, hc, fun h => ?_⟩
      have := hzero h
      omega

end TextTemplate.Numeral
