import TextTemplate.Proofs.Json.Taking
import TextTemplate.Proofs.Number.Digits
/-! # Whole numbers in JSON text

The digits that are written for a whole number are read as that number, as long as it fits and
nothing follows that would go on with it.
-/

namespace TextTemplate.Json

open Numeral

/-- Whether a number may end in front of a text: no digit follows, no fraction and no exponent. -/
def EndsNumber (rest : List Char) : Prop :=
  ∀ c ∈ rest.head?, isDigit c = false ∧ c ≠ '.' ∧ c ≠ 'e' ∧ c ≠ 'E'

/-- What ends a number does not start with another digit. -/
theorem EndsNumber.startsWithDigit {rest : List Char} (h : EndsNumber rest) :
    startsWithDigit rest = false := by
  cases rest with
  | nil => rfl
  | cons c rest => exact (h c rfl).1

/-- The number that digits make when they are appended to another. -/
abbrev appended (start : Nat) (digits : List Char) : Nat :=
  digits.foldl (fun n c => 10 * n + (c.toNat - 48)) start

theorem le_appended (digits : List Char) (start : Nat) : start ≤ appended start digits := by
  induction digits generalizing start with
  | nil => exact Nat.le_refl start
  | cons c digits ih => exact Nat.le_trans (by omega) (ih (10 * start + (c.toNat - 48)))

/-- Digits are taken together if what they make stays within the limit. -/
theorem takeDigits_append {limit start : Nat} {digits rest : List Char}
    (hdigits : ∀ c ∈ digits, isDigit c = true) (hlimit : appended start digits ≤ limit)
    (hrest : startsWithDigit rest = false) :
    takeDigits limit start (digits ++ rest) = (appended start digits, digits.length, rest) := by
  induction digits generalizing start with
  | nil =>
      cases rest with
      | nil => rfl
      | cons c rest =>
          have hnone : digitValue? c = none := by
            simpa [startsWithDigit, isDigit, digitValue?] using hrest
          simp [takeDigits, hnone]
  | cons c digits ih =>
      have hc : digitValue? c = some (c.toNat - 48) := digitValue?_of_isDigit (hdigits c (by simp))
      have hmore := ih (fun d hd => hdigits d (List.mem_cons_of_mem c hd)) hlimit
      have hstep : ¬ limit < start * 10 + (c.toNat - 48) := by
        have hle := Nat.le_trans (le_appended digits (10 * start + (c.toNat - 48))) hlimit
        omega
      rw [List.cons_append, takeDigits, hc]
      simp only [hstep, ↓reduceIte]
      rw [Nat.mul_comm start 10, hmore]
      rfl

/-- A significand that stands alone is a whole number. -/
theorem takes_readTail {negative : Bool} {n : Nat} {rest : List Char} (hrest : EndsNumber rest) :
    Takes (readTail negative n) [] (ofWhole negative n) rest := by
  refine Takes.bind_of_empty takes_peek? ?_
  cases rest with
  | nil => exact takes_pure _
  | cons c rest =>
      obtain ⟨-, hdot, hlower, hupper⟩ := hrest c rfl
      have hnone : ∀ letter : Char, c ≠ letter →
          (([] ++ c :: rest).head? == some letter) = false := by
        intro letter hne
        simpa using hne
      rw [hnone '.' hdot, hnone 'e' hlower, hnone 'E' hupper]
      exact takes_pure _

/-- The digits of a number that fits are read back as the number. -/
theorem takes_readNumber {negative : Bool} {n : Nat} {rest : List Char}
    (hn : n ≤ greatestSignificand) (hrest : EndsNumber rest) :
    Takes (readNumber negative) (digits n) (ofWhole negative n) rest := by
  obtain ⟨c, more, hdigits, hc, hzero⟩ := exists_digits_eq_cons n
  by_cases hc0 : c = '0'
  · obtain rfl := hzero hc0
    have hdigits : digits 0 = ['0'] := digits_of_lt (by decide)
    rw [hdigits]
    refine takes_peek?_bind ?_
    simp only [↓reduceIte]
    refine takes_skip_bind (takes_get_bind fun offset => ?_)
    simp only [List.nil_append, hrest.startsWithDigit, Bool.false_eq_true, ↓reduceIte]
    exact takes_readTail hrest
  · have htake : takeDigits greatestSignificand 0 (c :: more ++ rest) =
        (n, (c :: more).length, rest) := by
      have hvalue : appended 0 (digits n) = n := value_digits n
      rw [← hdigits, takeDigits_append (fun d hd => isDigit_of_mem_digits hd)
        (hvalue.symm ▸ hn) hrest.startsWithDigit, hvalue]
    rw [hdigits]
    refine takes_peek?_bind ?_
    simp only [hc0, hc, ↓reduceIte]
    refine takes_get_bind fun offset => ?_
    simp only [htake, hrest.startsWithDigit, Bool.false_eq_true, ↓reduceIte]
    exact (takes_set (offset + (c :: more).length)).bind_of_rest (takes_readTail hrest)

end TextTemplate.Json
