import TextTemplate.Proofs.Number.Overflow
import TextTemplate.Proofs.Number.Reading
import TextTemplate.Proofs.Text.Cutting
import TextTemplate.Value.Basic
/-! # Values that stand for numbers

A text that reads as a number counts as one, with white space around it or without. Main statement:
a value that stands for an integer of 64 bits also stands for the floating-point value nearest to
that integer, so that both views of an operand agree.
-/

namespace TextTemplate.Value

open Numeral

/-- The values that stand for an integer of 64 bits: the whole number and its texts. -/
inductive IsInt64 : Value → Int → Prop
  | number {n : Int} (hfits : fitsInt64 n = true) : IsInt64 (.number (.int n)) n
  | text {s : String} {body : List Char} {n : Int} (hbody : WritesInt body n)
      (hpadded : Text.Padded body s.toList) (hfits : fitsInt64 n = true) : IsInt64 (.string s) n

/-- The values that stand for a floating-point value: the numbers next to it and its texts. -/
inductive Denotes : Value → Binary64 → Prop
  | number (n : Number) : Denotes (.number n) n.toBinary64
  | text {s : String} {body : List Char} {x : Binary64} (hbody : Writes body x)
      (hpadded : Text.Padded body s.toList) : Denotes (.string s) x

variable {value : Value} {n : Int}

theorem IsInt64.fits (h : value.IsInt64 n) : fitsInt64 n = true := by
  cases h <;> assumption

theorem IsInt64.bounds (h : value.IsInt64 n) : -2 ^ 63 ≤ n ∧ n < 2 ^ 63 :=
  fitsInt64_iff.mp h.fits

/-- A text is read as an integer if it writes one in 64 bits, with blanks around it or without. -/
theorem readInt64?_trim_eq_some_iff {s : String} :
    readInt64? (Text.trim s.toList) = some n ↔ (Value.string s).IsInt64 n := by
  rw [readInt64?_eq_some_iff]
  constructor
  · rintro ⟨hbody, hfits⟩
    exact .text hbody (Text.padded_trim s.toList) hfits
  · intro h
    cases h with
    | text hbody hpadded hfits =>
        rw [hpadded.trim_eq hbody.not_isBlank]
        exact ⟨hbody, hfits⟩

/-- The float of a value is the one it denotes. -/
theorem toBinary64?_eq_some_iff {x : Binary64} :
    value.toBinary64? = some x ↔ value.Denotes x := by
  constructor
  · intro h
    cases value with
    | number m =>
        obtain rfl := Option.some.inj h
        exact .number m
    | string s => exact .text (readBinary64?_eq_some_iff.mp h) (Text.padded_trim s.toList)
    | _ => cases h
  · intro h
    cases h with
    | number m => rfl
    | text hbody hpadded =>
        rw [toBinary64?, hpadded.trim_eq hbody.not_isBlank]
        exact readBinary64?_eq_some_iff.mpr hbody

theorem Denotes.unique {x y : Binary64} (hx : value.Denotes x) (hy : value.Denotes y) : x = y := by
  rw [← toBinary64?_eq_some_iff] at hx hy
  exact Option.some.inj (hx.symm.trans hy)

/-- An integer is a floating-point number as well, the nearest one. -/
theorem IsInt64.denotes (h : value.IsInt64 n) :
    ∃ x, value.Denotes (.finite x) ∧ x.units = Binary64.unitsOfInt n := by
  have hbounds := h.bounds
  cases h with
  | number =>
      obtain ⟨x, hx, hunits⟩ := Binary64.exists_ofInt_eq_finite (n := n) (by omega)
      exact ⟨x, hx ▸ .number (.int n), hunits⟩
  | text hbody hpadded _ =>
      obtain ⟨negative, hnegative, hwrites⟩ := hbody.writes
      by_cases hzero : n = 0
      · -- zero keeps the sign that is written
        subst hzero
        refine ⟨Finite64.zero negative, .text hwrites hpadded, ?_⟩
        rw [Binary64.unitsOfInt, Int.sign_zero, Int.zero_mul, ← Int.natAbs_eq_zero,
          Binary64.natAbs_units, Finite64.magnitude]
        exact Nat.zero_mul _
      · obtain ⟨x, hx, hunits⟩ := Binary64.exists_ofInt_eq_finite (n := n) (by omega)
        rw [hnegative hzero] at hwrites
        exact ⟨x, .text (hx ▸ hwrites) hpadded, hunits⟩

end TextTemplate.Value
