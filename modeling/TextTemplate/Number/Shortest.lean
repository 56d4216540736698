import TextTemplate.Number.Binary64
/-! # The fewest digits that read back

A decimal reads back to a finite value if it lies among the reals that round to that value. The
digits of a value are those of the shortest such decimal, and among the shortest of the nearest.
All comparisons are exact.
-/

namespace TextTemplate

/-- The decimal `digits * 10 ^ exponent`. -/
structure Decimal where
  digits : Nat
  exponent : Int
deriving DecidableEq, Repr, Inhabited

/-- What becomes of a value that lies exactly between the two nearest decimals. -/
inductive TieRule where
  | toEven
  | upward
deriving DecidableEq, Repr

namespace Decimal

/-- The order of `a * 10 ^ i` and `n * 2 ^ j`. -/
def compareScaled (a : Nat) (i : Int) (n : Nat) (j : Int) : Ordering :=
  compare (a * Nat.pow 10 i.toNat * Nat.pow 2 (-j).toNat)
    (n * Nat.pow 2 j.toNat * Nat.pow 10 (-i).toNat)

/-- The decimal without trailing zeros in its digits. -/
def strip (digits : Nat) (exponent : Int) : Decimal :=
  if digits = 0 then ⟨digits, exponent⟩
  else if digits % 10 = 0 then strip (digits / 10) (exponent + 1)
  else ⟨digits, exponent⟩
termination_by digits
decreasing_by omega

end Decimal

namespace Finite64

/-- Whether the value below is half as far away as the value above. -/
def narrowBelow (x : Finite64) : Bool :=
  x.mantissa == Nat.pow 2 52 && decide (leastExponent < x.exponent)

/-- Whether a decimal lies among the reals that round to the size of `x`. The ends of that
interval belong to it when the mantissa is even. -/
def readsBack (x : Finite64) (decimal : Decimal) : Bool :=
  let low := if x.narrowBelow then 4 * x.mantissa - 1 else 4 * x.mantissa - 2
  let high := 4 * x.mantissa + 2
  let closed := x.mantissa % 2 == 0
  let fromLow := Decimal.compareScaled decimal.digits decimal.exponent low (x.exponent - 2)
  let toHigh := Decimal.compareScaled decimal.digits decimal.exponent high (x.exponent - 2)
  (fromLow == .gt || (closed && fromLow == .eq)) && (toHigh == .lt || (closed && toHigh == .eq))

/-- Whether the size of `x` lies below `10 ^ k`. -/
def belowPower (x : Finite64) (k : Int) : Bool :=
  Decimal.compareScaled 1 k x.mantissa x.exponent == .gt

/-- The least `k` for which the size of `x` lies below `10 ^ k`. The binary logarithm leaves three
candidates. -/
def decimalScale (x : Finite64) : Int :=
  let k := ((x.mantissa.log2 + x.exponent) * 30103).fdiv 100000
  if x.belowPower k then k
  else if x.belowPower (k + 1) then k + 1
  else k + 2

/-- The decimal on the grid `10 ^ exponent` that reads back to `x`: of the neighbours below and
above the nearer one that does. -/
def onGrid? (x : Finite64) (tie : TieRule) (exponent : Int) : Option Decimal :=
  let low :=
    x.mantissa * Nat.pow 2 x.exponent.toNat * Nat.pow 10 (-exponent).toNat /
      (Nat.pow 10 exponent.toNat * Nat.pow 2 (-x.exponent).toNat)
  let below : Decimal := ⟨low, exponent⟩
  let above : Decimal := ⟨low + 1, exponent⟩
  if x.readsBack below then
    if x.readsBack above then
      match Decimal.compareScaled (2 * low + 1) exponent (2 * x.mantissa) x.exponent with
      | .gt => some below
      | .lt => some above
      | .eq =>
        match tie with
        | .upward => some above
        | .toEven => if low % 2 = 0 then some below else some above
    else some below
  else if x.readsBack above then some above
  else none

/-- The exact size of `x` as a decimal. -/
def exactDecimal (x : Finite64) : Decimal :=
  ⟨x.mantissa * Nat.pow 2 x.exponent.toNat * Nat.pow 5 (-x.exponent).toNat, min 0 x.exponent⟩

/-- The shortest decimal that reads back to the size of `x`, which is not zero. Seventeen digits
are always enough; the exact value stands in for the case that they were not. -/
def shortest (x : Finite64) (tie : TieRule) : Decimal :=
  let scale := x.decimalScale
  let found := (List.range 17).findSome? fun n => x.onGrid? tie (scale - (n + 1 : Nat))
  let decimal := found.getD x.exactDecimal
  Decimal.strip decimal.digits decimal.exponent

end Finite64

end TextTemplate
