/-! # Binary floating-point numbers of 64 bits

Finite values are `± mantissa * 2 ^ exponent`. Each of them is a whole number of units of
`2 ^ -1074`, so order, addition, remainder and truncation are exact integer arithmetic on
`Finite64.units`. Every operation is the exact result rounded once by `Binary64.ofRatio`, to the
nearest value and on a tie to the even mantissa.
-/

namespace TextTemplate

/-- A finite value, `± mantissa * 2 ^ exponent`. A mantissa lies below `2 ^ 53`, and from `2 ^ 52`
on unless the exponent is least. Zero keeps its sign. -/
structure Finite64 where
  negative : Bool
  mantissa : Nat
  exponent : Int
deriving DecidableEq, Repr, Inhabited

/-- A finite value, an infinity, or no number. -/
inductive Binary64 where
  | nan
  | infinite (negative : Bool)
  | finite (value : Finite64)
deriving DecidableEq, Repr, Inhabited

/-- The exponent of the smallest positive value. -/
def leastExponent : Int := -1074

/-- The exponent of the largest finite values. -/
def greatestExponent : Int := 971

/-- How many units of `2 ^ leastExponent` make one. -/
def unitsPerOne : Nat := Nat.pow 2 1074

namespace Finite64

/-- Zero of either sign. -/
def zero (negative : Bool) : Finite64 := ⟨negative, 0, leastExponent⟩

/-- The size in units of `2 ^ leastExponent`. -/
def magnitude (x : Finite64) : Nat := x.mantissa * Nat.pow 2 (x.exponent - leastExponent).toNat

/-- The value in units of `2 ^ leastExponent`; both zeros count as none. -/
def units (x : Finite64) : Int := if x.negative then -(x.magnitude : Int) else x.magnitude

/-- The order of the values; both zeros are equal. -/
def order (a b : Finite64) : Ordering := compare a.units b.units

/-- Whether the value is zero of either sign. -/
def isZero (x : Finite64) : Bool := x.mantissa == 0

/-- The whole number next to the value on the side of zero. -/
def truncate (x : Finite64) : Int := x.units.tdiv unitsPerOne

/-- Whether the value has no fraction. -/
def isWhole (x : Finite64) : Bool := x.magnitude % unitsPerOne == 0

end Finite64

/-- A quotient rounded to the nearest whole number, on a tie to the even one. -/
def roundHalfEven (num den : Nat) : Nat :=
  let quotient := num / den
  match compare (2 * (num % den)) den with
  | .lt => quotient
  | .gt => quotient + 1
  | .eq => if quotient % 2 = 0 then quotient else quotient + 1

/-- The greatest `k` with `2 ^ k ≤ num / den`, for a positive quotient. -/
def ratioLog2 (num den : Nat) : Int :=
  let k : Int := (num.log2 : Int) - den.log2
  if num * Nat.pow 2 (-k).toNat < den * Nat.pow 2 k.toNat then k - 1 else k

namespace Binary64

/-- The signed quotient `num / den` rounded to the nearest value. A carry out of the mantissa
raises the exponent, and what lies above the largest exponent is infinite. -/
def ofRatio (negative : Bool) (num den : Nat) : Binary64 :=
  if num = 0 then .finite (Finite64.zero negative)
  else
    let exponent := max leastExponent (ratioLog2 num den - 52)
    let mantissa :=
      roundHalfEven (num * Nat.pow 2 (-exponent).toNat) (den * Nat.pow 2 exponent.toNat)
    let rounded : Finite64 :=
      if mantissa < Nat.pow 2 53 then ⟨negative, mantissa, exponent⟩
      else ⟨negative, Nat.pow 2 52, exponent + 1⟩
    if rounded.exponent ≤ greatestExponent then .finite rounded else .infinite negative

/-- The value nearest to a number of units of `2 ^ leastExponent`. -/
def ofUnits (units : Int) : Binary64 := ofRatio (decide (units < 0)) units.natAbs unitsPerOne

/-- The value nearest to a whole number. -/
def ofInt (n : Int) : Binary64 := ofRatio (decide (n < 0)) n.natAbs 1

/-- The value nearest to `± digits * 10 ^ exponent`. Far outside the range of finite values the
power of ten is not worked out. -/
def ofDecimal (negative : Bool) (digits : Nat) (exponent : Int) : Binary64 :=
  if digits = 0 then .finite (Finite64.zero negative)
  else if 400 < exponent then .infinite negative
  else if exponent < -(401 + (digits.log2 : Int)) then .finite (Finite64.zero negative)
  else ofRatio negative (digits * Nat.pow 10 exponent.toNat) (Nat.pow 10 (-exponent).toNat)

/-- Whether a value is below zero; the negative zero is not. -/
def isNegative : Binary64 → Bool
  | .nan => false
  | .infinite negative => negative
  | .finite x => decide (x.units < 0)

/-- Whether a value is zero of either sign. -/
def isZero : Binary64 → Bool
  | .finite x => x.isZero
  | _ => false

/-- The value without its sign. -/
def abs : Binary64 → Binary64
  | .nan => .nan
  | .infinite _ => .infinite false
  | .finite x => .finite { x with negative := false }

/-- The value with the other sign. -/
def neg : Binary64 → Binary64
  | .nan => .nan
  | .infinite negative => .infinite !negative
  | .finite x => .finite { x with negative := !x.negative }

/-- The sum. Two negative zeros add up to a negative zero, other opposites to a positive one. -/
def add : Binary64 → Binary64 → Binary64
  | .nan, _ => .nan
  | _, .nan => .nan
  | .infinite a, .infinite b => if a = b then .infinite a else .nan
  | .infinite a, .finite _ => .infinite a
  | .finite _, .infinite b => .infinite b
  | .finite a, .finite b =>
    let sum := a.units + b.units
    if sum = 0 then .finite (Finite64.zero (a.negative && b.negative)) else ofUnits sum

/-- The difference. -/
def sub (a b : Binary64) : Binary64 := add a b.neg

/-- The product. -/
def mul : Binary64 → Binary64 → Binary64
  | .nan, _ => .nan
  | _, .nan => .nan
  | .infinite a, .infinite b => .infinite (a != b)
  | .infinite a, .finite b => if b.isZero then .nan else .infinite (a != b.negative)
  | .finite a, .infinite b => if a.isZero then .nan else .infinite (a.negative != b)
  | .finite a, .finite b =>
    ofRatio (a.negative != b.negative) (a.magnitude * b.magnitude) (unitsPerOne * unitsPerOne)

/-- The quotient. A value divided by zero is infinite unless it is itself zero. -/
def div : Binary64 → Binary64 → Binary64
  | .nan, _ => .nan
  | _, .nan => .nan
  | .infinite _, .infinite _ => .nan
  | .infinite a, .finite b => .infinite (a != b.negative)
  | .finite a, .infinite b => .finite (Finite64.zero (a.negative != b))
  | .finite a, .finite b =>
    if b.isZero then
      if a.isZero then .nan else .infinite (a.negative != b.negative)
    else ofRatio (a.negative != b.negative) a.magnitude b.magnitude

/-- The remainder of the division truncated toward zero; it has the sign of the dividend. -/
def rem : Binary64 → Binary64 → Binary64
  | .nan, _ => .nan
  | _, .nan => .nan
  | .infinite _, _ => .nan
  | .finite a, .infinite _ => .finite a
  | .finite a, .finite b =>
    if b.isZero then .nan else ofRatio a.negative (a.magnitude % b.magnitude) unitsPerOne

/-- The remainder moved up by the size of the divisor when it is below zero. -/
def euclideanRem (a b : Binary64) : Binary64 :=
  let remainder := rem a b
  if remainder.isNegative then add remainder b.abs else remainder

/-- The least integer of 64 bits. -/
def leastInt64 : Int := -9223372036854775808

/-- The greatest integer of 64 bits. -/
def greatestInt64 : Int := 9223372036854775807

/-- The integer of 64 bits nearest to a value on the side of zero; no number counts as zero. -/
def toInt64 : Binary64 → Int
  | .nan => 0
  | .infinite negative => if negative then leastInt64 else greatestInt64
  | .finite x => max leastInt64 (min greatestInt64 x.truncate)

end Binary64

end TextTemplate
