import TextTemplate.Filter.Text
/-! # Filters on numbers

Two operands that are integers of 64 bits are computed with exactly as long as the result is one
too; otherwise the operation is done on floating-point values. Whatever is no number counts as zero.
-/

namespace TextTemplate.Filter

/-- A value as an integer of 64 bits without rounding: a whole number, a text that reads as one, or
null for zero. -/
def exactInt? : Value → Option Int
  | .number n => n.toInt64?
  | .string s => Numeral.readInt64? (Text.trim s.toList)
  | .null => some 0
  | _ => none

/-- A value as a floating-point value, zero if it is no number. -/
def toBinary64 (value : Value) : Binary64 :=
  value.toBinary64?.getD (.finite (Finite64.zero false))

/-- An integer result if it fits 64 bits. -/
def fitting? (n : Int) : Option Int := if Numeral.fitsInt64 n then some n else none

/-- The exact result of an operation on integers, if both operands are integers and it fits. -/
def exactResult? (operation : Int → Int → Int) (a b : Value) : Option Int := do
  fitting? (operation (← exactInt? a) (← exactInt? b))

/-- An operation on two numbers, exact on integers as long as the result fits. -/
def arithmetic (exact : Int → Int → Int) (rounded : Binary64 → Binary64 → Binary64)
    (input operand : Value) : Value :=
  match exactResult? exact input operand with
  | some n => Value.ofInt n
  | none => Value.ofBinary64 (rounded (toBinary64 input) (toBinary64 operand))

/-- The sum. -/
def sum : Value → Value → Value := arithmetic (· + ·) Binary64.add

/-- The difference. -/
def difference : Value → Value → Value := arithmetic (· - ·) Binary64.sub

/-- The product. -/
def product : Value → Value → Value := arithmetic (· * ·) Binary64.mul

/-- The quotient, null for a divisor of zero. Integers are divided so that the remainder is not
negative. -/
def quotient (input operand : Value) : Value :=
  if (toBinary64 operand).isZero then .null else arithmetic Int.ediv Binary64.div input operand

/-- The remainder, which is not negative, and null for a divisor of zero. -/
def remainder (input operand : Value) : Value :=
  if (toBinary64 operand).isZero then .null
  else arithmetic Int.emod Binary64.euclideanRem input operand

/-- The number without its sign, null for what is no number and for the least integer. -/
def absolute (input : Value) : Value :=
  match exactInt? input with
  | some n =>
    match fitting? n.natAbs with
    | some magnitude => Value.ofInt magnitude
    | none => .null
  | none =>
    match input.toBinary64? with
    | some x => Value.ofBinary64 x.abs
    | none => .null

end TextTemplate.Filter
