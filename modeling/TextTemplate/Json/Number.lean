import TextTemplate.Json.Input
import TextTemplate.Value.Basic
/-! # JSON numbers

A number without fraction and exponent is whole if it fits. For any other number as many digits as
fit 64 bits make up a whole significand, and the value is the significand, rounded, times or
divided by a rounded power of ten. The result may differ from the nearest value in its last digit.
-/

namespace TextTemplate.Json

/-- The greatest significand, the last number of 64 bits. -/
def greatestSignificand : Nat := Nat.pow 2 64 - 1

/-- The greatest exponent that may be written. -/
def greatestWrittenExponent : Nat := Nat.pow 2 31 - 1

/-- Digits appended to a number as long as it does not pass `limit`: the number, how many digits
were taken, and what follows. -/
def takeDigits (limit : Nat) : Nat → List Char → Nat × Nat × List Char
  | n, [] => (n, 0, [])
  | n, c :: rest =>
    match Numeral.digitValue? c with
    | none => (n, 0, c :: rest)
    | some digit =>
      if limit < n * 10 + digit then (n, 0, c :: rest)
      else
        let (total, count, after) := takeDigits limit (n * 10 + digit) rest
        (total, count + 1, after)

/-- Whether a text starts with a digit. -/
def startsWithDigit : List Char → Bool
  | [] => false
  | c :: _ => Numeral.isDigit c

/-- The power of ten nearest to `10 ^ k`. -/
def powerOfTen (k : Nat) : Binary64 := Binary64.ofInt (Nat.pow 10 k : Nat)

/-- A value times a power of ten, in steps that do not leave the range of powers; nothing if it
becomes infinite. -/
def scaleByPower : Nat → Binary64 → Int → Option Binary64
  | 0, x, _ => some x
  | fuel + 1, x, exponent =>
    if exponent.natAbs ≤ 308 then
      if 0 ≤ exponent then
        match x.mul (powerOfTen exponent.natAbs) with
        | .finite y => some (.finite y)
        | _ => none
      else some (x.div (powerOfTen exponent.natAbs))
    else if x.isZero then some x
    else if 0 ≤ exponent then none
    else scaleByPower fuel (x.div (powerOfTen 308)) (exponent + 308)

/-- The number with a given significand and exponent. -/
def ofParts (negative : Bool) (significand : Nat) (exponent : Int) : Reader Number := do
  match scaleByPower (exponent.natAbs / 308 + 1) (Binary64.ofInt significand) exponent with
  | some (.finite x) => pure (.float { x with negative := negative })
  | _ => Reader.failHere .numberOutOfRange

/-- An exponent kept within the integers of 32 bits. -/
def clampExponent (exponent : Int) : Int := max (-2147483648) (min 2147483647 exponent)

/-- The exponent of a number, from its letter on. An exponent too large to be written makes the
number zero or puts it out of range. -/
def readExponent (negative : Bool) (significand : Nat) (before : Int) : Reader Number := do
  Reader.skip
  let sign? ← Reader.peek?
  let down := sign? == some '-'
  if down || sign? == some '+' then Reader.skip
  match ← Reader.peek? with
  | none => Reader.failHere .endInValue
  | some c =>
    if !Numeral.isDigit c then Reader.failOnByte .badNumber
    else
      let input ← get
      let (written, count, after) := takeDigits greatestWrittenExponent 0 input.rest
      set (Input.mk after (input.offset + count))
      if startsWithDigit after then
        Reader.skip
        if significand ≠ 0 ∧ !down then Reader.failHere .numberOutOfRange
        else
          modify fun input => Input.skipDigits input.rest input.offset
          pure (.float (Finite64.zero negative))
      else
        ofParts negative significand
          (clampExponent (if down then before - written else before + written))

/-- What may follow a significand that is not whole: an exponent, or the end of the number. -/
def readScale (negative : Bool) (significand : Nat) (exponent : Int) : Reader Number := do
  let c? ← Reader.peek?
  if c? == some 'e' || c? == some 'E' then readExponent negative significand exponent
  else ofParts negative significand exponent

/-- The fraction of a number, from its point on. Digits that no longer fit the significand are
passed over. -/
def readFraction (negative : Bool) (significand : Nat) (before : Int) : Reader Number := do
  Reader.skip
  let input ← get
  let (significand, count, after) := takeDigits greatestSignificand significand input.rest
  set (Input.mk after (input.offset + count))
  if startsWithDigit after then
    modify fun input => Input.skipDigits input.rest input.offset
    readScale negative significand (before - count)
  else if count = 0 then
    if after.isEmpty then Reader.failAhead .endInValue else Reader.failAhead .badNumber
  else readScale negative significand (before - count)

/-- A significand whose further digits only raise the exponent. -/
def readLongInteger (negative : Bool) (significand : Nat) : Reader Number := do
  let input ← get
  let after := Input.skipDigits input.rest input.offset
  set after
  let dropped : Int := (after.offset - input.offset : Nat)
  if (← Reader.peek?) == some '.' then readFraction negative significand dropped
  else readScale negative significand dropped

/-- A significand that stands alone. The negative zero is not whole, and neither is a negative
number of 64 bits or more. -/
def ofWhole (negative : Bool) (significand : Nat) : Number :=
  if !negative then .int significand
  else if significand = 0 then .float (Finite64.zero true)
  else if significand ≤ Nat.pow 2 63 then .int (-(significand : Int))
  else
    match Binary64.ofInt (-(significand : Int)) with
    | .finite x => .float x
    | _ => .float (Finite64.zero true)

/-- What may follow a significand that fits. -/
def readTail (negative : Bool) (significand : Nat) : Reader Number := do
  let c? ← Reader.peek?
  if c? == some '.' then readFraction negative significand 0
  else if c? == some 'e' || c? == some 'E' then readExponent negative significand 0
  else pure (ofWhole negative significand)

/-- A number, after its minus sign if it has one. -/
def readNumber (negative : Bool) : Reader Number := do
  match ← Reader.peek? with
  | none => Reader.failHere .endInValue
  | some c =>
    if c = '0' then
      Reader.skip
      if startsWithDigit (← get).rest then Reader.failAhead .badNumber
      else readTail negative 0
    else if Numeral.isDigit c then
      let input ← get
      let (significand, count, after) := takeDigits greatestSignificand 0 input.rest
      set (Input.mk after (input.offset + count))
      if startsWithDigit after then readLongInteger negative significand
      else readTail negative significand
    else Reader.failOnByte .badNumber

end TextTemplate.Json
