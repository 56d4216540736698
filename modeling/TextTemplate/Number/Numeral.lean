import TextTemplate.Number.Shortest
/-! # Numbers as text

Decimal digits of whole numbers, the two layouts of floating-point numbers, and the readers of
integers and floating-point numbers that the templates use on text. The readers take the whole
text or nothing.
-/

namespace TextTemplate.Numeral

/-- The character of a digit below ten. -/
def digitChar (digit : Nat) : Char := Char.ofNat (48 + digit)

/-- The value of a decimal digit of ASCII. -/
def digitValue? (c : Char) : Option Nat :=
  if '0' ≤ c ∧ c ≤ '9' then some (c.toNat - 48) else none

/-- Whether a character is a decimal digit of ASCII. -/
def isDigit (c : Char) : Bool := decide ('0' ≤ c ∧ c ≤ '9')

/-- The decimal digits of a whole number, without leading zeros. -/
def digits (n : Nat) : List Char :=
  if n < 10 then [digitChar n] else digits (n / 10) ++ [digitChar (n % 10)]
termination_by n
decreasing_by omega

/-- The decimal digits of an integer, after a minus sign if it is negative. -/
def ofInt (n : Int) : List Char :=
  if n < 0 then '-' :: digits n.natAbs else digits n.natAbs

/-- The number that a run of digits stands for. -/
def value (text : List Char) : Nat :=
  text.foldl (fun n c => 10 * n + (c.toNat - 48)) 0

/-- How floating-point numbers are laid out. -/
structure Style where
  /-- Which digits are taken where two decimals are equally near. -/
  tie : TieRule
  /-- The exponents of the leading digit that are written without an exponent; `none` is all. -/
  positional? : Option (Int × Int)
  /-- Whether a whole number gets the fraction `.0`. -/
  pointZero : Bool

/-- Numbers in JSON text: positional from five places behind the point to sixteen before it. -/
def jsonStyle : Style := ⟨.toEven, some (-5, 15), true⟩

/-- Numbers in template output: always positional, whole numbers without a fraction. -/
def plainStyle : Style := ⟨.upward, none, false⟩

/-- Whether a leading digit of this exponent is written positionally. -/
def Style.isPositional (style : Style) (lead : Int) : Bool :=
  match style.positional? with
  | none => true
  | some (least, greatest) => decide (least ≤ lead ∧ lead ≤ greatest)

/-- The digits with the decimal point at its place. -/
def positional (style : Style) (text : List Char) (exponent : Int) : List Char :=
  if 0 ≤ exponent then
    text ++ List.replicate exponent.toNat '0' ++ (if style.pointZero then ['.', '0'] else [])
  else
    let places := (-exponent).toNat
    if places < text.length then
      text.take (text.length - places) ++ '.' :: text.drop (text.length - places)
    else '0' :: '.' :: List.replicate (places - text.length) '0' ++ text

/-- The digits with the point after the first, and the exponent of that digit with its sign. -/
def scientific (text : List Char) (lead : Int) : List Char :=
  let mantissa :=
    match text with
    | [] => []
    | [first] => [first]
    | first :: rest => first :: '.' :: rest
  mantissa ++ 'e' :: (if lead < 0 then '-' else '+') :: digits lead.natAbs

/-- The text of a finite value. -/
def ofFinite (style : Style) (x : Finite64) : List Char :=
  let size :=
    if x.isZero then positional style ['0'] 0
    else
      let decimal := x.shortest style.tie
      let text := digits decimal.digits
      let lead := decimal.exponent + (text.length - 1 : Nat)
      if style.isPositional lead then positional style text decimal.exponent
      else scientific text lead
  if x.negative then '-' :: size else size

/-- The text of a value in template output. -/
def plain : Binary64 → List Char
  | .nan => ['N', 'a', 'N']
  | .infinite negative => if negative then ['-', 'i', 'n', 'f'] else ['i', 'n', 'f']
  | .finite x => ofFinite plainStyle x

/-- A sign in front of a number, and what follows it. -/
def sign : List Char → Bool × List Char
  | '-' :: rest => (true, rest)
  | '+' :: rest => (false, rest)
  | text => (false, text)

/-- Whether an integer fits 64 bits. -/
def fitsInt64 (n : Int) : Bool :=
  decide (Binary64.leastInt64 ≤ n ∧ n ≤ Binary64.greatestInt64)

/-- An integer of 64 bits: an optional sign and digits. -/
def readInt64? (text : List Char) : Option Int :=
  let (negative, body) := sign text
  if body.isEmpty || !body.all isDigit then none
  else
    let n : Int := if negative then -(value body : Int) else value body
    if fitsInt64 n then some n else none

/-- Whether a text spells a word in letters of either case. -/
def spells (word text : List Char) : Bool := text.map Char.toLower == word

/-- The exponent at the end of a number: nothing, or the letter `e` and a signed run of digits. -/
def readExponent? : List Char → Option Int
  | [] => some 0
  | c :: rest =>
    if c = 'e' ∨ c = 'E' then
      let (negative, body) := sign rest
      if body.isEmpty || !body.all isDigit then none
      else some (if negative then -(value body : Int) else value body)
    else none

/-- A floating-point number, correctly rounded: an optional sign, then a word for infinity or no
number, or digits with an optional point and an optional exponent. -/
def readBinary64? (text : List Char) : Option Binary64 :=
  let (negative, body) := sign text
  if spells ['i', 'n', 'f'] body || spells ['i', 'n', 'f', 'i', 'n', 'i', 't', 'y'] body then
    some (.infinite negative)
  else if spells ['n', 'a', 'n'] body then some .nan
  else
    let whole := body.takeWhile isDigit
    let (fraction, rest) :=
      match body.dropWhile isDigit with
      | '.' :: rest => (rest.takeWhile isDigit, rest.dropWhile isDigit)
      | rest => ([], rest)
    if whole.isEmpty && fraction.isEmpty then none
    else
      (readExponent? rest).map fun exponent =>
        Binary64.ofDecimal negative (value (whole ++ fraction)) (exponent - fraction.length)

end TextTemplate.Numeral
