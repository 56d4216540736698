import TextTemplate.Number.Numeral
import TextTemplate.Text.Blank
/-! # Values

The data that documents hold and expressions yield: null, truth values, numbers, texts, arrays and
objects. Whole numbers are kept exactly; all other numbers are finite floating-point values. The
members of an object stand in the order in which their keys first appeared.
-/

namespace TextTemplate

/-- A number: whole, from `-2 ^ 63` up to but not including `2 ^ 64`, or a finite
floating-point value. -/
inductive Number where
  | int (n : Int)
  | float (x : Finite64)
deriving DecidableEq, Repr, Inhabited

/-- A value of the data model. -/
inductive Value where
  | null
  | bool (b : Bool)
  | number (n : Number)
  | string (s : String)
  | array (items : List Value)
  | object (members : List (String × Value))
deriving Repr, Inhabited

mutual

/-- Whether two values are the same, members in the same order. -/
def Value.decEq : (a b : Value) → Decidable (a = b)
  | .null, b =>
    match b with
    | .null => isTrue rfl
    | .bool _ | .number _ | .string _ | .array _ | .object _ => isFalse nofun
  | .bool a, b =>
    match b with
    | .bool b => decidable_of_decidable_of_eq (Value.bool.injEq a b).symm
    | .null | .number _ | .string _ | .array _ | .object _ => isFalse nofun
  | .number a, b =>
    match b with
    | .number b => decidable_of_decidable_of_eq (Value.number.injEq a b).symm
    | .null | .bool _ | .string _ | .array _ | .object _ => isFalse nofun
  | .string a, b =>
    match b with
    | .string b => decidable_of_decidable_of_eq (Value.string.injEq a b).symm
    | .null | .bool _ | .number _ | .array _ | .object _ => isFalse nofun
  | .array as, b =>
    match b with
    | .array bs =>
      have := decEqItems as bs
      decidable_of_decidable_of_eq (Value.array.injEq as bs).symm
    | .null | .bool _ | .number _ | .string _ | .object _ => isFalse nofun
  | .object as, b =>
    match b with
    | .object bs =>
      have := decEqMembers as bs
      decidable_of_decidable_of_eq (Value.object.injEq as bs).symm
    | .null | .bool _ | .number _ | .string _ | .array _ => isFalse nofun

/-- Whether two lists of values are the same. -/
def decEqItems : (as bs : List Value) → Decidable (as = bs)
  | [], [] => isTrue rfl
  | [], _ :: _ | _ :: _, [] => isFalse nofun
  | a :: as, b :: bs =>
    have := Value.decEq a b
    have := decEqItems as bs
    decidable_of_decidable_of_eq (List.cons.injEq a as b bs).symm

/-- Whether two lists of members are the same. -/
def decEqMembers : (as bs : List (String × Value)) → Decidable (as = bs)
  | [], [] => isTrue rfl
  | [], _ :: _ | _ :: _, [] => isFalse nofun
  | (key, a) :: as, (key', b) :: bs =>
    have := Value.decEq a b
    have := decEqMembers as bs
    decidable_of_iff ((key = key' ∧ a = b) ∧ as = bs) (by simp)

end

instance : DecidableEq Value := Value.decEq

namespace Number

/-- The number as a floating-point value, rounded if it is whole and large. -/
def toBinary64 : Number → Binary64
  | .int n => Binary64.ofInt n
  | .float x => .finite x

/-- The number as an integer of 64 bits, if it is whole and fits. -/
def toInt64? : Number → Option Int
  | .int n => if Numeral.fitsInt64 n then some n else none
  | .float _ => none

/-- The order of two numbers: whole numbers exactly, any other pair as floating-point values. -/
def order : Number → Number → Option Ordering
  | .int a, .int b => some (compare a b)
  | a, b =>
    match a.toBinary64, b.toBinary64 with
    | .finite x, .finite y => some (x.order y)
    | _, _ => none

/-- Equality inside arrays and objects: two whole numbers or two floating-point values, and not
one of each. -/
def identical : Number → Number → Bool
  | .int a, .int b => a == b
  | .float x, .float y => x.order y == .eq
  | _, _ => false

/-- The text of a number in template output. A fraction is written only where there is one, and
zero has no sign. -/
def text : Number → List Char
  | .int n => Numeral.ofInt n
  | .float x => if x.isZero then ['0'] else Numeral.ofFinite Numeral.plainStyle x

/-- The text of a number in JSON. -/
def json : Number → List Char
  | .int n => Numeral.ofInt n
  | .float x => Numeral.ofFinite Numeral.jsonStyle x

end Number

namespace Value

/-- A whole number as a value. -/
def ofInt (n : Int) : Value := .number (.int n)

/-- A count as a value. -/
def ofNat (n : Nat) : Value := .number (.int n)

/-- A text as a value. -/
def ofChars (text : List Char) : Value := .string (String.ofList text)

/-- The size up to which floating-point results without a fraction become whole numbers. -/
def wholeLimit : Int := 9000000000000000

/-- A result of floating-point arithmetic as a value. One without a fraction becomes a whole number
if it is small enough to be exact; an infinity or no number becomes null. -/
def ofBinary64 : Binary64 → Value
  | .finite x =>
    if x.isWhole && decide (x.magnitude < wholeLimit.toNat * unitsPerOne) then ofInt x.truncate
    else .number (.float x)
  | _ => .null

/-- Null and false count as false, everything else as true. -/
def isTruthy : Value → Bool
  | .null => false
  | .bool b => b
  | _ => true

/-- The value as a floating-point number; a text counts if it reads as one. -/
def toBinary64? : Value → Option Binary64
  | .number n => some n.toBinary64
  | .string s => Numeral.readBinary64? (Text.trim s.toList)
  | _ => none

/-- The value as an integer of 64 bits: fractions are cut off, and what lies outside the range
becomes its nearest end. -/
def toInt64? : Value → Option Int
  | .number n =>
    match n.toInt64? with
    | some i => some i
    | none => some n.toBinary64.toInt64
  | .string s =>
    match Numeral.readInt64? (Text.trim s.toList) with
    | some i => some i
    | none => (Numeral.readBinary64? (Text.trim s.toList)).map Binary64.toInt64
  | _ => none

/-- The member of an object under a key. -/
def member? (key : String) : List (String × Value) → Option Value
  | [] => none
  | (name, value) :: rest => if name = key then some value else member? key rest

/-- The members with one more. A key that is present keeps its place and takes the new value. -/
def insertMember (key : String) (value : Value) : List (String × Value) → List (String × Value)
  | [] => [(key, value)]
  | (name, old) :: rest =>
    if name = key then (name, value) :: rest else (name, old) :: insertMember key value rest

/-- The members that stand after all of a list of entries have been inserted in order. -/
def ofEntries (entries : List (String × Value)) : List (String × Value) :=
  entries.foldl (fun members entry => insertMember entry.1 entry.2 members) []

end Value

end TextTemplate
