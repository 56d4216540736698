import TextTemplate.Text.Search
import TextTemplate.Value.Print
/-! # Comparing values

Equality, order and containment as the operators of expressions see them, and the order that
sorting uses. Numbers compare by value, texts by code points; values of other or different kinds
are not ordered.
-/

namespace TextTemplate

namespace Value

mutual

/-- Equality of parts: the same kind and contents, objects without regard to order. -/
def identical : Value → Value → Bool
  | .null, .null => true
  | .bool a, .bool b => a == b
  | .number a, .number b => a.identical b
  | .string a, .string b => a == b
  | .array a, .array b => identicalItems a b
  | .object a, .object b => a.length == b.length && identicalMembers a b
  | _, _ => false

/-- Equality of arrays, place by place. -/
def identicalItems : List Value → List Value → Bool
  | [], [] => true
  | a :: as, b :: bs => identical a b && identicalItems as bs
  | _, _ => false

/-- Whether every member of the first object has an equal one under its key in the second. -/
def identicalMembers : List (String × Value) → List (String × Value) → Bool
  | [], _ => true
  | (key, value) :: rest, others =>
    (match member? key others with
      | some other => identical value other
      | none => false) && identicalMembers rest others

end

/-- Equality of values. Two numbers are equal if their values are, whatever their kinds; inside
arrays and objects the kinds count. -/
def equal : Value → Value → Bool
  | .number a, .number b => a.order b == some .eq
  | a, b => identical a b

/-- The order of two numbers or two texts. Texts compare character by character. -/
def order? : Value → Value → Option Ordering
  | .number a, .number b => a.order b
  | .string a, .string b =>
    some (compareOfLessAndEq a.toList b.toList)
  | _, _ => none

/-- The place of a kind of value among the kinds. -/
def rank : Value → Nat
  | .null => 0
  | .bool _ => 1
  | .number _ => 2
  | .string _ => 3
  | .array _ => 4
  | .object _ => 5

/-- The order used for sorting: truth values, numbers and texts among themselves, all others by
kind alone. -/
def sortOrder (left right : Value) : Ordering :=
  match left, right with
  | .bool a, .bool b => compare a.toNat b.toNat
  | _, _ =>
    match order? left right with
    | some order => order
    | none => compare left.rank right.rank

/-- Whether the text of a value can be searched for in a text. -/
def isNeedle : Value → Bool
  | .string _ | .number _ | .bool _ => true
  | _ => false

/-- A part of a text, an element of an array, or a key of an object. -/
def contains : Value → Value → Bool
  | .string s, needle => needle.isNeedle && Text.occurs needle.text s.toList
  | .array items, needle => items.any fun item => item.equal needle
  | .object members, .string key => (member? key members).isSome
  | _, _ => false

end Value

end TextTemplate
