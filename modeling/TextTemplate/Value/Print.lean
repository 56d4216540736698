import TextTemplate.Value.Basic
/-! # The texts of a value

`Value.json` is the compact JSON text, `Value.text` what a template prints. They differ for texts,
which print without quotes, for null, which prints nothing, for arrays, which print as their
elements side by side, and for floating-point numbers.
-/

namespace TextTemplate

namespace Value

/-- The lower-case hexadecimal digit of a value below sixteen. -/
def hexDigit (n : Nat) : Char := if n < 10 then Char.ofNat (48 + n) else Char.ofNat (87 + n)

/-- One character inside a JSON text. Quotes, backslashes and control characters are escaped. -/
def escapeChar (c : Char) : List Char :=
  if c = '"' then ['\\', '"']
  else if c = '\\' then ['\\', '\\']
  else if c.toNat = 8 then ['\\', 'b']
  else if c.toNat = 9 then ['\\', 't']
  else if c.toNat = 10 then ['\\', 'n']
  else if c.toNat = 12 then ['\\', 'f']
  else if c.toNat = 13 then ['\\', 'r']
  else if c.toNat < 32 then ['\\', 'u', '0', '0', hexDigit (c.toNat / 16), hexDigit (c.toNat % 16)]
  else [c]

/-- A text in quotes, as JSON writes it. -/
def quote (s : String) : List Char := '"' :: s.toList.flatMap escapeChar ++ ['"']

mutual

/-- The compact JSON text of a value. -/
def json : Value → List Char
  | .null => ['n', 'u', 'l', 'l']
  | .bool true => ['t', 'r', 'u', 'e']
  | .bool false => ['f', 'a', 'l', 's', 'e']
  | .number n => n.json
  | .string s => quote s
  | .array items => '[' :: jsonItems items
  | .object members => '\x7b' :: jsonMembers members

/-- The rest of an array after its bracket. -/
def jsonItems : List Value → List Char
  | [] => [']']
  | item :: rest => json item ++ jsonMoreItems rest

/-- The rest of an array after one of its elements. -/
def jsonMoreItems : List Value → List Char
  | [] => [']']
  | item :: rest => ',' :: json item ++ jsonMoreItems rest

/-- The rest of an object after its brace. -/
def jsonMembers : List (String × Value) → List Char
  | [] => ['\x7d']
  | (key, value) :: rest => quote key ++ ':' :: json value ++ jsonMoreMembers rest

/-- The rest of an object after one of its members. -/
def jsonMoreMembers : List (String × Value) → List Char
  | [] => ['\x7d']
  | (key, value) :: rest => ',' :: quote key ++ ':' :: json value ++ jsonMoreMembers rest

end

mutual

/-- What a template prints for a value. -/
def text : Value → List Char
  | .null => []
  | .bool true => ['t', 'r', 'u', 'e']
  | .bool false => ['f', 'a', 'l', 's', 'e']
  | .number n => n.text
  | .string s => s.toList
  | .array items => textItems items
  | .object members => json (.object members)

/-- What a template prints for the elements of an array. -/
def textItems : List Value → List Char
  | [] => []
  | item :: rest => text item ++ textItems rest

end

/-- The compact JSON text of a value, as a string. -/
def toJson (value : Value) : String := String.ofList value.json

/-- What a template prints for a value, as a string. -/
def toText (value : Value) : String := String.ofList value.text

end Value

end TextTemplate
