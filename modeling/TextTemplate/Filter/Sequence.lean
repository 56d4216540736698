import TextTemplate.Filter.Text
import TextTemplate.Sorting
import TextTemplate.Value.Compare
/-! # Filters on arrays

Filters that take arrays apart, put them together and reorder them. Most of them leave an input that
is no array as it is.
-/

namespace TextTemplate.Filter

/-- A change of arrays; other values are left as they are. -/
def mapArray (change : List Value → List Value) : Value → Value
  | .array items => .array (change items)
  | other => other

/-- The texts of the elements with a separator between neighbours, by default a space. -/
def joinItems (input : Value) (args : List Value) : Value :=
  match input with
  | .array items => Value.ofChars (Text.joinWith (textArg args 0 [' ']) (items.map Value.text))
  | other => mapText id other

/-- The number of elements, members or characters; other values have none. -/
def sizeOf : Value → Value
  | .array items => Value.ofNat items.length
  | .object members => Value.ofNat members.length
  | .string s => Value.ofNat s.toList.length
  | _ => Value.ofNat 0

/-- The pieces of a text at a separator: at white space for a single space, between all characters
for no separator, otherwise at its occurrences. -/
def splitText (separator text : List Char) : List (List Char) :=
  if separator.isEmpty then text.map fun c => [c]
  else if separator = [' '] then Text.words text
  else Text.pieces separator text

/-- A list of texts without the empty ones at its end. -/
def dropEmptyEnd (parts : List (List Char)) : List (List Char) :=
  (parts.reverse.dropWhile List.isEmpty).reverse

/-- The pieces of a text as an array, without empty ones at its end; null has none. -/
def splitValue (input : Value) (args : List Value) : Value :=
  match input with
  | .null => .array []
  | other =>
    .array ((dropEmptyEnd (splitText (textArg args 0 [' ']) other.text)).map Value.ofChars)

/-- The first element or character. -/
def firstOf : Value → Value
  | .array items => items.head?.getD .null
  | .string s =>
    match s.toList.head? with
    | some c => Value.ofChars [c]
    | none => .null
  | _ => .null

/-- The last element or character. -/
def lastOf : Value → Value
  | .array items => items.getLast?.getD .null
  | .string s =>
    match s.toList.getLast? with
    | some c => Value.ofChars [c]
    | none => .null
  | _ => .null

/-- Whether a value comes before another in sorted order. -/
def sortsBefore (a b : Value) : Bool := a.sortOrder b == .lt

/-- The elements in sorted order, equal ones in the order that they had; none if the order is seen
to contradict itself. -/
def sorted? (items : List Value) : Option (List Value) := Sorting.sort? sortsBefore items

/-- An array in sorted order; other values are left as they are. -/
def sortItems? : Value → Option Value
  | .array items => (sorted? items).map .array
  | other => some other

/-- The elements that equal none of those in `seen` and none before them. -/
def distinctFrom (seen : List Value) : List Value → List Value
  | [] => []
  | item :: rest =>
    if seen.any fun value => value.equal item then distinctFrom seen rest
    else item :: distinctFrom (seen ++ [item]) rest

/-- The elements without those that equal an earlier one. -/
def distinct (items : List Value) : List Value := distinctFrom [] items

/-- Whether a value is null. -/
def isNull : Value → Bool
  | .null => true
  | _ => false

/-- The member of an object under a key, null for every other value. -/
def memberOrNull (key : String) : Value → Value
  | .object members => (Value.member? key members).getD .null
  | _ => .null

/-- The members under one key: of each element of an array, or of an object. -/
def mapMember (input : Value) (args : List Value) : Value :=
  let key := String.ofList (textArg args 0 [])
  match input with
  | .array items => .array (items.map (memberOrNull key))
  | other => memberOrNull key other

end TextTemplate.Filter
