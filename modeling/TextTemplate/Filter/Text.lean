import TextTemplate.Filter.Basic
import TextTemplate.Text.Case
import TextTemplate.Text.Search
import TextTemplate.Value.Print
/-! # Filters on text

A filter on text works on what a template would print for its input, and leaves null as it is, so
that a later `default` still finds it. An argument that is missing or null is replaced by the
default of the filter.
-/

namespace TextTemplate.Filter

/-- The argument at a place, null if there is none. -/
def arg (args : List Value) (place : Nat) : Value := args.getD place .null

/-- The text of the argument at a place, or `fallback` for null. -/
def textArg (args : List Value) (place : Nat) (fallback : List Char) : List Char :=
  match arg args place with
  | .null => fallback
  | value => value.text

/-- A change of text, with null left as it is. -/
def mapText (change : List Char → List Char) : Value → Value
  | .null => .null
  | input => Value.ofChars (change input.text)

/-- The form in which a character can stand in HTML text and attributes. -/
def entity (c : Char) : List Char :=
  if c = '&' then ['&', 'a', 'm', 'p', ';']
  else if c = '<' then ['&', 'l', 't', ';']
  else if c = '>' then ['&', 'g', 't', ';']
  else if c = '"' then ['&', 'q', 'u', 'o', 't', ';']
  else if c = '\'' then ['&', '#', '3', '9', ';']
  else [c]

/-- A text with the five characters that HTML gives a meaning written as entities. -/
def escapeHtml (text : List Char) : List Char := text.flatMap entity

/-- A text cut down to `length` characters, of which the last are those of `ellipsis`. A text that
is short enough is left as it is; an ellipsis that is too long stands alone, uncut. -/
def shorten (length : Nat) (ellipsis text : List Char) : List Char :=
  if text.length ≤ length then text else text.take (length - ellipsis.length) ++ ellipsis

/-- The length a text is cut down to: fifty unless the argument is a number, and never negative. -/
def shortenedLength (value : Value) : Nat :=
  match value.toInt64? with
  | some n => n.toNat
  | none => 50

/-- A text with a line break element before each line feed. -/
def breakLines (text : List Char) : List Char :=
  text.flatMap fun c => if c = '\n' then "<br />\n".toList else [c]

/-- A text put behind the input; null counts as no text. -/
def appendText (input : Value) (args : List Value) : Value :=
  Value.ofChars (input.text ++ textArg args 0 [])

/-- A text put before the input; null counts as no text. -/
def prependText (input : Value) (args : List Value) : Value :=
  Value.ofChars (textArg args 0 [] ++ input.text)

end TextTemplate.Filter
