/-! # Finding and replacing

Occurrences of a non-empty pattern are taken from left to right, and the search goes on behind
each one found, so they never overlap. `pieces` cuts a text at them; replacing and removing are
joins of the pieces.
-/

namespace TextTemplate.Text

/-- What follows `lead` in `text`, if `text` starts with `lead`. -/
def afterLead? : List Char → List Char → Option (List Char)
  | [], text => some text
  | _ :: _, [] => none
  | l :: lead, c :: text => if l = c then afterLead? lead text else none

/-- Whether `pattern` occurs in `text`; the empty pattern always does. -/
def occurs (pattern : List Char) : List Char → Bool
  | [] => pattern.isEmpty
  | c :: text => (afterLead? pattern (c :: text)).isSome || occurs pattern text

/-- The text before the first occurrence of `pattern`, and the text behind it. -/
def splitFirst? (pattern : List Char) : List Char → Option (List Char × List Char)
  | [] => if pattern.isEmpty then some ([], []) else none
  | c :: text =>
    match afterLead? pattern (c :: text) with
    | some rest => some ([], rest)
    | none => (splitFirst? pattern text).map fun (before, rest) => (c :: before, rest)

/-- The pieces of a text between the occurrences of `pattern`, for at most `fuel` of them. -/
def piecesUpTo (pattern : List Char) : Nat → List Char → List (List Char)
  | 0, text => [text]
  | fuel + 1, text =>
    match splitFirst? pattern text with
    | none => [text]
    | some (before, rest) => before :: piecesUpTo pattern fuel rest

/-- The pieces of a text between the occurrences of a non-empty `pattern`. A text has no more
occurrences than characters. -/
def pieces (pattern text : List Char) : List (List Char) :=
  piecesUpTo pattern text.length text

/-- Pieces put together again, with `separator` between neighbours. -/
def joinWith (separator : List Char) : List (List Char) → List Char
  | [] => []
  | [piece] => piece
  | piece :: next :: rest => piece ++ separator ++ joinWith separator (next :: rest)

/-- The text with every occurrence of a non-empty `pattern` replaced. -/
def replaceAll (pattern replacement text : List Char) : List Char :=
  if pattern.isEmpty then text else joinWith replacement (pieces pattern text)

/-- The text with the first occurrence of a non-empty `pattern` replaced. -/
def replaceFirst (pattern replacement text : List Char) : List Char :=
  if pattern.isEmpty then text
  else
    match splitFirst? pattern text with
    | none => text
    | some (before, rest) => before ++ replacement ++ rest

end TextTemplate.Text
