import TextTemplate.Text.Blank
import TextTemplate.Text.CaseData
/-! # Upper and lower case

Full case mapping of characters and texts, without regard to language. A character may become
several, and a capital sigma at the end of a word has a lower-case form of its own.
-/

namespace TextTemplate.Text

/-- The code point that a case table pairs with `code`. -/
def CaseRange.target? (ranges : List CaseRange) (code : Nat) : Option Nat :=
  (ranges.find? fun range =>
      range.first ≤ code && code ≤ range.last && (code - range.first) % range.step == 0).map
    fun range => range.target + (code - range.first)

/-- The upper-case form of one character. -/
def upperChar (c : Char) : List Char :=
  match upperSequences.find? (·.1 == c.toNat) with
  | some entry => entry.2.map Char.ofNat
  | none =>
    match CaseRange.target? upperRanges c.toNat with
    | some code => [Char.ofNat code]
    | none => [c]

/-- The lower-case form of one character, whatever stands around it. The dotted capital I is the
only character whose form has more than one character. -/
def lowerChar (c : Char) : List Char :=
  if c.toNat = 0x130 then ['i', Char.ofNat 0x307]
  else
    match CaseRange.target? lowerRanges c.toNat with
    | some code => [Char.ofNat code]
    | none => [c]

/-- Letters with a case, apart from those that word boundaries skip. -/
def isCased (c : Char) : Bool := inRanges casedRanges c.toNat

/-- Characters that a word may hold between its letters, such as accents and apostrophes. -/
def isCaseIgnorable (c : Char) : Bool := inRanges caseIgnorableRanges c.toNat

/-- Whether the first character that counts is a letter with a case. -/
def startsWithCased (text : List Char) : Bool :=
  match text.dropWhile isCaseIgnorable with
  | [] => false
  | c :: _ => isCased c

/-- The upper-case form of a text. -/
def upper (text : List Char) : List Char := text.flatMap upperChar

/-- The lower-case form of `text` where `before` comes in front of it, nearest character first.
A capital sigma with a letter before it and none behind it takes its final form. -/
def lowerAfter (before : List Char) : List Char → List Char
  | [] => []
  | c :: rest =>
    let form :=
      if c.toNat = 0x3A3 then
        if startsWithCased before && !startsWithCased rest then [Char.ofNat 0x3C2]
        else [Char.ofNat 0x3C3]
      else lowerChar c
    form ++ lowerAfter (c :: before) rest

/-- The lower-case form of a text. -/
def lower (text : List Char) : List Char := lowerAfter [] text

/-- The first character in upper case and all others in lower case, as a text of their own. -/
def capitalize : List Char → List Char
  | [] => []
  | c :: rest => upperChar c ++ lower rest

/-- The first character in lower case, the others unchanged. -/
def lowerFirst : List Char → List Char
  | [] => []
  | c :: rest => lowerChar c ++ rest

end TextTemplate.Text
