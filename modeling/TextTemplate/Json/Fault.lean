import TextTemplate.Position
/-! # Faults in JSON text

What can be wrong with a JSON text, and where. A fault carries the number of bytes that were read
when it was found; `Fault.position` turns that into a place in the text.
-/

namespace TextTemplate.Json

/-- Why a text is not JSON. -/
inductive Cause where
  | endInValue
  | endInList
  | endInObject
  | endInString
  | badWord
  | missingValue
  | missingColon
  | missingListSeparator
  | missingObjectSeparator
  | trailingComma
  | keyNotString
  | badNumber
  | numberOutOfRange
  | controlCharacter
  | badEscape
  | loneSurrogate
  | brokenSurrogate
  | nestingTooDeep
  | trailingText
deriving DecidableEq, Repr

/-- The wording of a cause. -/
def Cause.message : Cause → String
  | .endInValue => "EOF while parsing a value"
  | .endInList => "EOF while parsing a list"
  | .endInObject => "EOF while parsing an object"
  | .endInString => "EOF while parsing a string"
  | .badWord => "expected ident"
  | .missingValue => "expected value"
  | .missingColon => "expected `:`"
  | .missingListSeparator => "expected `,` or `]`"
  | .missingObjectSeparator => "expected `,` or `\x7d`"
  | .trailingComma => "trailing comma"
  | .keyNotString => "key must be a string"
  | .badNumber => "invalid number"
  | .numberOutOfRange => "number out of range"
  | .controlCharacter => "control character (\\u0000-\\u001F) found while parsing a string"
  | .badEscape => "invalid escape"
  | .loneSurrogate => "lone leading surrogate in hex escape"
  | .brokenSurrogate => "unexpected end of hex escape"
  | .nestingTooDeep => "recursion limit exceeded"
  | .trailingText => "trailing characters"

/-- A fault and the number of bytes read when it was found. -/
structure Fault where
  cause : Cause
  index : Nat
deriving DecidableEq, Repr

/-- The line of a byte index, counted from one, and the byte offset at which that line starts. -/
def lineStart (index : Nat) : Nat → Nat → Nat → List Char → Nat × Nat
  | line, start, _, [] => (line, start)
  | line, start, offset, c :: rest =>
    if index ≤ offset then (line, start)
    else if c = '\n' then lineStart index (line + 1) (offset + 1) (offset + 1) rest
    else lineStart index line start (offset + c.utf8Size) rest

/-- The line of a byte index, counted from one, and the number of bytes before it in that line. -/
def lineAndColumn (text : List Char) (index : Nat) : Nat × Nat :=
  let (line, start) := lineStart index 1 0 0 text
  (line, index - start)

/-- The number of bytes of the first `count` lines of a text, line feeds included. -/
def bytesOfLines : Nat → List Char → Nat
  | 0, _ => 0
  | _ + 1, [] => 0
  | count + 1, c :: rest => c.utf8Size + bytesOfLines (if c = '\n' then count else count + 1) rest

/-- The last place between characters that does not lie behind a byte offset. -/
def boundaryUpTo (text : List Char) : Nat → Nat
  | 0 => 0
  | offset + 1 =>
    if Position.isBoundary text (offset + 1) then offset + 1 else boundaryUpTo text offset

/-- The position of the byte before a given column of a line, both counted from one: the start of
the character that holds that byte. A column of zero stands for the start of the line. Nothing if
the line turns out to start inside a character. -/
def positionAt? (text : List Char) (line column : Nat) : Option Position := do
  let start := bytesOfLines (line - 1) text
  let offset := boundaryUpTo text (min (start + (column - 1)) (Position.byteLength text))
  let before ← Position.slice? (min start offset) offset text
  pure ⟨max line 1, before.length + 1, offset⟩

/-- The place a fault points at, told by the line and the column of its index. There is always one;
the zeros are no place. -/
def Fault.position (fault : Fault) (text : List Char) : Position :=
  let (line, column) := lineAndColumn text fault.index
  (positionAt? text line column).getD ⟨0, 0, 0⟩

end TextTemplate.Json
