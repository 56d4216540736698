/-! # Positions in source text

A position names a place between two characters of a text: its line and column, both counted from
one, and the number of UTF-8 bytes before it. Columns count characters. `Position.advance` steps
over one character; `Locator` answers a sequence of byte offsets. It knows where the lines start,
and counts on from its last answer if the next offset lies behind it in the same line.
-/

namespace TextTemplate

/-- A place in a text: line and column from one, and the bytes that come before it. -/
structure Position where
  line : Nat
  column : Nat
  offset : Nat
deriving DecidableEq, Repr, Inhabited

namespace Position

/-- The place before the first character. -/
def start : Position := ⟨1, 1, 0⟩

/-- The place just after the character `c`; only a line feed opens a new line. -/
def advance (position : Position) (c : Char) : Position :=
  if c = '\n' then ⟨position.line + 1, 1, position.offset + c.utf8Size⟩
  else ⟨position.line, position.column + 1, position.offset + c.utf8Size⟩

/-- The place just after the characters `text`. -/
def advanceBy (position : Position) (text : List Char) : Position :=
  text.foldl advance position

/-- How messages name a place; the offset is left out. -/
def describe (position : Position) : String :=
  "line " ++ toString position.line ++ ", column " ++ toString position.column

/-- The number of UTF-8 bytes of a text. -/
def byteLength : List Char → Nat
  | [] => 0
  | c :: rest => c.utf8Size + byteLength rest

/-- A text without its first `count` bytes; nothing if that would cut a character. -/
def dropBytes? : Nat → List Char → Option (List Char)
  | 0, text => some text
  | _ + 1, [] => none
  | count + 1, c :: rest =>
    if c.utf8Size ≤ count + 1 then dropBytes? (count + 1 - c.utf8Size) rest else none

/-- The first `count` bytes of a text; nothing if that would cut a character. -/
def takeBytes? : Nat → List Char → Option (List Char)
  | 0, _ => some []
  | _ + 1, [] => none
  | count + 1, c :: rest =>
    if c.utf8Size ≤ count + 1 then (takeBytes? (count + 1 - c.utf8Size) rest).map (c :: ·)
    else none

/-- The text between two byte offsets; nothing if they are in the wrong order or either lies inside
a character or behind the end. -/
def slice? (first last : Nat) (text : List Char) : Option (List Char) :=
  if first ≤ last then (dropBytes? first text).bind (takeBytes? (last - first)) else none

/-- Whether a byte offset lies between two characters of a text, or at one of its ends. -/
def isBoundary (text : List Char) (offset : Nat) : Bool := (dropBytes? offset text).isSome

end Position

/-- A text being searched for positions: where its lines start, and the last position found. -/
structure Locator where
  source : List Char
  lineStarts : List Nat
  last : Position
deriving Repr

namespace Locator

/-- The byte offsets behind the line feeds of a text that starts at `offset`. -/
def startsBehind (offset : Nat) : List Char → List Nat
  | [] => []
  | c :: rest =>
    if c = '\n' then (offset + c.utf8Size) :: startsBehind (offset + c.utf8Size) rest
    else startsBehind (offset + c.utf8Size) rest

/-- A locator that has answered nothing yet. -/
def ofSource (source : List Char) : Locator :=
  ⟨source, 0 :: startsBehind 0 source, Position.start⟩

/-- The position at a byte offset, and the locator that remembers it; nothing if the offset is no
place between characters. Its line is that of the last start not behind it. The characters before it
are counted from the last position if that is in the same line and not behind it, and from the start
of the line if not. -/
def seek (locator : Locator) (offset : Nat) : Option (Position × Locator) := do
  let line := (locator.lineStarts.takeWhile (· ≤ offset)).length - 1
  let last := locator.last
  let column ←
    if last.line = line + 1 ∧ last.offset ≤ offset then do
      let passed ← Position.slice? last.offset offset locator.source
      pure (last.column + passed.length)
    else do
      let start ← locator.lineStarts[line]?
      let passed ← Position.slice? start offset locator.source
      pure (passed.length + 1)
  let position : Position := ⟨line + 1, column, offset⟩
  pure (position, ⟨locator.source, locator.lineStarts, position⟩)

/-- The positions at a sequence of offsets, asked in order of one locator. -/
def seekAll (locator : Locator) : List Nat → Option (List Position)
  | [] => some []
  | offset :: offsets => do
    let (position, next) ← locator.seek offset
    let positions ← next.seekAll offsets
    pure (position :: positions)

end Locator

end TextTemplate
