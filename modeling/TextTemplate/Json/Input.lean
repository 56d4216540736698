import TextTemplate.Json.Fault
/-! # Reading JSON text, character by character

The state of a reader is the text not yet read and the number of bytes read so far. Some faults are
reported at the character that comes next, others behind the last character read.
-/

namespace TextTemplate.Json

/-- The text still to be read and the number of bytes read before it. -/
structure Input where
  rest : List Char
  offset : Nat
deriving DecidableEq, Repr

/-- A computation that reads from the front of the input. -/
abbrev Reader (α : Type) := StateT Input (Except Fault) α

namespace Input

/-- The input at the start of a text. -/
def ofText (text : List Char) : Input := ⟨text, 0⟩

/-- The input after its first character. -/
def next (input : Input) : Input :=
  match input.rest with
  | [] => input
  | c :: rest => ⟨rest, input.offset + c.utf8Size⟩

/-- The input after the white space of JSON at its start. -/
def skipBlank : List Char → Nat → Input
  | [], offset => ⟨[], offset⟩
  | c :: rest, offset =>
    if c = ' ' ∨ c = '\n' ∨ c = '\t' ∨ c = '\r' then skipBlank rest (offset + 1)
    else ⟨c :: rest, offset⟩

/-- The input after the digits at its start. -/
def skipDigits : List Char → Nat → Input
  | [], offset => ⟨[], offset⟩
  | c :: rest, offset =>
    if '0' ≤ c ∧ c ≤ '9' then skipDigits rest (offset + 1) else ⟨c :: rest, offset⟩

end Input

namespace Reader

/-- The next character, left in place. -/
def peek? : Reader (Option Char) := fun input => .ok (input.rest.head?, input)

/-- Pass over the next character. -/
def skip : Reader Unit := fun input => .ok ((), input.next)

/-- Pass over white space; the next character, left in place. -/
def peekPastBlank? : Reader (Option Char) := fun input =>
  let input := Input.skipBlank input.rest input.offset
  .ok (input.rest.head?, input)

/-- Fail at the character that comes next, or at the end of the text. -/
def failAhead {α : Type} (cause : Cause) : Reader α := fun input =>
  .error ⟨cause, if input.rest.isEmpty then input.offset else input.offset + 1⟩

/-- Fail behind the last character read. -/
def failHere {α : Type} (cause : Cause) : Reader α := fun input => .error ⟨cause, input.offset⟩

/-- Fail on the next byte, which counts as read. -/
def failOnByte {α : Type} (cause : Cause) : Reader α := fun input =>
  .error ⟨cause, input.offset + 1⟩

/-- The text not yet read. A loop that reads at least one character in each round has no more rounds
than this text has characters. -/
def unread : Reader (List Char) := fun input => .ok (input.rest, input)

end Reader

end TextTemplate.Json
