import TextTemplate.Error
import TextTemplate.Json.Number
/-! # JSON text as a value

A reader for whole JSON texts. Arrays and objects are read by readers one level deeper; the number
of levels is the argument on which the recursion runs. A loop over characters, elements or members
runs along the text left at its start, the argument `fuel`, since each round reads at least one
character.
-/

namespace TextTemplate.Json

/-- How many arrays and objects may stand inside each other. -/
def greatestDepth : Nat := 127

/-- The value of a hexadecimal digit. -/
def hexValue? (c : Char) : Option Nat :=
  if '0' ≤ c ∧ c ≤ '9' then some (c.toNat - 48)
  else if 'a' ≤ c ∧ c ≤ 'f' then some (c.toNat - 87)
  else if 'A' ≤ c ∧ c ≤ 'F' then some (c.toNat - 55)
  else none

/-- The number written by four hexadecimal digits. -/
def hexNumber? : List Char → Option Nat
  | [a, b, c, d] => do
    pure (4096 * (← hexValue? a) + 256 * (← hexValue? b) + 16 * (← hexValue? c) + (← hexValue? d))
  | _ => none

/-- The four hexadecimal digits of an escape. Four bytes are read whatever they hold, and all of
the text if there are fewer. -/
def readHex : Reader Nat := fun input =>
  let left := Position.byteLength (input.rest.take 4)
  if left < 4 then .error ⟨.endInString, input.offset + left⟩
  else
    match hexNumber? (input.rest.take 4) with
    | some n => .ok (n, ⟨input.rest.drop 4, input.offset + 4⟩)
    | none => .error ⟨.badEscape, input.offset + 4⟩

/-- One required character between the two halves of a surrogate pair. -/
def readBetweenSurrogates (expected : Char) : Reader Unit := do
  match ← Reader.peek? with
  | none => Reader.failHere .endInString
  | some c => if c = expected then Reader.skip else Reader.failOnByte .brokenSurrogate

/-- The character of an escape by number, after its `u`. Characters beyond the first plane are
written as surrogate pairs; half a pair is no character. -/
def readUnicode : Reader Char := do
  let high ← readHex
  if 0xDC00 ≤ high ∧ high ≤ 0xDFFF then Reader.failHere .loneSurrogate
  else if 0xD800 ≤ high ∧ high ≤ 0xDBFF then
    readBetweenSurrogates '\\'
    readBetweenSurrogates 'u'
    let low ← readHex
    if 0xDC00 ≤ low ∧ low ≤ 0xDFFF then
      pure (Char.ofNat (0x10000 + (high - 0xD800) * 0x400 + (low - 0xDC00)))
    else Reader.failHere .loneSurrogate
  else pure (Char.ofNat high)

/-- The character of an escape, after its backslash. -/
def readEscape : Reader Char := do
  match ← Reader.peek? with
  | none => Reader.failHere .endInString
  | some c =>
    if c = '"' ∨ c = '\\' ∨ c = '/' then do
      Reader.skip
      pure c
    else if c = 'b' then do
      Reader.skip
      pure (Char.ofNat 8)
    else if c = 'f' then do
      Reader.skip
      pure (Char.ofNat 12)
    else if c = 'n' then do
      Reader.skip
      pure '\n'
    else if c = 'r' then do
      Reader.skip
      pure '\r'
    else if c = 't' then do
      Reader.skip
      pure '\t'
    else if c = 'u' then do
      Reader.skip
      readUnicode
    else Reader.failOnByte .badEscape

/-- The characters of a string up to its closing quote. -/
def readChars : List Char → Reader (List Char)
  | [] => Reader.failHere .endInString
  | _ :: fuel => do
    match ← Reader.peek? with
    | none => Reader.failHere .endInString
    | some c =>
      if c = '"' then do
        Reader.skip
        pure []
      else if c = '\\' then do
        Reader.skip
        let escaped ← readEscape
        let rest ← readChars fuel
        pure (escaped :: rest)
      else if c.toNat < 32 then Reader.failOnByte .controlCharacter
      else do
        Reader.skip
        let rest ← readChars fuel
        pure (c :: rest)

/-- A string after its opening quote. -/
def readString : Reader String := do
  let chars ← readChars (← Reader.unread)
  pure (String.ofList chars)

/-- The rest of a word whose first letter has been read. -/
def readWord : List Char → Reader Unit
  | [] => pure ()
  | letter :: word => do
    match ← Reader.peek? with
    | none => Reader.failHere .endInValue
    | some c =>
      if c = letter then do
        Reader.skip
        readWord word
      else Reader.failOnByte .badWord

/-- Whether an array has a first element: at the start of it, or behind the closing bracket. -/
def startsList : Reader Bool := do
  match ← Reader.peekPastBlank? with
  | none => Reader.failAhead .endInList
  | some c =>
    if c = ']' then do
      Reader.skip
      pure false
    else pure true

/-- Whether an array goes on with another element: at the start of it, or behind the closing
bracket. -/
def continuesList : Reader Bool := do
  match ← Reader.peekPastBlank? with
  | none => Reader.failAhead .endInList
  | some c =>
    if c = ']' then do
      Reader.skip
      pure false
    else if c = ',' then do
      Reader.skip
      match ← Reader.peekPastBlank? with
      | none => Reader.failAhead .endInValue
      | some c => if c = ']' then Reader.failAhead .trailingComma else pure true
    else Reader.failAhead .missingListSeparator

/-- The elements of an array behind its first, and its closing bracket. -/
def readMoreItems {α : Type} (element : Reader α) : List Char → Reader (List α)
  | [] => Reader.failAhead .endInList
  | _ :: fuel => do
    if ← continuesList then
      let item ← element
      let rest ← readMoreItems element fuel
      pure (item :: rest)
    else pure []

/-- The elements of an array, after its opening bracket. -/
def readItems {α : Type} (element : Reader α) : Reader (List α) := do
  if ← startsList then
    let item ← element
    let rest ← readMoreItems element (← Reader.unread)
    pure (item :: rest)
  else pure []

/-- The colon behind a key. -/
def readColon : Reader Unit := do
  match ← Reader.peekPastBlank? with
  | none => Reader.failAhead .endInObject
  | some c => if c = ':' then Reader.skip else Reader.failAhead .missingColon

/-- A key and its value, from the opening quote of the key on. -/
def readMember (element : Reader Value) : Reader (String × Value) := do
  Reader.skip
  let key ← readString
  readColon
  let value ← element
  pure (key, value)

/-- Whether an object goes on with another member: at the start of its key, or behind its closing
brace. -/
def continuesObject : Reader Bool := do
  match ← Reader.peekPastBlank? with
  | none => Reader.failAhead .endInObject
  | some c =>
    if c = '\x7d' then do
      Reader.skip
      pure false
    else if c = ',' then do
      Reader.skip
      match ← Reader.peekPastBlank? with
      | none => Reader.failAhead .endInValue
      | some c =>
        if c = '"' then pure true
        else if c = '\x7d' then Reader.failAhead .trailingComma
        else Reader.failAhead .keyNotString
    else Reader.failAhead .missingObjectSeparator

/-- Whether an object has a first member: at the start of its key, or behind its closing brace. -/
def startsObject : Reader Bool := do
  match ← Reader.peekPastBlank? with
  | none => Reader.failAhead .endInObject
  | some c =>
    if c = '"' then pure true
    else if c = '\x7d' then do
      Reader.skip
      pure false
    else Reader.failAhead .keyNotString

/-- The members of an object from the start of a key on, as they are written. -/
def readMembers (element : Reader Value) : List Char → Reader (List (String × Value))
  | [] => Reader.failAhead .endInObject
  | _ :: fuel => do
    let member ← readMember element
    if ← continuesObject then
      let rest ← readMembers element fuel
      pure (member :: rest)
    else pure [member]

/-- The members of an object, after its opening brace. A key may be repeated. -/
def readEntries (element : Reader Value) : Reader (List (String × Value)) := do
  if ← startsObject then readMembers element (← Reader.unread) else pure []

/-- The members of an object, after its opening brace. A repeated key keeps its first place and
its last value. -/
def readObject (element : Reader Value) : Reader (List (String × Value)) := do
  let entries ← readEntries element
  pure (Value.ofEntries entries)

/-- A value whose parts are read by `element?`; without that it may not have parts. -/
def readValueWith (element? : Option (Reader Value)) : Reader Value := do
  match ← Reader.peekPastBlank? with
  | none => Reader.failAhead .endInValue
  | some c =>
    if c = 'n' then do
      Reader.skip
      readWord ['u', 'l', 'l']
      pure .null
    else if c = 't' then do
      Reader.skip
      readWord ['r', 'u', 'e']
      pure (.bool true)
    else if c = 'f' then do
      Reader.skip
      readWord ['a', 'l', 's', 'e']
      pure (.bool false)
    else if c = '-' then do
      Reader.skip
      let n ← readNumber true
      pure (.number n)
    else if Numeral.isDigit c then do
      let n ← readNumber false
      pure (.number n)
    else if c = '"' then do
      Reader.skip
      let s ← readString
      pure (.string s)
    else if c = '[' then
      match element? with
      | none => Reader.failAhead .nestingTooDeep
      | some element => do
        Reader.skip
        let items ← readItems element
        pure (.array items)
    else if c = '\x7b' then
      match element? with
      | none => Reader.failAhead .nestingTooDeep
      | some element => do
        Reader.skip
        let members ← readObject element
        pure (.object members)
    else Reader.failAhead .missingValue

/-- A value with at most `depth` arrays and objects inside each other. -/
def readValue : Nat → Reader Value
  | 0 => readValueWith none
  | depth + 1 => readValueWith (some (readValue depth))

/-- Nothing but white space up to the end of the text. -/
def readEnd : Reader Unit := do
  match ← Reader.peekPastBlank? with
  | none => pure ()
  | some _ => Reader.failAhead .trailingText

/-- The value that a whole text stands for. -/
def read (text : List Char) : Except Fault Value :=
  (do
    let value ← readValue greatestDepth
    readEnd
    pure value : Reader Value).run' (Input.ofText text)

end TextTemplate.Json

namespace TextTemplate

/-- The value of a document, the data that templates are rendered against. A text that is not JSON
is refused with the place of the fault. -/
def readDocument (text : String) : Except TemplateError Value :=
  match Json.read text.toList with
  | .ok value => .ok value
  | .error fault => .error (.invalidDocument fault.cause (fault.position text.toList))

end TextTemplate
