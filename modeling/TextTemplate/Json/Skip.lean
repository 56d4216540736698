import TextTemplate.Json.Reader
/-! # Values that nobody asks for

A value that is passed over is read less closely than one that is kept: a number may be of any
size, an escape may stand for half of a surrogate pair, and nesting has no limit. Only its extent
matters.
-/

namespace TextTemplate.Json.Skip

/-- Pass over digits. -/
def digits : Reader Unit := modify fun input => Input.skipDigits input.rest input.offset

/-- Pass over an exponent, from its letter on. -/
def exponent : Reader Unit := do
  Reader.skip
  let sign? ← Reader.peek?
  if sign? == some '+' || sign? == some '-' then Reader.skip
  match ← Reader.peek? with
  | none => Reader.failHere .badNumber
  | some c => if Numeral.isDigit c then digits else Reader.failOnByte .badNumber

/-- Pass over the exponent of a number, if it has one. -/
def scale : Reader Unit := do
  let c? ← Reader.peek?
  if c? == some 'e' || c? == some 'E' then exponent

/-- Pass over the fraction and the exponent of a number, if it has them. -/
def fraction : Reader Unit := do
  if (← Reader.peek?) == some '.' then
    Reader.skip
    if startsWithDigit (← get).rest then
      digits
      scale
    else Reader.failAhead .badNumber
  else scale

/-- Pass over a number, after its minus sign if it has one. -/
def number : Reader Unit := do
  match ← Reader.peek? with
  | none => Reader.failHere .badNumber
  | some c =>
    if c = '0' then
      Reader.skip
      if startsWithDigit (← get).rest then Reader.failAhead .badNumber else fraction
    else if Numeral.isDigit c then
      digits
      fraction
    else Reader.failOnByte .badNumber

/-- Pass over an escape, after its backslash. -/
def escape : Reader Unit := do
  match ← Reader.peek? with
  | none => Reader.failHere .endInString
  | some c =>
    if c = 'u' then
      Reader.skip
      let _ ← readHex
    else if ['"', '\\', '/', 'b', 'f', 'n', 'r', 't'].contains c then Reader.skip
    else Reader.failOnByte .badEscape

/-- Pass over the characters of a string and its closing quote. -/
def chars : List Char → Reader Unit
  | [] => Reader.failHere .endInString
  | _ :: fuel => do
    match ← Reader.peek? with
    | none => Reader.failHere .endInString
    | some c =>
      if c = '"' then Reader.skip
      else if c = '\\' then
        Reader.skip
        escape
        chars fuel
      else if c.toNat < 32 then Reader.failHere .controlCharacter
      else
        Reader.skip
        chars fuel

/-- Pass over a string, after its opening quote. -/
def string : Reader Unit := do chars (← Reader.unread)

/-- Whether a comma follows in an array; if not, pass over the closing bracket. -/
def continuesList : Reader Bool := do
  match ← Reader.peekPastBlank? with
  | none => Reader.failAhead .endInList
  | some c =>
    if c = ',' then
      Reader.skip
      pure true
    else if c = ']' then
      Reader.skip
      pure false
    else Reader.failAhead .missingListSeparator

/-- Pass over elements, from the start of one, and over the closing bracket. -/
def items (element : Reader Unit) : List Char → Reader Unit
  | [] => Reader.failAhead .endInList
  | _ :: fuel => do
    element
    if ← continuesList then items element fuel

/-- Whether a comma follows in an object; if not, pass over the closing brace. -/
def continuesObject : Reader Bool := do
  match ← Reader.peekPastBlank? with
  | none => Reader.failAhead .endInObject
  | some c =>
    if c = ',' then
      Reader.skip
      pure true
    else if c = '\x7d' then
      Reader.skip
      pure false
    else Reader.failAhead .missingObjectSeparator

/-- Pass over a key, its colon and its value. -/
def member (element : Reader Unit) : Reader Unit := do
  match ← Reader.peekPastBlank? with
  | none => Reader.failAhead .endInObject
  | some c =>
    if c = '"' then
      Reader.skip
      string
      readColon
      element
    else Reader.failAhead .keyNotString

/-- Pass over members, from the start of one, and over the closing brace. -/
def members (element : Reader Unit) : List Char → Reader Unit
  | [] => Reader.failAhead .endInObject
  | _ :: fuel => do
    member element
    if ← continuesObject then members element fuel

/-- Pass over a value whose parts are passed over by `element`. -/
def valueWith (element : Reader Unit) : Reader Unit := do
  match ← Reader.peekPastBlank? with
  | none => Reader.failAhead .endInValue
  | some c =>
    if c = '-' then
      Reader.skip
      number
    else if Numeral.isDigit c then number
    else if c = '"' then
      Reader.skip
      string
    else if c = '[' then
      Reader.skip
      if ← startsList then items element (← Reader.unread)
    else if c = '\x7b' then
      Reader.skip
      if (← Reader.peekPastBlank?) == some '\x7d' then Reader.skip
      else members element (← Reader.unread)
    else
      let _ ← readValueWith none

/-- Pass over a value in which there are no more levels of nesting than `fuel` has characters. -/
def valueWithin : List Char → Reader Unit
  | [] => Reader.failAhead .endInValue
  | _ :: fuel => valueWith (valueWithin fuel)

/-- Pass over a value. Each level of nesting takes a character, so the text left bounds their
number. -/
def value : Reader Unit := do valueWithin (← Reader.unread)

end TextTemplate.Json.Skip
