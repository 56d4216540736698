import TextTemplate.Json.Rejection
import TextTemplate.Json.Skip
/-! # Reading JSON text that should hold something certain

A decoder reads like a reader of values does, but rejects what is not of the type it is after, and
does so as soon as it can tell. So a mismatch early in a text comes up before a fault later in it.
-/

namespace TextTemplate.Json

/-- A computation that reads from the front of the input and may reject what it finds. -/
abbrev Decoder (α : Type) := StateT Input (Except Rejection) α

/-- What a shape counts, if it is a whole number that is not negative. -/
def Shape.count : Shape → Except Mismatch Nat
  | .integer n => if 0 ≤ n then .ok n.toNat else .error (.wrongValue (.integer n) "usize")
  | shape => .error (.wrongType shape "usize")

namespace Decoder

/-- A reader of JSON text as a decoder. -/
def ofReader {α : Type} (reader : Reader α) : Decoder α := fun input =>
  match reader input with
  | .ok result => .ok result
  | .error fault => .error (.ofFault fault)

instance : MonadLift Reader Decoder := ⟨ofReader⟩

/-- Reject what was read last. -/
def reject {α : Type} (mismatch : Mismatch) : Decoder α := fun input =>
  .error ⟨.mismatched mismatch, some input.offset⟩

/-- A result, or the rejection of what was read last. -/
def orReject {α : Type} : Except Mismatch α → Decoder α
  | .ok value => pure value
  | .error mismatch => reject mismatch

/-- Reject an object at one of its keys. White space behind the key counts as read, and so does a
closing brace. -/
def rejectAtKey {α : Type} (mismatch : Mismatch) : Decoder α := do
  if (← Reader.peekPastBlank?) == some '\x7d' then Reader.skip
  reject mismatch

/-- The shape of the value that comes next. A value without parts is read; an array or an object
is left at its opening bracket. -/
def shape : Decoder Shape := do
  let c? ← Reader.peekPastBlank?
  if c? == some '[' then pure .sequence
  else if c? == some '\x7b' then pure .map
  else do
    let value ← readValueWith none
    pure (Shape.ofValue value)

/-- A count. -/
def count : Decoder Nat := do orReject (← shape).count

/-- The end of an array that has all its elements. -/
def listEnd : Reader Unit := do
  match ← Reader.peekPastBlank? with
  | none => Reader.failAhead .endInList
  | some c =>
    if c = ']' then Reader.skip
    else if c = ',' then
      Reader.skip
      if (← Reader.peekPastBlank?) == some ']' then Reader.failAhead .trailingComma
      else Reader.failAhead .trailingText
    else Reader.failAhead .trailingText

/-- The members of an object, from the start of a key on. A key is refused, or it tells how its
value adds to what has been read before. -/
def fields {σ : Type} (field : σ → String → Except Mismatch (Decoder σ)) :
    List Char → σ → Decoder σ
  | [], _ => (Reader.failAhead .endInObject : Reader σ)
  | _ :: fuel, before => do
    Reader.skip
    let key ← readString
    match field before key with
    | .error mismatch => rejectAtKey mismatch
    | .ok value => do
      readColon
      let after ← value
      if ← continuesObject then fields field fuel after else pure after

/-- An object, from its opening brace on. -/
def object {σ : Type} (field : σ → String → Except Mismatch (Decoder σ)) (before : σ) :
    Decoder σ := do
  Reader.skip
  if ← startsObject then fields field (← Reader.unread) before else pure before

/-- What a decoder makes of a whole text. -/
def run {α : Type} (decoder : Decoder α) (text : String) : Except Rejection α :=
  StateT.run' (do
    let value ← decoder
    readEnd
    pure value) (Input.ofText text.toList)

end Decoder

end TextTemplate.Json
