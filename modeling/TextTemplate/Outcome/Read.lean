import TextTemplate.Json.Decoder
import TextTemplate.Outcome
/-! # Outcomes as JSON text

An outcome is read from an object whose fields may come in any order, or from an array that starts
with the status. The status is judged as soon as it is read; the other fields are kept as they are
until the end is reached, and what is wrong with them is reported without a place.
-/

namespace TextTemplate.RenderOutcome

open Json (Decoder Mismatch Reader Shape)

/-- Which of the two outcomes a text reports. -/
inductive Status where
  | success
  | failure
deriving DecidableEq, Repr

/-- How texts name a status. -/
def Status.name : Status → String
  | .success => "success"
  | .failure => "failure"

/-- The names of both. -/
def Status.names : List String := [Status.success.name, Status.failure.name]

/-- The status of a given name. -/
def Status.ofName (text : String) : Except Mismatch Status :=
  if text = Status.success.name then .ok .success
  else if text = Status.failure.name then .ok .failure
  else .error (.unknownVariant text Status.names)

/-- A field kept for later. Of an object all entries are kept, also those of one name. -/
inductive Content where
  | value (content : Value)
  | entries (members : List (String × Value))

namespace Content

/-- How messages see a field. -/
def shape : Content → Shape
  | .value content => Shape.ofValue content
  | .entries _ => .map

/-- A field that should hold a text. -/
def text : Content → Except Mismatch String
  | .value (.string s) => .ok s
  | content => .error (.wrongType content.shape "a string")

/-- The kind of failure of a given name. -/
def kindOfName (name : String) : Except Mismatch ErrorKind :=
  match ErrorKind.ofName? name with
  | some kind => .ok kind
  | none => .error (.unknownVariant name (ErrorKind.all.map ErrorKind.name))

/-- A field that should hold a kind of failure: its name, or an object with that name as its only
key and nothing under it. -/
def kind : Content → Except Mismatch ErrorKind
  | .value (.string name) => kindOfName name
  | .entries [(name, below)] => do
    let kind ← kindOfName name
    match below with
    | .null => pure kind
    | .object [] => pure kind
    | below => .error (.wrongType (Shape.ofValue below) "unit")
  | .entries _ => .error (.wrongValue .map "map with a single key")
  | content => .error (.wrongType content.shape "string or map")

/-- A field that may hold a line and a column. -/
def place? : Content → Except Mismatch (Option (Nat × Nat))
  | .value .null => .ok none
  | .value (.array []) => .error (.wrongLength 0 "a tuple of size 2")
  | .value (.array [line]) => do
    let _ ← (Shape.ofValue line).count
    .error (.wrongLength 1 "a tuple of size 2")
  | .value (.array (line :: column :: rest)) => do
    let line ← (Shape.ofValue line).count
    let column ← (Shape.ofValue column).count
    if rest.isEmpty then pure (some (line, column))
    else .error (.wrongLength (2 + rest.length) "2 elements in sequence")
  | content => .error (.wrongType content.shape "a tuple of size 2")

end Content

/-- The fields of a failure given so far. -/
structure Draft where
  kind? : Option ErrorKind := none
  message? : Option String := none
  place? : Option (Option (Nat × Nat)) := none

/-- A field that may be given only once. -/
def once {α : Type} (name : String) (before : Option α) (value : Except Mismatch α) :
    Except Mismatch (Option α) :=
  if before.isSome then .error (.repeatedField name) else value.map some

/-- The output after one more entry. -/
def addToSuccess (output? : Option String) (entry : String × Content) :
    Except Mismatch (Option String) :=
  if entry.1 = "output" then once entry.1 output? entry.2.text else .ok output?

/-- The fields of a failure after one more entry. -/
def addToFailure (draft : Draft) (entry : String × Content) : Except Mismatch Draft := do
  if entry.1 = "kind" then
    pure { draft with kind? := ← once entry.1 draft.kind? entry.2.kind }
  else if entry.1 = "message" then
    pure { draft with message? := ← once entry.1 draft.message? entry.2.text }
  else if entry.1 = "position" then
    pure { draft with place? := ← once entry.1 draft.place? entry.2.place? }
  else pure draft

/-- A field that has to be given. -/
def required {α : Type} (name : String) : Option α → Except Mismatch α
  | some value => .ok value
  | none => .error (.missingField name)

/-- The outcome with a given status and the entries of an object besides it. The place of a failure
may be missing. -/
def ofEntries (entries : List (String × Content)) : Status → Except Mismatch RenderOutcome
  | .success => do
    let output? ← entries.foldlM addToSuccess none
    pure (.success (← required "output" output?))
  | .failure => do
    let draft ← entries.foldlM addToFailure {}
    let kind ← required "kind" draft.kind?
    let message ← required "message" draft.message?
    pure (.failure kind message (draft.place?.getD none))

/-- An array of fields that ends too early. -/
def tooShort {α : Type} (length : Nat) : Status → Except Mismatch α
  | .success => .error (.wrongLength length "struct variant RenderOutcome::Success with 1 element")
  | .failure => .error (.wrongLength length "struct variant RenderOutcome::Failure with 3 elements")

/-- The outcome with a given status and the elements of an array behind it. -/
def ofItems (items : List Content) : Status → Except Mismatch RenderOutcome
  | .success =>
    match items with
    | [] => tooShort 0 .success
    | output :: rest => do
      let output ← output.text
      if rest.isEmpty then pure (.success output)
      else .error (.wrongLength (1 + rest.length) "1 element in sequence")
  | .failure =>
    match items with
    | [] => tooShort 0 .failure
    | kind :: items => do
      let kind ← kind.kind
      match items with
      | [] => tooShort 1 .failure
      | message :: items => do
        let message ← message.text
        match items with
        | [] => tooShort 2 .failure
        | place :: rest => do
          let place? ← place.place?
          if rest.isEmpty then pure (.failure kind message place?)
          else .error (.wrongLength (3 + rest.length) "3 elements in sequence")

/-- The status that comes next. -/
def status : Decoder Status := do
  match ← Decoder.shape with
  | .string name => Decoder.orReject (Status.ofName name)
  | shape => Decoder.reject (.wrongType shape "variant identifier")

/-- A field kept for later, one level below the outermost bracket. -/
def content : Reader Content := do
  if (← Reader.peekPastBlank?) == some '\x7b' then
    Reader.skip
    let entries ← Json.readEntries (Json.readValue (Json.greatestDepth - 2))
    pure (.entries entries)
  else
    let value ← Json.readValue (Json.greatestDepth - 1)
    pure (.value value)

/-- The value of a field of the outermost object, added to the status and the entries before. -/
def field (before : Option Status × List (String × Content)) (name : String) :
    Except Mismatch (Decoder (Option Status × List (String × Content))) :=
  if name = "status" then
    if before.1.isSome then .error (.repeatedField name)
    else .ok do
      let status ← status
      pure (some status, before.2)
  else .ok do
    let content ← content
    pure (before.1, before.2 ++ [(name, content)])

/-- Fields that are read and still to be judged. -/
abbrev Judgement := Except Mismatch RenderOutcome

/-- The fields in an array, from its opening bracket on. -/
def array : Decoder Judgement := do
  Reader.skip
  if ← Json.startsList then
    let status ← status
    let items ← Json.readMoreItems content (← Reader.unread)
    pure (ofItems items status)
  else Decoder.reject (.missingField "status")

/-- The fields in an object, from its opening brace on. -/
def object : Decoder Judgement := do
  let (status?, entries) ← Decoder.object field (none, [])
  match status? with
  | some status => pure (ofEntries entries status)
  | none => Decoder.reject (.missingField "status")

/-- The outcome that comes next in the input. -/
def decoder : Decoder RenderOutcome := do
  let judgement ←
    match ← Decoder.shape with
    | .sequence => array
    | .map => object
    | shape => Decoder.reject (.wrongType shape "internally tagged enum RenderOutcome")
  match judgement with
  | .ok outcome => pure outcome
  | .error mismatch => throw ⟨.mismatched mismatch, none⟩

/-- The outcome that a JSON text reports. -/
def ofJson (text : String) : Except Json.Rejection RenderOutcome := decoder.run text

end TextTemplate.RenderOutcome
