import TextTemplate.Json.Decoder
/-! # Limits

The bounds within which templates are parsed and rendered, and how they are read from JSON text.
Limits are given by an object with the fields `maxIterations` and `maxNestingDepth`, or by an array
with the two numbers in that order. What is not given has its standard value, and other fields are
passed over.
-/

namespace TextTemplate

/-- The bounds within which templates are parsed and rendered. -/
structure RenderOptions where
  /-- How many loop bodies one render may enter, and how long a range may be. -/
  maxIterations : Nat := 1000000
  /-- How deep blocks, brackets and ranges may be nested. -/
  maxNestingDepth : Nat := 64
deriving DecidableEq, Repr, Inhabited

namespace RenderOptions

open Json (Decoder Mismatch)

/-- The limits given so far. -/
structure Draft where
  maxIterations? : Option Nat := none
  maxNestingDepth? : Option Nat := none

/-- The limits, with the standard value of what is not given. -/
def Draft.complete (draft : Draft) : RenderOptions :=
  let standard : RenderOptions := {}
  ⟨draft.maxIterations?.getD standard.maxIterations,
    draft.maxNestingDepth?.getD standard.maxNestingDepth⟩

/-- The value of a field. A limit may be given only once. -/
def field (draft : Draft) (name : String) : Except Mismatch (Decoder Draft) :=
  if name = "maxIterations" then
    if draft.maxIterations?.isSome then .error (.repeatedField name)
    else .ok do
      let limit ← Decoder.count
      pure { draft with maxIterations? := some limit }
  else if name = "maxNestingDepth" then
    if draft.maxNestingDepth?.isSome then .error (.repeatedField name)
    else .ok do
      let limit ← Decoder.count
      pure { draft with maxNestingDepth? := some limit }
  else .ok do
    Json.Skip.value
    pure draft

/-- The limits in an array, from its opening bracket on. -/
def array : Decoder Draft := do
  Json.Reader.skip
  if ← Json.startsList then
    let maxIterations ← Decoder.count
    if ← Json.continuesList then
      let maxNestingDepth ← Decoder.count
      Decoder.listEnd
      pure ⟨some maxIterations, some maxNestingDepth⟩
    else pure ⟨some maxIterations, none⟩
  else pure {}

/-- The limits that come next in the input. -/
def decoder : Decoder RenderOptions := do
  match ← Decoder.shape with
  | .sequence => do
    let draft ← array
    pure draft.complete
  | .map => do
    let draft ← Decoder.object field {}
    pure draft.complete
  | shape => Decoder.reject (.wrongType shape "struct RenderOptions")

/-- The limits that a JSON text gives. -/
def ofJson (text : String) : Except Json.Rejection RenderOptions := decoder.run text

end RenderOptions

end TextTemplate
