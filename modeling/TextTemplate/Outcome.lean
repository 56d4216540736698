import TextTemplate.Template
/-! # Outcomes

What a host is told about a render: the output, or the kind of failure with its message and the
line and column it points at. An outcome is handed over as JSON text.
-/

namespace TextTemplate

/-- The report on a render. -/
inductive RenderOutcome where
  | success (output : String)
  | failure (kind : ErrorKind) (message : String) (place? : Option (Nat × Nat))
deriving DecidableEq, Repr

namespace RenderOutcome

/-- The report on a result. -/
def ofResult : Except TemplateError String → RenderOutcome
  | .ok output => .success output
  | .error error =>
    .failure error.kind error.message
      (error.position?.map fun position => (position.line, position.column))

/-- Whether the render succeeded. -/
def isSuccess : RenderOutcome → Bool
  | .success _ => true
  | .failure _ _ _ => false

/-- The output, if the render succeeded. -/
def output? : RenderOutcome → Option String
  | .success output => some output
  | .failure _ _ _ => none

/-- A place in a text as a value. -/
def ofPlace? : Option (Nat × Nat) → Value
  | none => .null
  | some (line, column) => .array [Value.ofNat line, Value.ofNat column]

/-- An outcome as a value. Its first field tells which of the two it is. -/
def toValue : RenderOutcome → Value
  | .success output => .object [("status", .string "success"), ("output", .string output)]
  | .failure kind message place? =>
    .object
      [("status", .string "failure"), ("kind", .string kind.name), ("message", .string message),
       ("position", ofPlace? place?)]

/-- The compact JSON text of an outcome. -/
def toJson (outcome : RenderOutcome) : String := outcome.toValue.toJson

end RenderOutcome

/-- The report on rendering a template source for a document text. -/
def renderDocument (document source : String) (options : RenderOptions) : RenderOutcome :=
  .ofResult (renderText document source options)

end TextTemplate
