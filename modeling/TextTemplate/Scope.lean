import TextTemplate.Value.Basic
/-! # Variables

A scope is a stack of frames over a document. A name means what the innermost frame that binds it
says; then `model` means the whole document, and any other name the member of the document under
that name. There is always at least one frame.
-/

namespace TextTemplate

/-- The bindings of one frame, the latest first. -/
abbrev Frame := List (String × Value)

/-- A stack of frames over a document, the innermost apart. -/
structure Scope where
  root : Value
  inner : Frame
  outer : List Frame
deriving DecidableEq, Repr, Inhabited

namespace Scope

/-- The name of the whole document. -/
def modelName : String := "model"

/-- A document with a single frame that binds nothing. -/
def ofDocument (root : Value) : Scope := ⟨root, [], []⟩

/-- The latest binding of a name in the innermost frame that has one. -/
def binding? (name : String) : List Frame → Option Value
  | [] => none
  | frame :: rest =>
    match frame.lookup name with
    | some value => some value
    | none => binding? name rest

/-- What a name means where no frame binds it. -/
def fromDocument? (root : Value) (name : String) : Option Value :=
  if name = modelName then some root
  else
    match root with
    | .object members => Value.member? name members
    | _ => none

/-- What a name means. -/
def get? (scope : Scope) (name : String) : Option Value :=
  match binding? name (scope.inner :: scope.outer) with
  | some value => some value
  | none => fromDocument? scope.root name

/-- Bind a name in the innermost frame. -/
def set (scope : Scope) (name : String) (value : Value) : Scope :=
  { scope with inner := (name, value) :: scope.inner }

/-- Open a frame. -/
def push (scope : Scope) : Scope := { scope with inner := [], outer := scope.inner :: scope.outer }

/-- Close the innermost frame; the last one stays. -/
def pop (scope : Scope) : Scope :=
  match scope.outer with
  | [] => scope
  | frame :: rest => { scope with inner := frame, outer := rest }

/-- The number of frames. -/
def depth (scope : Scope) : Nat := scope.outer.length + 1

end Scope

end TextTemplate
