import TextTemplate.Eval
import TextTemplate.Options
/-! # Rendering

Rendering walks the nodes in order, adds to one output text, and counts the loop bodies it enters.
Each round of a loop has a frame of its own; branches and captures use the frame they stand in. An
error ends the render; it carries the state it was met in, with all frames that were opened closed
again.
-/

namespace TextTemplate

/-- A render in progress: the variables, the output so far, and the loop bodies entered so far. -/
structure RenderState where
  scope : Scope
  output : String
  iterations : Nat
deriving DecidableEq

/-- A render that has ended in an error. -/
structure Stopped where
  error : TemplateError
  state : RenderState
deriving DecidableEq

namespace RenderState

/-- The state at the start of a render. -/
def ofDocument (root : Value) : RenderState := ⟨Scope.ofDocument root, "", 0⟩

/-- The state with more output. -/
def write (state : RenderState) (text : String) : RenderState :=
  { state with output := state.output ++ text }

/-- The state with a variable bound. -/
def bind (state : RenderState) (name : String) (value : Value) : RenderState :=
  { state with scope := state.scope.set name value }

/-- What expressions are evaluated in. -/
def context (state : RenderState) (maxIterations : Nat) : Context := ⟨state.scope, maxIterations⟩

/-- An error met in this state. -/
def stop {α : Type} (state : RenderState) : Except TemplateError α → Except Stopped α
  | .ok value => .ok value
  | .error error => .error ⟨error, state⟩

end RenderState

namespace Render

/-- What a loop can run over: the elements of an array, or the members of an object as objects with
a `name` and a `value`. -/
def elements : Value → List Value
  | .array items => items
  | .object members =>
    members.map fun (name, value) => .object [("name", .string name), ("value", value)]
  | _ => []

/-- A loop parameter as a count: negative numbers and what is no number count as zero. -/
def count (value : Value) : Nat := (value.toInt64?.getD 0).toNat

/-- The value of a loop parameter as a count, if the parameter is given. -/
def count? (context : Context) : Option Expr → Except TemplateError (Option Nat)
  | none => .ok none
  | some expr => do
    let value ← context.evaluate expr
    pure (some (count value))

/-- The elements behind the first `offset?`, of these the first `limit?`, and these in reverse if
asked for. -/
def selected (reversed : Bool) (offset? limit? : Option Nat) (items : List Value) : List Value :=
  let behind := items.drop (offset?.getD 0)
  let kept :=
    match limit? with
    | some limit => behind.take limit
    | none => behind
  if reversed then kept.reverse else kept

/-- The elements that a loop runs over, in order. -/
def loopItems (context : Context) (header : LoopHeader) : Except TemplateError (List Value) := do
  let value ← context.evaluate header.iterable
  let offset? ← count? context header.offset?
  let limit? ← count? context header.limit?
  pure (selected header.reversed offset? limit? (elements value))

/-- What a loop tells its body about round `index` of `length`. -/
def loopInfo (index length : Nat) : Value :=
  .object
    [("index", Value.ofNat (index + 1)),
     ("index0", Value.ofNat index),
     ("rindex", Value.ofNat (length - index)),
     ("rindex0", Value.ofNat (length - index - 1)),
     ("first", .bool (index == 0)),
     ("last", .bool (index + 1 == length)),
     ("length", Value.ofNat length)]

/-- Run `body` in a frame of its own that binds the loop object and the loop variable. The frame is
closed again however the body ends. -/
def inFrame (body : RenderState → Except Stopped RenderState) (name : String) (item info : Value)
    (state : RenderState) : Except Stopped RenderState :=
  let entered : RenderState :=
    { state with scope := (state.scope.push.set "forloop" info).set name item }
  match body entered with
  | .ok left => .ok { left with scope := left.scope.pop }
  | .error ⟨error, left⟩ => .error ⟨error, { left with scope := left.scope.pop }⟩

/-- Run `body` for the elements from round `index` on. Each round counts against the limit before it
starts. -/
def rounds (maxIterations : Nat) (position : Position) (name : String) (length : Nat)
    (body : RenderState → Except Stopped RenderState) :
    Nat → List Value → RenderState → Except Stopped RenderState
  | _, [], state => .ok state
  | index, item :: rest, state => do
    let state := { state with iterations := state.iterations + 1 }
    if maxIterations < state.iterations then
      .error ⟨.iterationLimitExceeded maxIterations position, state⟩
    else
      let state ← inFrame body name item (loopInfo index length) state
      rounds maxIterations position name length body (index + 1) rest state

/-- Run `body` with an output of its own, and bind what it writes to a variable. -/
def captured (body : RenderState → Except Stopped RenderState) (name : String)
    (state : RenderState) : Except Stopped RenderState :=
  match body { state with output := "" } with
  | .ok left =>
    .ok ({ left with output := state.output }.bind name (.string left.output))
  | .error ⟨error, left⟩ => .error ⟨error, { left with output := state.output }⟩

mutual

/-- Render one node. -/
def node (maxIterations : Nat) : Node → RenderState → Except Stopped RenderState
  | .text content, state => .ok (state.write content)
  | .output expr _, state => do
    let value ← state.stop ((state.context maxIterations).evaluate expr)
    pure (state.write value.toText)
  | .loop header body otherwise, state => do
    let items ← state.stop (loopItems (state.context maxIterations) header)
    if items.isEmpty then nodes maxIterations otherwise state
    else
      rounds maxIterations header.position header.name items.length
        (fun state => nodes maxIterations body state) 0 items state
  | .branch condition body arms otherwise _, state => do
    if ← state.stop ((state.context maxIterations).holds condition) then
      nodes maxIterations body state
    else
      firstArm maxIterations arms (fun state => nodes maxIterations otherwise state) state
  | .assign name expr _, state => do
    let value ← state.stop ((state.context maxIterations).evaluate expr)
    pure (state.bind name value)
  | .capture name body _, state =>
    captured (fun state => nodes maxIterations body state) name state

/-- Render nodes in order. -/
def nodes (maxIterations : Nat) : List Node → RenderState → Except Stopped RenderState
  | [], state => .ok state
  | first :: rest, state => do
    let state ← node maxIterations first state
    nodes maxIterations rest state

/-- Render the first arm whose condition holds, or else what `otherwise` renders. -/
def firstArm (maxIterations : Nat) :
    List Arm → (RenderState → Except Stopped RenderState) → RenderState →
      Except Stopped RenderState
  | [], otherwise, state => otherwise state
  | ⟨condition, body, _⟩ :: rest, otherwise, state => do
    if ← state.stop ((state.context maxIterations).holds condition) then
      nodes maxIterations body state
    else firstArm maxIterations rest otherwise state

end

end Render

/-- A renderer: its limits, and the loop rounds that its last render counted. -/
structure Renderer where
  options : RenderOptions
  iterations : Nat
deriving Repr

namespace Renderer

/-- A renderer that has rendered nothing yet. -/
def ofOptions (options : RenderOptions) : Renderer := ⟨options, 0⟩

/-- The output of nodes for a document, and the renderer after that. The count starts anew with
each render. -/
def render (renderer : Renderer) (nodes : List Node) (root : Value) :
    Except TemplateError String × Renderer :=
  match Render.nodes renderer.options.maxIterations nodes (RenderState.ofDocument root) with
  | .ok state =>
    (.ok state.output, { renderer with iterations := state.iterations })
  | .error stopped =>
    (.error stopped.error, { renderer with iterations := stopped.state.iterations })

/-- Render documents one after the other; for each the result and the loop rounds counted. -/
def renderAll (renderer : Renderer) (nodes : List Node) :
    List Value → List (Except TemplateError String × Nat)
  | [] => []
  | root :: rest =>
    let (result, next) := renderer.render nodes root
    (result, next.iterations) :: next.renderAll nodes rest

end Renderer

end TextTemplate
