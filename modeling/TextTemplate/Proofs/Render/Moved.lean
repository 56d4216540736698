import TextTemplate.Proofs.Node.Moved
import TextTemplate.Proofs.Render.Locality
/-! # Rendering nodes in another place

Rendering reads the places of nodes for its errors only. So nodes in another place are rendered
alike, and an error points at the place to which its own has been moved.
-/

namespace TextTemplate

/-- The same end of a render, with the place of its error moved. -/
def Stopped.moved (f : Position → Position) (stopped : Stopped) : Stopped :=
  ⟨stopped.error.moved f, stopped.state⟩

/-- An error that moves at the end of a part moves at the end of the whole. -/
theorem mapError_bind {ε α β : Type} (m : ε → ε) (result : Except ε α) {g g' : α → Except ε β}
    (hg : ∀ value, g' value = (g value).mapError m) :
    result.mapError m >>= g' = (result >>= g).mapError m := by
  cases result with
  | error error => rfl
  | ok value => exact hg value

namespace Context

variable (f : Position → Position) (context : Context)

theorem range_moved (first last : Value) (position : Position) :
    context.range first last (f position) =
      (context.range first last position).mapError (TemplateError.moved f) := by
  unfold range
  dsimp only
  split
  · rfl
  split <;> rfl

/-- A filter has no place, so its errors are not moved. -/
theorem filterValue_moved (filter : Filter) (input : Value) (args : List Value) :
    filterValue filter input args =
      (filterValue filter input args).mapError (TemplateError.moved f) := by
  unfold filterValue
  split <;> rfl

mutual

/-- An expression has the same value in another place, and its errors are moved. -/
theorem evaluate_moved : ∀ expr : Expr,
    context.evaluate (expr.moved f) =
      (context.evaluate expr).mapError (TemplateError.moved f)
  | .literal value => rfl
  | .path [] => rfl
  | .path (.field name :: steps) => by
      rw [Expr.moved, movedSteps, evaluate, evaluate]
      split
      · rfl
      · exact follow_moved _ steps
  | .path (.index i :: steps) => rfl
  | .path (.lookup key :: steps) => rfl
  | .filtered base calls => by
      rw [Expr.moved, evaluate, evaluate, evaluate_moved base]
      exact mapError_bind _ _ fun value => applyCalls_moved value calls
  | .binary op left right => by
      have hright : ∀ g : Value → Bool,
          (do
            let value ← context.evaluate (right.moved f)
            pure (Value.bool (g value))) =
          Except.mapError (TemplateError.moved f) (do
            let value ← context.evaluate right
            pure (Value.bool (g value))) := by
        intro g
        rw [evaluate_moved right]
        exact mapError_bind _ _ fun value => rfl
      rw [Expr.moved, evaluate, evaluate, evaluate_moved left]
      apply mapError_bind
      intro value
      split
      · split
        · exact hright Value.isTruthy
        · rfl
      · split
        · rfl
        · exact hright Value.isTruthy
      · exact hright _
  | .not operand => by
      rw [Expr.moved, evaluate, evaluate, evaluate_moved operand]
      exact mapError_bind _ _ fun value => rfl
  | .range first last position => by
      rw [Expr.moved, evaluate, evaluate, evaluate_moved first, evaluate_moved last]
      apply mapError_bind
      intro lower
      apply mapError_bind
      intro upper
      exact range_moved f context lower upper position

/-- A moved path leads to the same value, and fails alike in its new place. -/
theorem follow_moved : ∀ (value : Value) (steps : List Segment),
    context.follow value (movedSteps f steps) =
      (context.follow value steps).mapError (TemplateError.moved f)
  | value, [] => rfl
  | value, .field name :: rest => by
      rw [movedSteps, follow, follow]
      split
      · rfl
      · exact follow_moved _ rest
  | value, .index i :: rest => by
      rw [movedSteps, follow, follow]
      split
      · rfl
      · exact follow_moved _ rest
  | value, .lookup key :: rest => by
      rw [movedSteps, follow, follow, evaluate_moved key]
      apply mapError_bind
      intro step
      split
      · rfl
      · exact follow_moved _ rest

/-- Moved filters give the same value, and fail alike in their new places. -/
theorem applyCalls_moved : ∀ (value : Value) (calls : List FilterCall),
    context.applyCalls value (movedCalls f calls) =
      (context.applyCalls value calls).mapError (TemplateError.moved f)
  | value, [] => rfl
  | value, ⟨name, args, position⟩ :: rest => by
      rw [movedCalls, applyCalls, applyCalls]
      split
      · rfl
      · rw [evaluateAll_moved args]
        apply mapError_bind
        intro values
        conv =>
          lhs
          rw [filterValue_moved f]
        exact mapError_bind _ _ fun result => applyCalls_moved result rest

theorem evaluateAll_moved : ∀ exprs : List Expr,
    context.evaluateAll (movedArgs f exprs) =
      (context.evaluateAll exprs).mapError (TemplateError.moved f)
  | [] => rfl
  | expr :: rest => by
      rw [movedArgs, evaluateAll, evaluateAll, evaluate_moved expr, evaluateAll_moved rest]
      apply mapError_bind
      intro value
      exact mapError_bind _ _ fun values => rfl

end

end Context

namespace Render

/-- Of two parts of a render, the second does as the first, but its error is moved. -/
def MovesWith (f : Position → Position) (part part' : RenderState → Except Stopped RenderState) :
    Prop :=
  ∀ state, part' state = (part state).mapError (Stopped.moved f)

section Rules

variable {f : Position → Position}
  {part part' other other' body body' : RenderState → Except Stopped RenderState}

theorem movesWith_ok (g : RenderState → RenderState) :
    MovesWith f (fun state => .ok (g state)) fun state => .ok (g state) :=
  fun _ => rfl

/-- Parts that move one by one move one after the other. -/
theorem MovesWith.bind (h : MovesWith f part part') (hother : MovesWith f other other') :
    MovesWith f (fun state => part state >>= other) fun state => part' state >>= other' := by
  intro state
  dsimp only
  rw [h state]
  exact mapError_bind _ _ hother

/-- What is evaluated fails at a moved place, or hands on the same value. -/
theorem MovesWith.evaluated {α : Type} {result result' : RenderState → Except TemplateError α}
    {part part' : α → RenderState → Except Stopped RenderState}
    (h : ∀ state, result' state = (result state).mapError (TemplateError.moved f))
    (hpart : ∀ value, MovesWith f (part value) (part' value)) :
    MovesWith f (fun state => state.stop (result state) >>= fun value => part value state)
      fun state => state.stop (result' state) >>= fun value => part' value state := by
  intro state
  dsimp only
  rw [h state]
  cases result state with
  | error error => rfl
  | ok value => exact hpart value state

/-- A loop that exceeds the limit says so in its new place. -/
theorem movesWith_counted (limit : Nat) (position : Position) :
    MovesWith f (counted limit position) (counted limit (f position)) := by
  intro state
  unfold counted
  dsimp only
  split <;> rfl

/-- Where a render ends has nothing to do with the place of its error. -/
theorem mapError_endedAs (change : RenderState → RenderState)
    (result : Except Stopped RenderState) :
    endedAs change (result.mapError (Stopped.moved f)) =
      (endedAs change result).mapError (Stopped.moved f) := by
  cases result <;> rfl

theorem MovesWith.inFrame (h : MovesWith f body body') (name : String) (item info : Value) :
    MovesWith f (inFrame body name item info) (inFrame body' name item info) := by
  intro state
  rw [inFrame_eq, inFrame_eq, h, mapError_endedAs]

/-- Rounds of a moved body move. -/
theorem MovesWith.rounds (h : MovesWith f body body') (limit : Nat) (position : Position)
    (name : String) (length : Nat) (items : List Value) (index : Nat) :
    MovesWith f (rounds limit position name length body index items)
      (rounds limit (f position) name length body' index items) := by
  induction items generalizing index with
  | nil => exact movesWith_ok id
  | cons item rest ih =>
      intro state
      rw [rounds_cons, rounds_cons]
      have hround := (h.inFrame name item (loopInfo index length)).bind (ih (index + 1))
      exact (movesWith_counted limit position).bind hround state

theorem MovesWith.captured (h : MovesWith f body body') (name : String) :
    MovesWith f (captured body name) (captured body' name) := by
  intro state
  unfold Render.captured
  rw [h]
  cases body { state with output := "" } <;> rfl

/-- A choice moves with its condition and its sides. -/
theorem MovesWith.ifHolds (h : MovesWith f part part') (hother : MovesWith f other other')
    (limit : Nat) (condition : Expr) :
    MovesWith f
      (fun state => do
        if ← state.stop ((state.context limit).holds condition) then part state else other state)
      (fun state => do
        if ← state.stop ((state.context limit).holds (condition.moved f)) then part' state
        else other' state) := by
  have hholds : ∀ state : RenderState, (state.context limit).holds (condition.moved f) =
      ((state.context limit).holds condition).mapError (TemplateError.moved f) := by
    intro state
    rw [Context.holds, Context.evaluate_moved]
    exact mapError_bind _ _ fun value => rfl
  have hparts : ∀ holds : Bool, MovesWith f
      (fun state => if holds then part state else other state)
      fun state => if holds then part' state else other' state := by
    intro holds
    cases holds with
    | true => exact h
    | false => exact hother
  exact .evaluated hholds hparts

end Rules

variable (f : Position → Position) (limit : Nat)

theorem count?_moved (context : Context) (expr? : Option Expr) :
    count? context (expr?.map (Expr.moved f)) =
      (count? context expr?).mapError (TemplateError.moved f) := by
  cases expr? with
  | none => rfl
  | some expr =>
      rw [Option.map_some, count?, count?, Context.evaluate_moved]
      exact mapError_bind _ _ fun value => rfl

/-- A loop runs over the same elements from its new place. -/
theorem loopItems_moved (context : Context) (header : LoopHeader) :
    loopItems context (header.moved f) =
      (loopItems context header).mapError (TemplateError.moved f) := by
  rw [loopItems, loopItems, LoopHeader.moved, Context.evaluate_moved, count?_moved, count?_moved]
  apply mapError_bind
  intro value
  apply mapError_bind
  intro offset?
  exact mapError_bind _ _ fun limit? => rfl

mutual

/-- A node in another place is rendered alike. -/
theorem movesWith_node : ∀ first : Node,
    MovesWith f (node limit first) (node limit (first.moved f))
  | .text content => fun _ => rfl
  | .output expr position =>
      .evaluated (fun state => Context.evaluate_moved f (state.context limit) expr)
        fun value => movesWith_ok fun state => state.write value.toText
  | .assign name expr position =>
      .evaluated (fun state => Context.evaluate_moved f (state.context limit) expr)
        fun value => movesWith_ok fun state => state.bind name value
  | .loop header body otherwise => by
      have hitems : ∀ items : List Value, MovesWith f
          (fun state =>
            if items.isEmpty then nodes limit otherwise state
            else
              rounds limit header.position header.name items.length
                (fun state => nodes limit body state) 0 items state)
          fun state =>
            if items.isEmpty then nodes limit (movedNodes f otherwise) state
            else
              rounds limit (f header.position) header.name items.length
                (fun state => nodes limit (movedNodes f body) state) 0 items state := by
        intro items
        cases items with
        | nil => exact movesWith_nodes otherwise
        | cons item rest =>
            exact (movesWith_nodes body).rounds limit header.position header.name
              (item :: rest).length (item :: rest) 0
      exact .evaluated (fun state => loopItems_moved f (state.context limit) header) hitems
  | .branch condition body arms otherwise position => by
      have hrest := movesWith_firstArm arms (movesWith_nodes otherwise)
      exact (movesWith_nodes body).ifHolds hrest limit condition
  | .capture name body position => (movesWith_nodes body).captured name

/-- Moved nodes render the same, and fail alike in their new places. -/
theorem movesWith_nodes : ∀ all : List Node,
    MovesWith f (nodes limit all) (nodes limit (movedNodes f all))
  | [] => movesWith_ok id
  | first :: rest => (movesWith_node first).bind (movesWith_nodes rest)

theorem movesWith_firstArm : ∀ (arms : List Arm)
    {otherwise otherwise' : RenderState → Except Stopped RenderState},
    MovesWith f otherwise otherwise' →
    MovesWith f (firstArm limit arms otherwise) (firstArm limit (movedArms f arms) otherwise')
  | [], _, _, h => h
  | ⟨condition, body, _⟩ :: rest, _, _, h =>
      (movesWith_nodes body).ifHolds (movesWith_firstArm rest h) limit condition

end

end Render

/-- Nodes in another place have the same result but for the place of an error. -/
theorem Renderer.render_moved (renderer : Renderer) (f : Position → Position) (nodes : List Node)
    (root : Value) :
    renderer.render (movedNodes f nodes) root =
      ((renderer.render nodes root).1.mapError (TemplateError.moved f),
        (renderer.render nodes root).2) := by
  rw [render_eq, render_eq, Render.movesWith_nodes f renderer.options.maxIterations nodes]
  cases Render.nodes renderer.options.maxIterations nodes (.ofDocument root) <;> rfl

end TextTemplate
