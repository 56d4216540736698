import TextTemplate.Proofs.Render.Locality
/-! # A greater limit

The limit is looked at in two places only, before a round of a loop and before a range is made, and
only to end the render there. So two renders that differ in their limits go the same way step by
step until the smaller limit is exceeded, and if that does not happen they end alike.
-/

namespace TextTemplate

/-- The second result is the first, unless that is an error with a property. -/
inductive SameUnless {ε α : Type} (P : ε → Prop) : Except ε α → Except ε α → Prop
  | same {result : Except ε α} : SameUnless P result result
  | excused {error : ε} {second : Except ε α} (h : P error) : SameUnless P (.error error) second

/-- What is the same but for exceeding the limit stays so with more behind it. -/
theorem SameUnless.bind {ε α β : Type} {P : ε → Prop} {first second : Except ε α}
    {f g : α → Except ε β} (h : SameUnless P first second)
    (hf : ∀ value, SameUnless P (f value) (g value)) :
    SameUnless P (first >>= f) (second >>= g) := by
  cases h with
  | excused h => exact .excused h
  | same =>
      cases first with
      | error error => exact .same
      | ok value => exact hf value

/-- The error is that a limit is exceeded. -/
def TemplateError.IsExceeded (error : TemplateError) : Prop :=
  ∃ limit position, error = .iterationLimitExceeded limit position

/-- The render has ended because a limit is exceeded. -/
def Stopped.IsExceeded (stopped : Stopped) : Prop := stopped.error.IsExceeded

section Evaluation

variable {limit limit' : Nat} (scope : Scope)

namespace Context

/-- A range that is within the smaller limit is the same under the greater one. -/
theorem sameUnless_range (hle : limit ≤ limit') (first last : Value) (position : Position) :
    SameUnless TemplateError.IsExceeded (range ⟨scope, limit⟩ first last position)
      (range ⟨scope, limit'⟩ first last position) := by
  unfold range
  dsimp only
  split
  · exact .same
  split
  · exact .excused ⟨limit, position, rfl⟩
  · rw [if_neg (by omega)]
    exact .same

mutual

/-- With a greater limit an expression has the same value, unless the smaller one is exceeded. -/
theorem sameUnless_evaluate (hle : limit ≤ limit') : ∀ expr : Expr,
    SameUnless TemplateError.IsExceeded (evaluate ⟨scope, limit⟩ expr)
      (evaluate ⟨scope, limit'⟩ expr)
  | .literal value => .same
  | .path [] => .same
  | .path (.field name :: steps) => by
      rw [evaluate, evaluate]
      cases scope.get? name with
      | none => exact .same
      | some value => exact sameUnless_follow hle value steps
  | .path (.index i :: steps) => .same
  | .path (.lookup key :: steps) => .same
  | .filtered base calls => by
      rw [evaluate, evaluate]
      apply (sameUnless_evaluate hle base).bind
      intro value
      exact sameUnless_applyCalls hle value calls
  | .binary op left right => by
      have hright : ∀ f : Value → Bool, SameUnless TemplateError.IsExceeded
          (do
            let value ← evaluate ⟨scope, limit⟩ right
            pure (Value.bool (f value)))
          (do
            let value ← evaluate ⟨scope, limit'⟩ right
            pure (Value.bool (f value))) :=
        fun f => (sameUnless_evaluate hle right).bind fun _ => .same
      rw [evaluate, evaluate]
      apply (sameUnless_evaluate hle left).bind
      intro value
      -- Both runs have the value of the first operand, so both leave the second alone, or neither.
      split
      · split
        · exact hright Value.isTruthy
        · exact .same
      · split
        · exact .same
        · exact hright Value.isTruthy
      · exact hright _
  | .not operand => by
      rw [evaluate, evaluate]
      exact (sameUnless_evaluate hle operand).bind fun _ => .same
  | .range first last position => by
      rw [evaluate, evaluate]
      apply (sameUnless_evaluate hle first).bind
      intro lower
      apply (sameUnless_evaluate hle last).bind
      intro upper
      exact sameUnless_range scope hle lower upper position

/-- A path leads to the same value under a greater limit, unless the smaller one is exceeded in a
lookup. -/
theorem sameUnless_follow (hle : limit ≤ limit') : ∀ (value : Value) (steps : List Segment),
    SameUnless TemplateError.IsExceeded (follow ⟨scope, limit⟩ value steps)
      (follow ⟨scope, limit'⟩ value steps)
  | value, [] => .same
  | value, .field name :: rest => by
      rw [follow, follow]
      split
      · exact .same
      · exact sameUnless_follow hle _ rest
  | value, .index i :: rest => by
      rw [follow, follow]
      split
      · exact .same
      · exact sameUnless_follow hle _ rest
  | value, .lookup key :: rest => by
      rw [follow, follow]
      apply (sameUnless_evaluate hle key).bind
      intro step
      split
      · exact .same
      · exact sameUnless_follow hle _ rest

/-- Filters give the same value under a greater limit, unless an argument exceeds the smaller
one. -/
theorem sameUnless_applyCalls (hle : limit ≤ limit') : ∀ (value : Value) (calls : List FilterCall),
    SameUnless TemplateError.IsExceeded (applyCalls ⟨scope, limit⟩ value calls)
      (applyCalls ⟨scope, limit'⟩ value calls)
  | value, [] => .same
  | value, ⟨name, args, position⟩ :: rest => by
      rw [applyCalls, applyCalls]
      split
      · exact .same
      · apply (sameUnless_evaluateAll hle args).bind
        intro values
        exact SameUnless.same.bind fun result => sameUnless_applyCalls hle result rest

theorem sameUnless_evaluateAll (hle : limit ≤ limit') : ∀ exprs : List Expr,
    SameUnless TemplateError.IsExceeded (evaluateAll ⟨scope, limit⟩ exprs)
      (evaluateAll ⟨scope, limit'⟩ exprs)
  | [] => .same
  | expr :: rest => by
      rw [evaluateAll, evaluateAll]
      apply (sameUnless_evaluate hle expr).bind
      intro value
      exact (sameUnless_evaluateAll hle rest).bind fun _ => .same

end

end Context

end Evaluation

namespace Render

/-- The second part of a render ends as the first does, unless that exceeds its limit. -/
def EndsAlike (f g : RenderState → Except Stopped RenderState) : Prop :=
  ∀ state, SameUnless Stopped.IsExceeded (f state) (g state)

section Rules

variable {limit limit' : Nat} {f f' g g' body body' : RenderState → Except Stopped RenderState}

/-- An error of an expression stops both renders in the same state. -/
theorem sameUnless_stop {α : Type} {first second : Except TemplateError α}
    (h : SameUnless TemplateError.IsExceeded first second) (state : RenderState) :
    SameUnless Stopped.IsExceeded (state.stop first) (state.stop second) := by
  cases h with
  | same => exact .same
  | excused h => exact .excused h

theorem SameUnless.endedAs {first second : Except Stopped RenderState}
    (h : SameUnless Stopped.IsExceeded first second) (change : RenderState → RenderState) :
    SameUnless Stopped.IsExceeded (endedAs change first) (endedAs change second) := by
  cases h with
  | same => exact .same
  | excused h => exact .excused h

theorem EndsAlike.bind (hf : EndsAlike f f') (hg : EndsAlike g g') :
    EndsAlike (fun state => f state >>= g) fun state => f' state >>= g' :=
  fun state => (hf state).bind hg

theorem sameUnless_count? (hle : limit ≤ limit') (scope : Scope) (expr? : Option Expr) :
    SameUnless TemplateError.IsExceeded (count? ⟨scope, limit⟩ expr?)
      (count? ⟨scope, limit'⟩ expr?) := by
  cases expr? with
  | none => exact .same
  | some expr => exact (Context.sameUnless_evaluate scope hle expr).bind fun _ => .same

/-- A loop runs over the same elements under a greater limit, unless its header exceeds the smaller
one. -/
theorem sameUnless_loopItems (hle : limit ≤ limit') (scope : Scope) (header : LoopHeader) :
    SameUnless TemplateError.IsExceeded (loopItems ⟨scope, limit⟩ header)
      (loopItems ⟨scope, limit'⟩ header) := by
  apply (Context.sameUnless_evaluate scope hle header.iterable).bind
  intro value
  apply (sameUnless_count? hle scope header.offset?).bind
  intro offset?
  exact (sameUnless_count? hle scope header.limit?).bind fun _ => .same

/-- A round that the smaller limit allows, the greater one allows. -/
theorem endsAlike_counted (hle : limit ≤ limit') (position : Position) :
    EndsAlike (counted limit position) (counted limit' position) := by
  intro state
  by_cases hlimit : state.iterations + 1 ≤ limit
  · rw [counted_of_le hlimit, counted_of_le (Nat.le_trans hlimit hle)]
    exact .same
  · rw [counted_of_lt (Nat.lt_of_not_le hlimit)]
    exact .excused ⟨limit, position, rfl⟩

/-- The frame of a round is the same under both limits. -/
theorem EndsAlike.inFrame (h : EndsAlike body body') (name : String) (item info : Value) :
    EndsAlike (inFrame body name item info) (inFrame body' name item info) := by
  intro state
  rw [inFrame_eq, inFrame_eq]
  exact SameUnless.endedAs (h _) leave

/-- Rounds go on under the greater limit where the smaller one stops them, and are the same up to
there. -/
theorem EndsAlike.rounds (hle : limit ≤ limit') (h : EndsAlike body body') (position : Position)
    (name : String) (length index : Nat) (items : List Value) :
    EndsAlike (rounds limit position name length body index items)
      (rounds limit' position name length body' index items) := by
  induction items generalizing index with
  | nil => exact fun state => .same
  | cons item rest ih =>
      intro state
      rw [rounds_cons, rounds_cons]
      have hround := (h.inFrame name item (loopInfo index length)).bind (ih (index + 1))
      exact (endsAlike_counted hle position state).bind hround

/-- A captured body ends alike under both limits if the body does. -/
theorem EndsAlike.captured (h : EndsAlike body body') (name : String) :
    EndsAlike (captured body name) (captured body' name) := by
  intro state
  have hbody := h { state with output := "" }
  unfold Render.captured
  generalize body { state with output := "" } = first,
    body' { state with output := "" } = second at hbody ⊢
  cases hbody with
  | same => exact .same
  | excused h => exact .excused h

/-- A choice ends alike under both limits if both of its sides do. -/
theorem EndsAlike.ifHolds (hle : limit ≤ limit') (hf : EndsAlike f f') (hg : EndsAlike g g')
    (condition : Expr) :
    EndsAlike
      (fun state => do
        if ← state.stop ((state.context limit).holds condition) then f state else g state)
      (fun state => do
        if ← state.stop ((state.context limit').holds condition) then f' state else g' state) := by
  intro state
  have hholds : SameUnless TemplateError.IsExceeded ((state.context limit).holds condition)
      ((state.context limit').holds condition) :=
    (Context.sameUnless_evaluate state.scope hle condition).bind fun _ => .same
  apply (sameUnless_stop hholds state).bind
  intro holds
  cases holds with
  | true => exact hf state
  | false => exact hg state

end Rules

variable {limit limit' : Nat}

mutual

/-- With a greater limit a node ends alike, unless the smaller one is exceeded. -/
theorem endsAlike_node (hle : limit ≤ limit') :
    ∀ first : Node, EndsAlike (node limit first) (node limit' first)
  | .text content => fun state => .same
  | .output expr position => by
      intro state
      have hvalue := sameUnless_stop (Context.sameUnless_evaluate state.scope hle expr) state
      exact hvalue.bind fun _ => .same
  | .assign name expr position => by
      intro state
      have hvalue := sameUnless_stop (Context.sameUnless_evaluate state.scope hle expr) state
      exact hvalue.bind fun _ => .same
  | .loop header body otherwise => by
      intro state
      apply (sameUnless_stop (sameUnless_loopItems hle state.scope header) state).bind
      intro items
      cases items with
      | nil => exact endsAlike_nodes hle otherwise state
      | cons item rest =>
          exact (endsAlike_nodes hle body).rounds hle header.position header.name
            (item :: rest).length 0 (item :: rest) state
  | .branch condition body arms otherwise position => by
      have hrest := endsAlike_firstArm hle arms (endsAlike_nodes hle otherwise)
      exact (endsAlike_nodes hle body).ifHolds hle hrest condition
  | .capture name body position => (endsAlike_nodes hle body).captured name

/-- Nodes end alike under both limits, one after the other. -/
theorem endsAlike_nodes (hle : limit ≤ limit') :
    ∀ all : List Node, EndsAlike (nodes limit all) (nodes limit' all)
  | [] => fun _ => .same
  | first :: rest => (endsAlike_node hle first).bind (endsAlike_nodes hle rest)

theorem endsAlike_firstArm (hle : limit ≤ limit') : ∀ (arms : List Arm)
    {otherwise otherwise' : RenderState → Except Stopped RenderState},
    EndsAlike otherwise otherwise' →
    EndsAlike (firstArm limit arms otherwise) (firstArm limit' arms otherwise')
  | [], _, _, h => h
  | ⟨condition, body, _⟩ :: rest, _, _, h =>
      (endsAlike_nodes hle body).ifHolds hle (endsAlike_firstArm hle rest h) condition

end

end Render

/-- Unless a render exceeds its limit, a greater one changes neither its result nor its count. -/
theorem render_of_limit_le {small large : Renderer}
    (hle : small.options.maxIterations ≤ large.options.maxIterations) (nodes : List Node)
    (root : Value)
    (hother : ∀ limit position,
      (small.render nodes root).1 ≠ .error (.iterationLimitExceeded limit position)) :
    (large.render nodes root).1 = (small.render nodes root).1 ∧
      (large.render nodes root).2.iterations = (small.render nodes root).2.iterations := by
  have halike := Render.endsAlike_nodes hle nodes (.ofDocument root)
  rw [small.render_eq] at hother
  rw [small.render_eq, large.render_eq]
  dsimp only at hother ⊢
  generalize Render.nodes small.options.maxIterations nodes (.ofDocument root) = first,
    Render.nodes large.options.maxIterations nodes (.ofDocument root) = second at halike hother ⊢
  cases halike with
  | same => exact ⟨rfl, rfl⟩
  | @excused stopped second h =>
      obtain ⟨limit, position, hexceeded⟩ := h
      exact absurd (congrArg Except.error hexceeded) (hother limit position)

/-- A range and a loop that just stay within the limit, and a filter that does not exist. -/
theorem render_range_unknown :
    let nodes : List Node :=
      [.loop
        ⟨"x", .range (.literal (.string "1")) (.path [.field "n"]) ⟨1, 10, 9⟩, false, none, none,
          ⟨1, 1, 0⟩⟩
        [.output (.path [.field "x"]) ⟨1, 20, 19⟩] [],
        .output (.filtered (.path [.field "n"]) [⟨"nope", [], ⟨1, 40, 39⟩⟩]) ⟨1, 35, 34⟩]
    let root : Value := .object [("n", Value.ofInt 3)]
    let small := Renderer.ofOptions { maxIterations := 3 }
    let large : Renderer := ⟨{ maxIterations := 1000 }, 7⟩
    (small.render nodes root).1 = .error (.unknownFilter "nope" ⟨1, 40, 39⟩) ∧
      (large.render nodes root).1 = (small.render nodes root).1 ∧
      (large.render nodes root).2.iterations = (small.render nodes root).2.iterations := by
  intro nodes root small large
  have hsmall : (small.render nodes root).1 = .error (.unknownFilter "nope" ⟨1, 40, 39⟩) := rfl
  have hother : ∀ limit position,
      (small.render nodes root).1 ≠ .error (.iterationLimitExceeded limit position) := by
    intro limit position
    rw [hsmall]
    nofun
  exact ⟨hsmall, render_of_limit_le (by decide : (3 : Nat) ≤ 1000) nodes root hother⟩

end TextTemplate
