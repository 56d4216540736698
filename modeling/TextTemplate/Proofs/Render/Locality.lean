import TextTemplate.Render
/-! # What a render depends on

A render goes by the variables alone: it writes behind the output that is there, counts on from the
loop bodies counted so far, and binds names in the innermost frame. So it can be taken out of its
place and rendered on its own, as long as the limit is not reached. Every frame that it opens it
closes again, also where it ends in an error, and what the rounds of a loop bind goes with their
frames.
-/

namespace TextTemplate

namespace RenderState

/-- The state with a text in front of its output. -/
def behind (text : String) (state : RenderState) : RenderState :=
  { state with output := text ++ state.output }

/-- The state with loop bodies counted before its own. -/
def later (n : Nat) (state : RenderState) : RenderState :=
  { state with iterations := n + state.iterations }

/-- The state at the start of a render on its own. -/
def alone (scope : Scope) : RenderState := ⟨scope, "", 0⟩

/-- The state with what another has added on its own. -/
def followedBy (state added : RenderState) : RenderState :=
  ⟨added.scope, state.output ++ added.output, state.iterations + added.iterations⟩

end RenderState

/-- Only the innermost frame of the two scopes may differ. -/
structure Scope.SameAround (scope scope' : Scope) : Prop where
  root : scope'.root = scope.root
  outer : scope'.outer = scope.outer

theorem Scope.SameAround.trans {scope scope' scope'' : Scope} (h : scope.SameAround scope')
    (h' : scope'.SameAround scope'') : scope.SameAround scope'' :=
  ⟨h'.root.trans h.root, h'.outer.trans h.outer⟩

/-- Closing a frame undoes what was bound since it was opened. -/
theorem Scope.SameAround.pop {scope entered left : Scope} (h : entered.SameAround left)
    (hroot : entered.root = scope.root) (houter : entered.outer = scope.inner :: scope.outer) :
    left.pop = scope := by
  obtain ⟨root, inner, outer⟩ := scope
  simp only [Scope.pop, h.outer, houter, h.root, hroot]

theorem Scope.sameAround_refl (scope : Scope) : scope.SameAround scope := ⟨rfl, rfl⟩

@[simp]
theorem Value.toText_string (text : String) : (Value.string text).toText = text :=
  String.ofList_toList

/-- A path of one name leads to what the scope has under that name. -/
theorem Context.evaluate_field {context : Context} {name : String} {value : Value}
    (h : context.scope.get? name = some value) :
    context.evaluate (.path [.field name]) = .ok value := by
  simp only [evaluate, h]
  rfl

namespace Render

/-- The state in which a render ends, be it in an error. -/
def ended : Except Stopped RenderState → RenderState
  | .ok state => state
  | .error stopped => stopped.state

/-- What a render is reported as. -/
def reported : Except Stopped RenderState → Except TemplateError String
  | .ok state => .ok state.output
  | .error stopped => .error stopped.error

/-- The same end of a render in another state. -/
def endedAs (change : RenderState → RenderState) :
    Except Stopped RenderState → Except Stopped RenderState
  | .ok state => .ok (change state)
  | .error stopped => .error ⟨stopped.error, change stopped.state⟩

theorem ended_endedAs (change : RenderState → RenderState) (result : Except Stopped RenderState) :
    ended (endedAs change result) = change (ended result) := by
  cases result <;> rfl

/-- Changes of where a render ends can be made one after the other. -/
theorem endedAs_endedAs (change change' : RenderState → RenderState)
    (result : Except Stopped RenderState) :
    endedAs change (endedAs change' result) = endedAs (change ∘ change') result := by
  cases result <;> rfl

/-- What holds of the end of a part, and is kept by the next, holds of the end of both. -/
theorem ended_bind {P : RenderState → Prop} {result : Except Stopped RenderState}
    {rest : RenderState → Except Stopped RenderState} (h : P (ended result))
    (hrest : ∀ next, P next → P (ended (rest next))) : P (ended (result >>= rest)) := by
  cases result with
  | error stopped => exact h
  | ok next => exact hrest next h

/-- What a part of a render does, it does wherever it stands. -/
structure Local (limit : Nat) (f : RenderState → Except Stopped RenderState) : Prop where
  around : ∀ state : RenderState, state.scope.SameAround (ended (f state)).scope
  counts : ∀ state : RenderState, state.iterations ≤ (ended (f state)).iterations
  behind : ∀ (text : String) (state : RenderState),
    f (state.behind text) = endedAs (RenderState.behind text) (f state)
  later : ∀ (n : Nat) (state : RenderState), n + (ended (f state)).iterations ≤ limit →
    f (state.later n) = endedAs (RenderState.later n) (f state)

section Rules

variable {limit : Nat} {f g body : RenderState → Except Stopped RenderState}

/-- What is rendered in some state is rendered on its own and added, as long as the count of loop
bodies stays within the limit. -/
theorem Local.eq_alone (h : Local limit f) (state : RenderState)
    (hcount : state.iterations + (ended (f (.alone state.scope))).iterations ≤ limit) :
    f state = endedAs state.followedBy (f (.alone state.scope)) := by
  have hstate : state = ((RenderState.alone state.scope).behind state.output).later
      state.iterations := by
    simp only [RenderState.alone, RenderState.behind, RenderState.later, String.append_empty,
      Nat.add_zero]
  have hbehind := h.behind state.output (.alone state.scope)
  have hlater := h.later state.iterations ((RenderState.alone state.scope).behind state.output)
  rw [hbehind, ended_endedAs, ← hstate] at hlater
  rw [hlater hcount, endedAs_endedAs]
  rfl

/-- Text is written behind the output so far, whatever it is. -/
theorem local_write (text : String) : Local limit fun state => .ok (state.write text) where
  around state := Scope.sameAround_refl state.scope
  counts _ := Nat.le_refl _
  behind front state := by
    simp only [endedAs, RenderState.write, RenderState.behind, String.append_assoc]
  later _ _ _ := rfl

/-- A name is bound in the innermost frame. -/
theorem local_bind (name : String) (value : Value) :
    Local limit fun state => .ok (state.bind name value) where
  around _ := ⟨rfl, rfl⟩
  counts _ := Nat.le_refl _
  behind _ _ := rfl
  later _ _ _ := rfl

theorem local_ok : Local limit fun state => .ok state where
  around state := Scope.sameAround_refl state.scope
  counts _ := Nat.le_refl _
  behind _ _ := rfl
  later _ _ _ := rfl

/-- One local part after the other is local. -/
theorem Local.bind (hf : Local limit f) (hg : Local limit g) :
    Local limit fun state => f state >>= g where
  around state := by
    apply ended_bind (P := fun left => state.scope.SameAround left.scope) (hf.around state)
    intro next hnext
    exact hnext.trans (hg.around next)
  counts state := by
    apply ended_bind (P := fun left => state.iterations ≤ left.iterations) (hf.counts state)
    intro next hnext
    exact Nat.le_trans hnext (hg.counts next)
  behind text state := by
    rw [hf.behind]
    cases f state with
    | error stopped => rfl
    | ok next => exact hg.behind text next
  later n state hcount := by
    have hfirst := hf.later n state
    cases hstate : f state with
    | error stopped =>
        rw [hstate] at hfirst hcount
        rw [hfirst hcount]
        rfl
    | ok next =>
        -- The count never falls, so it has been within the limit in between.
        rw [hstate] at hfirst hcount
        have hsecond := hg.counts next
        rw [hfirst (Nat.le_trans (Nat.add_le_add_left hsecond n) hcount)]
        exact hg.later n next hcount

/-- Expressions are evaluated in the scope alone. -/
theorem Local.evaluated {α : Type} (result : Scope → Except TemplateError α)
    {f : α → RenderState → Except Stopped RenderState} (h : ∀ value, Local limit (f value)) :
    Local limit fun state => state.stop (result state.scope) >>= fun value => f value state where
  around state := by
    cases result state.scope with
    | error error => exact Scope.sameAround_refl state.scope
    | ok value => exact (h value).around state
  counts state := by
    cases result state.scope with
    | error error => exact Nat.le_refl _
    | ok value => exact (h value).counts state
  behind text state := by
    have hscope : (state.behind text).scope = state.scope := rfl
    rw [hscope]
    cases result state.scope with
    | error error => rfl
    | ok value => exact (h value).behind text state
  later n state hcount := by
    have hscope : (state.later n).scope = state.scope := rfl
    rw [hscope]
    cases hresult : result state.scope with
    | error error => rfl
    | ok value =>
        rw [hresult] at hcount
        exact (h value).later n state hcount

/-- A loop body is counted before it is entered. -/
def counted (limit : Nat) (position : Position) (state : RenderState) :
    Except Stopped RenderState :=
  let state := { state with iterations := state.iterations + 1 }
  if limit < state.iterations then .error ⟨.iterationLimitExceeded limit position, state⟩
  else .ok state

/-- Within the limit a round is counted. -/
theorem counted_of_le {position : Position} {state : RenderState}
    (h : state.iterations + 1 ≤ limit) :
    counted limit position state = .ok { state with iterations := state.iterations + 1 } :=
  if_neg (Nat.not_lt.mpr h)

/-- The round that passes the limit is counted as well, and ends the render. -/
theorem counted_of_lt {position : Position} {state : RenderState}
    (h : limit < state.iterations + 1) :
    counted limit position state = .error ⟨.iterationLimitExceeded limit position,
      { state with iterations := state.iterations + 1 }⟩ :=
  if_pos h

/-- Counting a round changes nothing but the count. -/
theorem local_counted (position : Position) : Local limit (counted limit position) where
  around state := by
    unfold counted
    dsimp only
    split <;> exact Scope.sameAround_refl state.scope
  counts state := by
    unfold counted
    dsimp only
    split <;> exact Nat.le_succ _
  behind text state := by
    unfold counted RenderState.behind
    dsimp only
    split <;> rfl
  later n state hcount := by
    have hsame : (ended (counted limit position state)).iterations = state.iterations + 1 := by
      unfold counted
      dsimp only
      split <;> rfl
    rw [hsame] at hcount
    unfold counted RenderState.later
    dsimp only
    rw [if_neg (by omega), if_neg (by omega)]
    rfl

/-- The state in which the body of a loop is entered. -/
def enter (name : String) (item info : Value) (state : RenderState) : RenderState :=
  { state with scope := (state.scope.push.set "forloop" info).set name item }

/-- The state in which a frame is closed. -/
def leave (state : RenderState) : RenderState := { state with scope := state.scope.pop }

/-- The frame of a round is opened before its body and closed behind it, also where the body
fails. -/
theorem inFrame_eq (name : String) (item info : Value) (state : RenderState) :
    inFrame body name item info state =
      endedAs leave (body (enter name item info state)) := by
  unfold inFrame enter
  dsimp only
  split
  next left hbody => rw [hbody]; rfl
  next error left hbody => rw [hbody]; rfl

/-- A frame leaves nothing behind. -/
theorem Local.scope_inFrame (h : Local limit body) (name : String) (item info : Value)
    (state : RenderState) :
    (ended (inFrame body name item info state)).scope = state.scope := by
  rw [inFrame_eq, ended_endedAs]
  exact (h.around _).pop rfl rfl

/-- A body in a frame of its own leaves the frames around it as they are. -/
theorem Local.inFrame (h : Local limit body) (name : String) (item info : Value) :
    Local limit (inFrame body name item info) where
  around state := by
    rw [h.scope_inFrame]
    exact Scope.sameAround_refl state.scope
  counts state := by
    rw [inFrame_eq, ended_endedAs]
    exact h.counts (enter name item info state)
  behind text state := by
    rw [inFrame_eq, inFrame_eq, endedAs_endedAs]
    have hbody := h.behind text (enter name item info state)
    exact (congrArg (endedAs leave) hbody).trans (endedAs_endedAs _ _ _)
  later n state hcount := by
    rw [inFrame_eq, ended_endedAs] at hcount
    rw [inFrame_eq, inFrame_eq, endedAs_endedAs]
    have hbody := h.later n (enter name item info state) hcount
    exact (congrArg (endedAs leave) hbody).trans (endedAs_endedAs _ _ _)

/-- Rounds are one round, counted before its body runs, and then the rest of them. -/
theorem rounds_cons (position : Position) (name : String) (length index : Nat) (item : Value)
    (rest : List Value) (state : RenderState) :
    rounds limit position name length body index (item :: rest) state =
      counted limit position state >>= fun state =>
        Render.inFrame body name item (loopInfo index length) state >>=
          rounds limit position name length body (index + 1) rest := by
  rw [rounds, counted]
  dsimp only
  split <;> rfl

/-- Whatever the rounds of a loop bind, it is gone behind the loop. -/
theorem Local.scope_rounds (h : Local limit body) (position : Position) (name : String)
    (length index : Nat) (items : List Value) (state : RenderState) :
    (ended (Render.rounds limit position name length body index items state)).scope =
      state.scope := by
  induction items generalizing index state with
  | nil => rfl
  | cons item rest ih =>
      have hcounted : (ended (counted limit position state)).scope = state.scope := by
        unfold counted
        dsimp only
        split <;> rfl
      rw [rounds_cons]
      apply ended_bind (P := fun left => left.scope = state.scope) hcounted
      intro entered hentered
      apply ended_bind (P := fun left => left.scope = state.scope)
      · rw [h.scope_inFrame, hentered]
      · intro left hleft
        rw [ih, hleft]

/-- Rounds are local if each of them is. -/
theorem Local.rounds (h : Local limit body) (position : Position) (name : String) (length : Nat)
    (items : List Value) (index : Nat) :
    Local limit (rounds limit position name length body index items) := by
  induction items generalizing index with
  | nil => exact local_ok
  | cons item rest ih =>
      have hround := (h.inFrame name item (loopInfo index length)).bind (ih (index + 1))
      have hall := (local_counted position).bind hround
      simp only [← rounds_cons] at hall
      exact hall

/-- A captured body is local: what it writes goes into the buffer, and the buffer into the scope. -/
theorem Local.captured (h : Local limit body) (name : String) :
    Local limit (captured body name) where
  around state := by
    have haround := h.around { state with output := "" }
    unfold Render.captured
    cases hbody : body { state with output := "" } with
    | error stopped =>
        rw [hbody] at haround
        exact haround
    | ok left =>
        rw [hbody] at haround
        exact ⟨haround.root, haround.outer⟩
  counts state := by
    have hcounts := h.counts { state with output := "" }
    unfold Render.captured
    cases hbody : body { state with output := "" } with
    | error stopped =>
        rw [hbody] at hcounts
        exact hcounts
    | ok left =>
        rw [hbody] at hcounts
        exact hcounts
  behind text state := by
    unfold Render.captured
    have hsame : { state.behind text with output := "" } = { state with output := "" } := rfl
    rw [hsame]
    cases body { state with output := "" } with
    | error stopped => rfl
    | ok left => rfl
  later n state hcount := by
    have hlater := h.later n { state with output := "" }
    have hsame : ({ state with output := "" } : RenderState).later n =
      { state.later n with output := "" } := rfl
    rw [hsame] at hlater
    unfold Render.captured at hcount ⊢
    cases hbody : body { state with output := "" } with
    | error stopped =>
        rw [hbody] at hlater hcount
        rw [hlater hcount]
        rfl
    | ok left =>
        rw [hbody] at hlater hcount
        rw [hlater hcount]
        rfl

end Rules

/-- An expression in front of a part of a render. -/
theorem Local.behindExpr {limit : Nat} {f : Value → RenderState → Except Stopped RenderState}
    (h : ∀ value, Local limit (f value)) (expr : Expr) :
    Local limit fun state =>
      state.stop ((state.context limit).evaluate expr) >>= fun value => f value state :=
  .evaluated (fun scope => Context.evaluate ⟨scope, limit⟩ expr) h

/-- A condition in front of two parts of a render. -/
theorem Local.ifHolds {limit : Nat} {f g : RenderState → Except Stopped RenderState}
    (hf : Local limit f) (hg : Local limit g) (condition : Expr) :
    Local limit fun state =>
      (do if ← state.stop ((state.context limit).holds condition) then f state else g state) := by
  have h : ∀ holds : Bool, Local limit fun state => if holds then f state else g state := by
    intro holds
    cases holds with
    | true => exact hf
    | false => exact hg
  exact .evaluated (fun scope => Context.holds ⟨scope, limit⟩ condition) h

theorem nodes_singleton (limit : Nat) (first : Node) (state : RenderState) :
    nodes limit [first] state = node limit first state := by
  rw [nodes]
  cases node limit first state <;> rfl

/-- An output writes the text of its value. -/
theorem node_output_of_value {limit : Nat} {expr : Expr} {state : RenderState} {value : Value}
    (position : Position) (h : (state.context limit).evaluate expr = .ok value) :
    node limit (.output expr position) state = .ok (state.write value.toText) := by
  rw [node, h]
  rfl

/-- A loop, once its elements are known. -/
theorem node_loop_of_items {limit : Nat} {header : LoopHeader} {state : RenderState}
    {items : List Value} (body otherwise : List Node)
    (h : loopItems (state.context limit) header = .ok items) :
    node limit (.loop header body otherwise) state =
      if items = [] then nodes limit otherwise state
      else
        rounds limit header.position header.name items.length (nodes limit body) 0 items state := by
  rw [node, h]
  cases items <;> rfl

mutual

/-- A node is rendered alike wherever it stands. -/
theorem local_node (limit : Nat) : ∀ first : Node, Local limit (node limit first)
  | .text content => local_write content
  | .output expr position => .behindExpr (fun value => local_write value.toText) expr
  | .assign name expr position => .behindExpr (fun value => local_bind name value) expr
  | .loop header body otherwise => by
      have h : ∀ items : List Value, Local limit fun state =>
          if items.isEmpty then nodes limit otherwise state
          else
            rounds limit header.position header.name items.length
              (fun state => nodes limit body state) 0 items state := by
        intro items
        by_cases hempty : items.isEmpty = true
        · simp only [hempty, ↓reduceIte]
          exact local_nodes limit otherwise
        · simp only [hempty]
          exact (local_nodes limit body).rounds header.position header.name items.length items 0
      exact .evaluated (fun scope => loopItems ⟨scope, limit⟩ header) h
  | .branch condition body arms otherwise position => by
      have hrest : Local limit fun state =>
          firstArm limit arms (fun state => nodes limit otherwise state) state :=
        local_firstArm limit arms (local_nodes limit otherwise)
      exact (local_nodes limit body).ifHolds hrest condition
  | .capture name body position => (local_nodes limit body).captured name

/-- Nodes are local, one after the other. -/
theorem local_nodes (limit : Nat) : ∀ all : List Node, Local limit (nodes limit all)
  | [] => local_ok
  | first :: rest => (local_node limit first).bind (local_nodes limit rest)

/-- Choosing an arm is local if the bodies are, and what stands behind the arms. -/
theorem local_firstArm (limit : Nat) : ∀ (arms : List Arm)
    {otherwise : RenderState → Except Stopped RenderState}, Local limit otherwise →
    Local limit (firstArm limit arms otherwise)
  | [], _, h => h
  | ⟨condition, body, _⟩ :: rest, _, h =>
      (local_nodes limit body).ifHolds (local_firstArm limit rest h) condition

end

/-- However a render ends, it leaves as many frames as there were, and all but the innermost as they
were. Behind a loop with elements all variables are as before it. -/
theorem frames_nodes (limit : Nat) (all : List Node) (state : RenderState) :
    ((ended (nodes limit all state)).scope.depth = state.scope.depth ∧
        (ended (nodes limit all state)).scope.outer = state.scope.outer ∧
        (ended (nodes limit all state)).scope.root = state.scope.root) ∧
      ∀ (header : LoopHeader) (body otherwise : List Node) (items : List Value),
        loopItems (state.context limit) header = .ok items → items ≠ [] →
        (ended (node limit (.loop header body otherwise) state)).scope = state.scope := by
  have haround := (local_nodes limit all).around state
  refine ⟨⟨?_, haround.outer, haround.root⟩, ?_⟩
  · rw [Scope.depth, Scope.depth, haround.outer]
  · intro header body otherwise items hitems hnonempty
    rw [node_loop_of_items body otherwise hitems, if_neg hnonempty]
    exact (local_nodes limit body).scope_rounds header.position header.name items.length 0 items
      state

end Render

/-- A renderer reports how its nodes end from the start of a render, and the count they leave. -/
theorem Renderer.render_eq (renderer : Renderer) (nodes : List Node) (root : Value) :
    renderer.render nodes root =
      (Render.reported (Render.nodes renderer.options.maxIterations nodes (.ofDocument root)),
        { renderer with
          iterations := (Render.ended (Render.nodes renderer.options.maxIterations nodes
            (.ofDocument root))).iterations }) := by
  unfold render
  cases Render.nodes renderer.options.maxIterations nodes (.ofDocument root) <;> rfl

end TextTemplate
