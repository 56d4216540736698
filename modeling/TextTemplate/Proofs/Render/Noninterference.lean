import TextTemplate.Proofs.Render.Locality
/-! # What a render reads of its document

A path asks the document for one thing, the binding of the name it starts with. So a document can be
exchanged for another that gives these names the same values: expressions have the same values over
both, and a render that starts from the one goes through the same states as a render that starts
from the other, whatever it binds on its way.
-/

namespace TextTemplate

/-- What a document binds a name to at its top level. -/
def Value.binding? (document : Value) (name : String) : Option Value :=
  match document with
  | .object members => Value.member? name members
  | _ => none

/-- Only the name of the whole document means more than what is bound at its top level. -/
theorem Scope.fromDocument?_of_ne {name : String} (h : name ≠ modelName) (document : Value) :
    fromDocument? document name = document.binding? name := by
  unfold fromDocument? Value.binding?
  exact (if_neg h).trans (by cases document <;> rfl)

mutual

/-- The names that paths in an expression start with. -/
def Expr.heads : Expr → List String
  | .literal _ => []
  | .path [] => []
  | .path (.field name :: rest) => name :: headsInSteps rest
  | .path (first :: rest) => headsInSteps (first :: rest)
  | .filtered base calls => base.heads ++ headsInCalls calls
  | .binary _ left right => left.heads ++ right.heads
  | .not operand => operand.heads
  | .range first last _ => first.heads ++ last.heads

/-- The names that paths in the lookups among some steps start with. -/
def headsInSteps : List Segment → List String
  | [] => []
  | .lookup key :: rest => key.heads ++ headsInSteps rest
  | _ :: rest => headsInSteps rest

/-- The names that paths in the arguments of filter calls start with. -/
def headsInCalls : List FilterCall → List String
  | [] => []
  | ⟨_, args, _⟩ :: rest => headsInArgs args ++ headsInCalls rest

/-- The names that paths in a list of expressions start with. -/
def headsInArgs : List Expr → List String
  | [] => []
  | arg :: rest => arg.heads ++ headsInArgs rest

end

/-- The names that paths in what a loop runs over start with. -/
def LoopHeader.heads (header : LoopHeader) : List String :=
  header.iterable.heads ++
    (header.offset?.elim [] Expr.heads ++ header.limit?.elim [] Expr.heads)

mutual

/-- The names that paths in a node start with. -/
def Node.heads : Node → List String
  | .text _ => []
  | .output expr _ => expr.heads
  | .assign _ expr _ => expr.heads
  | .loop header body otherwise => header.heads ++ (headsInNodes body ++ headsInNodes otherwise)
  | .branch condition body arms otherwise _ =>
    condition.heads ++ (headsInNodes body ++ (headsInArms arms ++ headsInNodes otherwise))
  | .capture _ body _ => headsInNodes body

/-- The names that paths in a list of nodes start with. -/
def headsInNodes : List Node → List String
  | [] => []
  | node :: rest => node.heads ++ headsInNodes rest

/-- The names that paths in the arms of a branch start with. -/
def headsInArms : List Arm → List String
  | [] => []
  | ⟨condition, body, _⟩ :: rest => condition.heads ++ (headsInNodes body ++ headsInArms rest)

end

/-- Two documents mean the same by some names. -/
def AgreeOn (names : List String) (root root' : Value) : Prop :=
  ∀ name ∈ names, Scope.fromDocument? root name = Scope.fromDocument? root' name

section Agreement

variable {names rest : List String} {root root' : Value}

theorem AgreeOn.left (h : AgreeOn (names ++ rest) root root') : AgreeOn names root root' :=
  fun name hname => h name (List.mem_append_left rest hname)

theorem AgreeOn.right (h : AgreeOn (names ++ rest) root root') : AgreeOn rest root root' :=
  fun name hname => h name (List.mem_append_right names hname)

end Agreement

/-- The same variables over another document. -/
def Scope.withRoot (root : Value) (scope : Scope) : Scope := { scope with root }

/-- The same state of a render over another document. -/
def RenderState.withRoot (root : Value) (state : RenderState) : RenderState :=
  { state with scope := state.scope.withRoot root }

/-- A name that two documents agree on means the same over both; a frame may hide it in either. -/
theorem Scope.get?_withRoot {root root' : Value} {name : String}
    (h : fromDocument? root name = fromDocument? root' name) (scope : Scope) :
    (scope.withRoot root).get? name = (scope.withRoot root').get? name := by
  simp only [get?, withRoot, h]

namespace Context

variable {root root' : Value} (scope : Scope) (limit : Nat)

mutual

/-- An expression has the same value over documents that agree on what its paths start with. -/
theorem evaluate_withRoot : ∀ expr : Expr, AgreeOn expr.heads root root' →
    evaluate ⟨scope.withRoot root, limit⟩ expr = evaluate ⟨scope.withRoot root', limit⟩ expr
  | .literal value, _ => rfl
  | .path [], _ => rfl
  | .path (.field name :: steps), hagree => by
      have hname := hagree name List.mem_cons_self
      have hsteps : AgreeOn (headsInSteps steps) root root' :=
        fun other hother => hagree other (List.mem_cons_of_mem name hother)
      rw [evaluate, evaluate]
      dsimp only
      rw [scope.get?_withRoot hname]
      split
      · rfl
      · exact follow_withRoot _ steps hsteps
  | .path (.index i :: steps), _ => rfl
  | .path (.lookup key :: steps), _ => rfl
  | .filtered base calls, hagree => by
      rw [Expr.heads] at hagree
      rw [evaluate, evaluate, evaluate_withRoot base hagree.left]
      congr 1
      funext value
      exact applyCalls_withRoot value calls hagree.right
  | .binary op left right, hagree => by
      rw [Expr.heads] at hagree
      rw [evaluate, evaluate, evaluate_withRoot left hagree.left,
        evaluate_withRoot right hagree.right]
  | .not operand, hagree => by
      rw [evaluate, evaluate, evaluate_withRoot operand hagree]
  | .range first last position, hagree => by
      rw [Expr.heads] at hagree
      rw [evaluate, evaluate, evaluate_withRoot first hagree.left,
        evaluate_withRoot last hagree.right]
      rfl

/-- A path below a value leads to the same value over both documents if they agree on the names in
its lookups. -/
theorem follow_withRoot : ∀ (value : Value) (steps : List Segment),
    AgreeOn (headsInSteps steps) root root' →
    follow ⟨scope.withRoot root, limit⟩ value steps =
      follow ⟨scope.withRoot root', limit⟩ value steps
  | value, [], _ => rfl
  | value, .field name :: rest, hagree => by
      rw [follow, follow]
      split
      · rfl
      · exact follow_withRoot _ rest hagree
  | value, .index i :: rest, hagree => by
      rw [follow, follow]
      split
      · rfl
      · exact follow_withRoot _ rest hagree
  | value, .lookup key :: rest, hagree => by
      rw [headsInSteps] at hagree
      rw [follow, follow, evaluate_withRoot key hagree.left]
      congr 1
      funext step
      split
      · rfl
      · exact follow_withRoot _ rest hagree.right

/-- Filters give the same value over both documents if these agree on the names in the arguments. -/
theorem applyCalls_withRoot : ∀ (value : Value) (calls : List FilterCall),
    AgreeOn (headsInCalls calls) root root' →
    applyCalls ⟨scope.withRoot root, limit⟩ value calls =
      applyCalls ⟨scope.withRoot root', limit⟩ value calls
  | value, [], _ => rfl
  | value, ⟨name, args, position⟩ :: rest, hagree => by
      rw [headsInCalls] at hagree
      rw [applyCalls, applyCalls, evaluateAll_withRoot args hagree.left]
      split
      · rfl
      · congr 1
        funext values
        congr 1
        funext result
        exact applyCalls_withRoot result rest hagree.right

theorem evaluateAll_withRoot : ∀ exprs : List Expr, AgreeOn (headsInArgs exprs) root root' →
    evaluateAll ⟨scope.withRoot root, limit⟩ exprs = evaluateAll ⟨scope.withRoot root', limit⟩ exprs
  | [], _ => rfl
  | expr :: rest, hagree => by
      rw [headsInArgs] at hagree
      rw [evaluateAll, evaluateAll, evaluate_withRoot expr hagree.left,
        evaluateAll_withRoot rest hagree.right]

end

end Context

namespace Render

/-- A part of a render that ends over two documents as one and the same run. -/
def SameOver (root root' : Value) (f : RenderState → Except Stopped RenderState) : Prop :=
  ∀ state : RenderState, ∃ result,
    f (state.withRoot root) = endedAs (RenderState.withRoot root) result ∧
      f (state.withRoot root') = endedAs (RenderState.withRoot root') result

section Rules

variable {root root' : Value} {f g body : RenderState → Except Stopped RenderState}

/-- A part that never looks at its document. -/
theorem sameOver_of_comm
    (h : ∀ (root : Value) (state : RenderState),
      f (state.withRoot root) = endedAs (RenderState.withRoot root) (f state)) :
    SameOver root root' f :=
  fun state => ⟨f state, h root state, h root' state⟩

/-- Parts that end alike over both documents do so one after the other. -/
theorem SameOver.bind (hf : SameOver root root' f) (hg : SameOver root root' g) :
    SameOver root root' fun state => f state >>= g := by
  intro state
  obtain ⟨result, hroot, hroot'⟩ := hf state
  dsimp only
  rw [hroot, hroot']
  cases result with
  | error stopped => exact ⟨.error stopped, rfl, rfl⟩
  | ok next => exact hg next

/-- What is evaluated in the scope is the same over both documents, and so is what comes of it. -/
theorem SameOver.evaluated {α : Type} (result : Scope → Except TemplateError α)
    {f : α → RenderState → Except Stopped RenderState}
    (hresult : ∀ scope : Scope, result (scope.withRoot root) = result (scope.withRoot root'))
    (hf : ∀ value, SameOver root root' (f value)) :
    SameOver root root' fun state =>
      state.stop (result state.scope) >>= fun value => f value state := by
  intro state
  have hsame := hresult state.scope
  have hroot : (state.withRoot root).scope = state.scope.withRoot root := rfl
  have hroot' : (state.withRoot root').scope = state.scope.withRoot root' := rfl
  dsimp only
  rw [hroot, hroot', ← hsame]
  cases result (state.scope.withRoot root) with
  | error error => exact ⟨.error ⟨error, state⟩, rfl, rfl⟩
  | ok value => exact hf value state

/-- Counting a round has nothing to do with the document. -/
theorem sameOver_counted (limit : Nat) (position : Position) :
    SameOver root root' (counted limit position) := by
  apply sameOver_of_comm
  intro root state
  unfold counted
  dsimp only [RenderState.withRoot]
  split <;> rfl

theorem leave_withRoot (root : Value) (state : RenderState) :
    leave (state.withRoot root) = (leave state).withRoot root := by
  obtain ⟨⟨document, inner, outer⟩, output, iterations⟩ := state
  cases outer <;> rfl

/-- The frame of a round is the same over both documents. -/
theorem SameOver.inFrame (h : SameOver root root' body) (name : String) (item info : Value) :
    SameOver root root' (inFrame body name item info) := by
  have hleave : ∀ root : Value,
      leave ∘ RenderState.withRoot root = RenderState.withRoot root ∘ leave :=
    fun root => funext (leave_withRoot root)
  intro state
  obtain ⟨result, hroot, hroot'⟩ := h (enter name item info state)
  refine ⟨endedAs leave result, ?_, ?_⟩
  · rw [inFrame_eq, endedAs_endedAs, ← hleave, ← endedAs_endedAs]
    exact congrArg (endedAs leave) hroot
  · rw [inFrame_eq, endedAs_endedAs, ← hleave, ← endedAs_endedAs]
    exact congrArg (endedAs leave) hroot'

/-- Rounds end alike over both documents if their body does. -/
theorem SameOver.rounds (h : SameOver root root' body) (limit : Nat) (position : Position)
    (name : String) (length : Nat) (items : List Value) (index : Nat) :
    SameOver root root' (rounds limit position name length body index items) := by
  induction items generalizing index with
  | nil => exact sameOver_of_comm fun _ _ => rfl
  | cons item rest ih =>
      have hround := (h.inFrame name item (loopInfo index length)).bind (ih (index + 1))
      have hall := (sameOver_counted limit position).bind hround
      simp only [← rounds_cons] at hall
      exact hall

/-- A captured body ends alike over both documents if the body does. -/
theorem SameOver.captured (h : SameOver root root' body) (name : String) :
    SameOver root root' (captured body name) := by
  intro state
  obtain ⟨result, hroot, hroot'⟩ := h { state with output := "" }
  have hentered : ∀ root : Value, { state.withRoot root with output := "" } =
      ({ state with output := "" } : RenderState).withRoot root := fun _ => rfl
  unfold Render.captured
  rw [hentered, hentered, hroot, hroot']
  cases result with
  | error stopped =>
      exact ⟨.error ⟨stopped.error, { stopped.state with output := state.output }⟩, rfl, rfl⟩
  | ok left =>
      exact ⟨.ok ({ left with output := state.output }.bind name (.string left.output)), rfl, rfl⟩

/-- An expression in front of a part of a render. -/
theorem SameOver.behindExpr {f : Value → RenderState → Except Stopped RenderState} (limit : Nat)
    (hf : ∀ value, SameOver root root' (f value)) {expr : Expr}
    (hagree : AgreeOn expr.heads root root') :
    SameOver root root' fun state =>
      state.stop ((state.context limit).evaluate expr) >>= fun value => f value state :=
  .evaluated (fun scope => Context.evaluate ⟨scope, limit⟩ expr)
    (fun scope => Context.evaluate_withRoot scope limit expr hagree) hf

/-- A condition in front of two parts of a render. -/
theorem SameOver.ifHolds (hf : SameOver root root' f) (hg : SameOver root root' g) (limit : Nat)
    {condition : Expr} (hagree : AgreeOn condition.heads root root') :
    SameOver root root' fun state =>
      (do if ← state.stop ((state.context limit).holds condition) then f state else g state) := by
  have hholds : ∀ scope : Scope, Context.holds ⟨scope.withRoot root, limit⟩ condition =
      Context.holds ⟨scope.withRoot root', limit⟩ condition := by
    intro scope
    rw [Context.holds, Context.holds, Context.evaluate_withRoot scope limit condition hagree]
  have hparts : ∀ holds : Bool, SameOver root root' fun state =>
      if holds then f state else g state := by
    intro holds
    cases holds with
    | true => exact hf
    | false => exact hg
  exact .evaluated (fun scope => Context.holds ⟨scope, limit⟩ condition) hholds hparts

end Rules

variable {root root' : Value} (limit : Nat)

theorem count?_withRoot (scope : Scope) (expr? : Option Expr)
    (hagree : AgreeOn (expr?.elim [] Expr.heads) root root') :
    count? ⟨scope.withRoot root, limit⟩ expr? = count? ⟨scope.withRoot root', limit⟩ expr? := by
  cases expr? with
  | none => rfl
  | some expr => rw [count?, count?, Context.evaluate_withRoot scope limit expr hagree]

/-- A loop runs over the same elements over both documents if these agree on the names in its
header. -/
theorem loopItems_withRoot (scope : Scope) (header : LoopHeader)
    (hagree : AgreeOn header.heads root root') :
    loopItems ⟨scope.withRoot root, limit⟩ header =
      loopItems ⟨scope.withRoot root', limit⟩ header := by
  rw [loopItems, loopItems, Context.evaluate_withRoot scope limit header.iterable hagree.left,
    count?_withRoot limit scope header.offset? hagree.right.left,
    count?_withRoot limit scope header.limit? hagree.right.right]

mutual

/-- A node ends over documents that agree on what its paths start with as one and the same run. -/
theorem sameOver_node : ∀ first : Node, AgreeOn first.heads root root' →
    SameOver root root' (node limit first)
  | .text content, _ => sameOver_of_comm fun _ _ => rfl
  | .output expr position, hagree =>
      .behindExpr limit (fun _ => sameOver_of_comm fun _ _ => rfl) hagree
  | .assign name expr position, hagree =>
      .behindExpr limit (fun _ => sameOver_of_comm fun _ _ => rfl) hagree
  | .loop header body otherwise, hagree => by
      rw [Node.heads] at hagree
      have hitems : ∀ items : List Value, SameOver root root' fun state =>
          if items.isEmpty then nodes limit otherwise state
          else
            rounds limit header.position header.name items.length
              (fun state => nodes limit body state) 0 items state := by
        intro items
        cases items with
        | nil => exact sameOver_nodes otherwise hagree.right.right
        | cons item rest =>
            exact (sameOver_nodes body hagree.right.left).rounds limit header.position header.name
              (item :: rest).length (item :: rest) 0
      exact .evaluated (fun scope => loopItems ⟨scope, limit⟩ header)
        (fun scope => loopItems_withRoot limit scope header hagree.left) hitems
  | .branch condition body arms otherwise position, hagree => by
      rw [Node.heads] at hagree
      have hrest := sameOver_firstArm arms hagree.right.right.left
        (sameOver_nodes otherwise hagree.right.right.right)
      exact (sameOver_nodes body hagree.right.left).ifHolds hrest limit hagree.left
  | .capture name body position, hagree => (sameOver_nodes body hagree).captured name

/-- Nodes end alike over both documents if these agree on the names in them. -/
theorem sameOver_nodes : ∀ all : List Node, AgreeOn (headsInNodes all) root root' →
    SameOver root root' (nodes limit all)
  | [], _ => sameOver_of_comm fun _ _ => rfl
  | first :: rest, hagree =>
      (sameOver_node first hagree.left).bind (sameOver_nodes rest hagree.right)

theorem sameOver_firstArm : ∀ (arms : List Arm)
    {otherwise : RenderState → Except Stopped RenderState},
    AgreeOn (headsInArms arms) root root' → SameOver root root' otherwise →
    SameOver root root' (firstArm limit arms otherwise)
  | [], _, _, h => h
  | ⟨_, body, _⟩ :: rest, _, hagree, h =>
      (sameOver_nodes body hagree.right.left).ifHolds
        (sameOver_firstArm rest hagree.right.right h) limit hagree.left

end

end Render

/-- Documents that bind alike every name a path starts with are rendered alike, with the same
count, as long as no path asks for the whole document. -/
theorem render_of_bindings_eq {nodes : List Node} {root root' : Value}
    (hmodel : Scope.modelName ∉ headsInNodes nodes)
    (hbindings : ∀ name ∈ headsInNodes nodes, root.binding? name = root'.binding? name)
    (renderer : Renderer) : renderer.render nodes root = renderer.render nodes root' := by
  have hagree : AgreeOn (headsInNodes nodes) root root' := by
    intro name hname
    have hother : name ≠ Scope.modelName := fun hsame => hmodel (hsame ▸ hname)
    rw [Scope.fromDocument?_of_ne hother, Scope.fromDocument?_of_ne hother, hbindings name hname]
  obtain ⟨result, hroot, hroot'⟩ := Render.sameOver_nodes renderer.options.maxIterations nodes
    hagree (.ofDocument .null)
  have hstart : ∀ root : Value,
      (RenderState.ofDocument .null).withRoot root = RenderState.ofDocument root := fun _ => rfl
  rw [hstart] at hroot hroot'
  rw [renderer.render_eq, renderer.render_eq, hroot, hroot', Render.ended_endedAs,
    Render.ended_endedAs]
  cases result <;> rfl

/-- Two documents that differ in a name that is bound by the template only, and in one that is not
in the template at all. The limit is exceeded in the second round of the loop. -/
theorem render_unread_names :
    let nodes : List Node :=
      [.loop ⟨"x", .path [.field "xs"], false, some (.path [.field "n"]), none, ⟨1, 1, 0⟩⟩
        [.assign "y" (.path [.field "x", .lookup (.path [.field "key"])]) ⟨1, 26, 25⟩,
          .output (.path [.field "y"]) ⟨1, 50, 49⟩] []]
    let first : Value := .object [("xs", .array [.object [("a", .string "b")], .null]),
      ("key", .string "a"), ("n", Value.ofInt 2), ("secret", .string "s")]
    let second : Value := .object [("secret", .array []), ("n", Value.ofInt 2),
      ("xs", .array [.object [("a", .string "b")], .null]), ("key", .string "a")]
    let renderer := Renderer.ofOptions { maxIterations := 1 }
    first.binding? "secret" ≠ second.binding? "secret" ∧
      (renderer.render nodes first).1 = .error (.iterationLimitExceeded 1 ⟨1, 1, 0⟩) ∧
      renderer.render nodes first = renderer.render nodes second := by
  intro nodes first second renderer
  have hmodel : Scope.modelName ∉ headsInNodes nodes := by decide
  have hbindings : ∀ name ∈ headsInNodes nodes, first.binding? name = second.binding? name := by
    have hheads : headsInNodes nodes = ["xs", "n", "x", "key", "y"] := rfl
    rw [hheads]
    simp only [List.forall_mem_cons]
    exact ⟨rfl, rfl, rfl, rfl, rfl, nofun⟩
  exact ⟨nofun, rfl, render_of_bindings_eq hmodel hbindings renderer⟩

end TextTemplate
