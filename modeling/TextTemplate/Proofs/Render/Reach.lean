import TextTemplate.Proofs.Render.Locality
/-! # What a render comes to

A render goes through nodes in order and enters some of the nodes in them, each from some state.
`Opens` says which nodes a node enters, and `Reaches` which nodes a render comes to at all. Where it
comes to a node that fails, it fails.
-/

namespace TextTemplate.Render

/-- A node comes to render nodes that stand in it, from some state: the body or the arm of a branch
whose condition is the first that holds, what stands for no arm or for no element, the body of a
loop for one of its elements behind the rounds before it, or the body of a capture. -/
inductive Opens (limit : Nat) : Node → RenderState → List Node → RenderState → Prop
  | body {condition : Expr} {body otherwise : List Node} {arms : List Arm} {position : Position}
      {state : RenderState} (holds : (state.context limit).holds condition = .ok true) :
      Opens limit (.branch condition body arms otherwise position) state body state
  | arm {condition : Expr} {body otherwise : List Node} {arms : List Arm} {position : Position}
      {state : RenderState} {arm : Arm} (fails : (state.context limit).holds condition = .ok false)
      (found : arms.findM? (fun arm => (state.context limit).holds arm.condition) =
        .ok (some arm)) :
      Opens limit (.branch condition body arms otherwise position) state arm.body state
  | noArm {condition : Expr} {body otherwise : List Node} {arms : List Arm} {position : Position}
      {state : RenderState} (fails : (state.context limit).holds condition = .ok false)
      (found : arms.findM? (fun arm => (state.context limit).holds arm.condition) = .ok none) :
      Opens limit (.branch condition body arms otherwise position) state otherwise state
  | noElement {header : LoopHeader} {body otherwise : List Node} {state : RenderState}
      (elements : loopItems (state.context limit) header = .ok []) :
      Opens limit (.loop header body otherwise) state otherwise state
  | round {header : LoopHeader} {body otherwise : List Node} {state before : RenderState}
      {front rest : List Value} {item : Value}
      (elements : loopItems (state.context limit) header = .ok (front ++ item :: rest))
      (earlier : rounds limit header.position header.name (front ++ item :: rest).length
        (nodes limit body) 0 front state = .ok before)
      (within : before.iterations < limit) :
      Opens limit (.loop header body otherwise) state body
        (enter header.name item (loopInfo front.length (front ++ item :: rest).length)
          { before with iterations := before.iterations + 1 })
  | capture {name : String} {body : List Node} {position : Position} {state : RenderState} :
      Opens limit (.capture name body position) state body { state with output := "" }

/-- The render of nodes from a state comes to a node, be it one of them or one in them, in a
state. -/
inductive Reaches (limit : Nat) : List Node → RenderState → Node → RenderState → Prop
  | here {first : Node} {rest : List Node} {state : RenderState} :
      Reaches limit (first :: rest) state first state
  | behind {first target : Node} {rest : List Node} {state next reached : RenderState}
      (ends : node limit first state = .ok next) (more : Reaches limit rest next target reached) :
      Reaches limit (first :: rest) state target reached
  | inside {first target : Node} {rest body : List Node} {state entered reached : RenderState}
      (opens : Opens limit first state body entered)
      (more : Reaches limit body entered target reached) :
      Reaches limit (first :: rest) state target reached

variable {limit : Nat}

/-- What a search finds is one of the items. -/
theorem mem_of_findM? {ε α : Type} {test : α → Except ε Bool} {items : List α} {found : α}
    (h : items.findM? test = .ok (some found)) : found ∈ items := by
  induction items with
  | nil => cases h
  | cons item rest ih =>
      rw [List.findM?] at h
      cases htest : test item with
      | error error =>
          rw [htest] at h
          cases h
      | ok chosen =>
          rw [htest] at h
          cases chosen with
          | true =>
              cases h
              exact List.mem_cons_self
          | false => exact List.mem_cons_of_mem item (ih h)

/-- The first arm is rendered whose condition holds, and without one what stands for it. -/
theorem firstArm_eq (arms : List Arm) (otherwise : RenderState → Except Stopped RenderState)
    (state : RenderState) :
    firstArm limit arms otherwise state =
      (do
        match ← state.stop
            (arms.findM? fun arm => (state.context limit).holds arm.condition) with
        | some arm => nodes limit arm.body state
        | none => otherwise state) := by
  induction arms with
  | nil => rfl
  | cons arm rest ih =>
      obtain ⟨condition, body, position⟩ := arm
      rw [firstArm, List.findM?, ih]
      cases (state.context limit).holds condition with
      | error error => rfl
      | ok holds => cases holds <;> rfl

/-- Rounds can be run in two parts. -/
theorem rounds_append_eq_bind {body : RenderState → Except Stopped RenderState}
    (position : Position) (name : String) (length index : Nat) (front rest : List Value)
    (state : RenderState) :
    rounds limit position name length body index (front ++ rest) state =
      rounds limit position name length body index front state >>=
        rounds limit position name length body (index + front.length) rest := by
  induction front generalizing index state with
  | nil => rfl
  | cons item front ih =>
      have hindex : index + (item :: front).length = index + 1 + front.length := by
        rw [List.length_cons]
        omega
      rw [List.cons_append, rounds_cons, rounds_cons, hindex, bind_assoc]
      refine congrArg (counted limit position state >>= ·) (funext fun next => ?_)
      rw [bind_assoc]
      exact congrArg (inFrame body name item (loopInfo index length) next >>= ·)
        (funext fun left => ih (index + 1) left)

/-- An error in nodes that a node opens ends the node. -/
theorem Opens.stops {first : Node} {body : List Node} {state entered : RenderState}
    {stopped : Stopped} (h : Opens limit first state body entered)
    (herror : nodes limit body entered = .error stopped) :
    ∃ left, node limit first state = .error ⟨stopped.error, left⟩ := by
  cases h with
  | body holds =>
      refine ⟨stopped.state, ?_⟩
      rw [node, holds]
      exact herror
  | arm fails found | noArm fails found =>
      refine ⟨stopped.state, ?_⟩
      rw [node, fails]
      refine (firstArm_eq _ _ _).trans ?_
      rw [found]
      exact herror
  | noElement elements =>
      refine ⟨stopped.state, ?_⟩
      rw [node_loop_of_items _ _ elements, if_pos rfl]
      exact herror
  | @round header body otherwise state before front rest item elements earlier within =>
      have hsome : front ++ item :: rest ≠ [] := List.append_ne_nil_of_right_ne_nil _ nofun
      have hround : inFrame (nodes limit body) header.name item
          (loopInfo front.length (front ++ item :: rest).length)
          { before with iterations := before.iterations + 1 } =
            .error ⟨stopped.error, leave stopped.state⟩ := by
        rw [inFrame_eq, herror]
        rfl
      refine ⟨leave stopped.state, ?_⟩
      rw [node_loop_of_items _ _ elements, if_neg hsome, rounds_append_eq_bind, earlier]
      refine (rounds_cons _ _ _ _ _ _ _).trans ?_
      rw [counted_of_le within, Nat.zero_add]
      exact congrArg (· >>= _) hround
  | capture =>
      refine ⟨{ stopped.state with output := state.output }, ?_⟩
      rw [node, captured, herror]

/-- An error in a node that a render comes to ends the render. -/
theorem Reaches.stops {all : List Node} {target : Node} {state reached : RenderState}
    {stopped : Stopped} (h : Reaches limit all state target reached)
    (herror : node limit target reached = .error stopped) :
    ∃ left, nodes limit all state = .error ⟨stopped.error, left⟩ := by
  induction h with
  | here =>
      refine ⟨stopped.state, ?_⟩
      rw [nodes, herror]
      rfl
  | behind ends more ih =>
      rw [nodes, ends]
      exact ih herror
  | inside opens more ih =>
      obtain ⟨left, hbody⟩ := ih herror
      obtain ⟨left, hfirst⟩ := opens.stops hbody
      refine ⟨left, ?_⟩
      rw [nodes, hfirst]
      rfl

end TextTemplate.Render
