import TextTemplate.Proofs.Render.Locality
/-! # What a renderer counts

What loops do in a render can be written down as it goes on: each body that is entered, and the loop
that is refused a round because the limit is reached. The count of the renderer is the number of
bodies entered, however deep the loops are nested and however the render ends; only a refused round
is counted without being entered. What was rendered before does not matter.
-/

namespace TextTemplate

/-- What a loop does about an element that is left. -/
inductive LoopEvent where
  /-- The loop at this position enters its body. -/
  | entered (position : Position)
  /-- The loop at this position is refused another round, which ends the render. -/
  | refused (position : Position)
deriving DecidableEq, Repr

/-- The event is that a body is entered. -/
def LoopEvent.isEntry : LoopEvent → Bool
  | .entered _ => true
  | .refused _ => false

/-- The number of bodies entered. -/
def entries (events : List LoopEvent) : Nat := events.countP LoopEvent.isEntry

theorem entries_append (events events' : List LoopEvent) :
    entries (events ++ events') = entries events + entries events' :=
  List.countP_append

namespace Render

/-- The events behind a part of a render, if it ends well. -/
def afterwards (events : RenderState → List LoopEvent) :
    Except Stopped RenderState → List LoopEvent
  | .ok next => events next
  | .error _ => []

/-- The events of a loop from round `index` on, given those of its body. -/
def eventsOfRounds (limit : Nat) (position : Position) (name : String) (length : Nat)
    (body : RenderState → Except Stopped RenderState)
    (events : RenderState → List LoopEvent) : Nat → List Value → RenderState → List LoopEvent
  | _, [], _ => []
  | index, item :: rest, state =>
    match counted limit position state with
    | .error _ => [.refused position]
    | .ok next =>
      .entered position :: (events (enter name item (loopInfo index length) next) ++
        afterwards (eventsOfRounds limit position name length body events (index + 1) rest)
          (inFrame body name item (loopInfo index length) next))

mutual

/-- The events of a node. -/
def eventsOfNode (limit : Nat) : Node → RenderState → List LoopEvent
  | .text _, _ | .output _ _, _ | .assign _ _ _, _ => []
  | .loop header body otherwise, state =>
    match loopItems (state.context limit) header with
    | .error _ => []
    | .ok items =>
      if items.isEmpty then eventsOfNodes limit otherwise state
      else
        eventsOfRounds limit header.position header.name items.length (nodes limit body)
          (fun state => eventsOfNodes limit body state) 0 items state
  | .branch condition body arms otherwise _, state =>
    match (state.context limit).holds condition with
    | .error _ => []
    | .ok true => eventsOfNodes limit body state
    | .ok false =>
      eventsOfArms limit arms (fun state => eventsOfNodes limit otherwise state) state
  | .capture _ body _, state => eventsOfNodes limit body { state with output := "" }

/-- The events of nodes, up to the first that ends in an error. -/
def eventsOfNodes (limit : Nat) : List Node → RenderState → List LoopEvent
  | [], _ => []
  | first :: rest, state =>
    eventsOfNode limit first state ++
      afterwards (fun next => eventsOfNodes limit rest next) (node limit first state)

/-- The events of the first arm whose condition holds, or else those of `otherwise`. -/
def eventsOfArms (limit : Nat) :
    List Arm → (RenderState → List LoopEvent) → RenderState → List LoopEvent
  | [], otherwise, state => otherwise state
  | ⟨condition, body, _⟩ :: rest, otherwise, state =>
    match (state.context limit).holds condition with
    | .error _ => []
    | .ok true => eventsOfNodes limit body state
    | .ok false => eventsOfArms limit rest otherwise state

end

/-- What the events tell of the count at the end of a part of a render, which starts with `before`
bodies counted. -/
inductive Tally (limit before : Nat) : Except Stopped RenderState → List LoopEvent → Prop
  /-- Each body is counted once. -/
  | within {result : Except Stopped RenderState} {events : List LoopEvent}
      (none_refused : ∀ position, .refused position ∉ events)
      (count : (ended result).iterations = before + entries events)
      (within_limit : (ended result).iterations ≤ limit) : Tally limit before result events
  /-- The limit is reached exactly, and the round that is refused is counted on top. -/
  | exceeded {position : Position} {state : RenderState} {events : List LoopEvent}
      (none_refused : ∀ position, .refused position ∉ events)
      (reached : before + entries events = limit) (count : state.iterations = limit + 1) :
      Tally limit before (.error ⟨.iterationLimitExceeded limit position, state⟩)
        (events ++ [.refused position])

/-- The events tell the count of a part of a render, wherever it starts within the limit. -/
def Tallies (limit : Nat) (f : RenderState → Except Stopped RenderState)
    (events : RenderState → List LoopEvent) : Prop :=
  ∀ state : RenderState, state.iterations ≤ limit →
    Tally limit state.iterations (f state) (events state)

section Rules

variable {limit before : Nat} {f g body : RenderState → Except Stopped RenderState}
  {events events' : RenderState → List LoopEvent} {result : Except Stopped RenderState}
  {list : List LoopEvent}

/-- A part of a render in which no body is entered. -/
theorem tally_nil (h : before ≤ limit) (hcount : (ended result).iterations = before) :
    Tally limit before result [] :=
  .within nofun hcount (hcount ▸ h)

/-- Bodies entered before a part of a render are counted before it. -/
theorem Tally.behind (front : List LoopEvent) (hfront : ∀ position, .refused position ∉ front)
    (h : Tally limit (before + entries front) result list) :
    Tally limit before result (front ++ list) := by
  cases h with
  | within none_refused count within_limit =>
      refine .within ?_ ?_ within_limit
      · simpa [hfront] using none_refused
      · rw [count, entries_append]
        omega
  | exceeded none_refused reached count =>
      rw [← List.append_assoc]
      refine .exceeded ?_ ?_ count
      · simpa [hfront] using none_refused
      · rw [entries_append]
        omega

/-- What changes nothing about the count. -/
theorem Tally.endedAs (h : Tally limit before result list) (change : RenderState → RenderState)
    (hchange : ∀ state, (change state).iterations = state.iterations) :
    Tally limit before (endedAs change result) list := by
  cases h with
  | within none_refused count within_limit =>
      refine .within none_refused ?_ ?_
      · rw [ended_endedAs, hchange, count]
      · rwa [ended_endedAs, hchange]
  | exceeded none_refused reached count =>
      exact .exceeded none_refused reached ((hchange _).trans count)

/-- One part after the other keeps the tally: the second goes on from the count of the first, if
that one got to its end. -/
theorem Tally.bind (h : Tally limit before result list) (hg : Tallies limit g events) :
    Tally limit before (result >>= g) (list ++ afterwards events result) := by
  cases h with
  | exceeded none_refused reached count =>
      rw [afterwards, List.append_nil]
      exact .exceeded none_refused reached count
  | within none_refused count within_limit =>
      cases result with
      | error stopped =>
          rw [afterwards, List.append_nil]
          exact .within none_refused count within_limit
      | ok next =>
          -- The next part starts with the bodies of this one counted.
          have hnext : next.iterations = before + entries list := count
          have hrest := hg next within_limit
          rw [hnext] at hrest
          exact hrest.behind list none_refused

theorem Tallies.bind (hf : Tallies limit f events) (hg : Tallies limit g events') :
    Tallies limit (fun state => f state >>= g)
      (fun state => events state ++ afterwards events' (f state)) :=
  fun state hle => (hf state hle).bind hg

/-- A part of a render that counts nothing. -/
theorem tallies_quiet (h : ∀ state, (ended (f state)).iterations = state.iterations) :
    Tallies limit f fun _ => [] :=
  fun state hle => tally_nil hle (h state)

/-- Opening and closing a frame counts nothing. -/
theorem Tallies.inFrame (h : Tallies limit body events) (name : String) (item info : Value) :
    Tallies limit (inFrame body name item info)
      fun state => events (enter name item info state) := by
  intro state hle
  rw [inFrame_eq]
  exact (h (enter name item info state) hle).endedAs leave fun _ => rfl

/-- A captured body counts as the body does. -/
theorem Tallies.captured (h : Tallies limit body events) (name : String) :
    Tallies limit (captured body name) fun state => events { state with output := "" } := by
  intro state hle
  have hbody := h { state with output := "" } hle
  unfold Render.captured
  cases hresult : body { state with output := "" } with
  | error stopped =>
      rw [hresult] at hbody
      exact hbody.endedAs (fun left => { left with output := state.output }) fun _ => rfl
  | ok left =>
      rw [hresult] at hbody
      exact hbody.endedAs
        (fun left =>
          ({ left with output := state.output } : RenderState).bind name (.string left.output))
        fun _ => rfl

/-- Each round counts once, and then what its body counts. -/
theorem Tallies.rounds (h : Tallies limit body events) (position : Position) (name : String)
    (length index : Nat) (items : List Value) :
    Tallies limit (rounds limit position name length body index items)
      (eventsOfRounds limit position name length body events index items) := by
  induction items generalizing index with
  | nil => exact tallies_quiet fun _ => rfl
  | cons item rest ih =>
      intro state hle
      rw [rounds_cons, eventsOfRounds]
      by_cases hlimit : state.iterations + 1 ≤ limit
      · rw [counted_of_le hlimit]
        have hround := (h.inFrame name item (loopInfo index length)).bind (ih (index + 1))
        have hentered := hround { state with iterations := state.iterations + 1 } hlimit
        exact hentered.behind [.entered position] (by simp)
      · -- The count is never above the limit here, so it has just been reached.
        rw [counted_of_lt (Nat.lt_of_not_le hlimit)]
        have hreached : state.iterations = limit := by omega
        have hentries : state.iterations + entries [] = limit := hreached
        have hcount : state.iterations + 1 = limit + 1 := congrArg (· + 1) hreached
        exact .exceeded (by simp) hentries hcount

/-- A condition in front of two parts of a render. -/
theorem Tallies.ifHolds (hf : Tallies limit f events) (hg : Tallies limit g events')
    (condition : Expr) :
    Tallies limit
      (fun state =>
        (do if ← state.stop ((state.context limit).holds condition) then f state else g state))
      fun state =>
        match (state.context limit).holds condition with
        | .error _ => []
        | .ok true => events state
        | .ok false => events' state := by
  intro state hle
  dsimp only
  cases (state.context limit).holds condition with
  | error error => exact tally_nil hle rfl
  | ok holds =>
      cases holds with
      | true => exact hf state hle
      | false => exact hg state hle

end Rules

mutual

/-- The events of a node tell its count. -/
theorem tallies_node (limit : Nat) :
    ∀ first : Node, Tallies limit (node limit first) (eventsOfNode limit first)
  | .text content => tallies_quiet fun _ => rfl
  | .output expr position => by
      apply tallies_quiet
      intro state
      rw [node]
      cases (state.context limit).evaluate expr <;> rfl
  | .assign name expr position => by
      apply tallies_quiet
      intro state
      rw [node]
      cases (state.context limit).evaluate expr <;> rfl
  | .loop header body otherwise => by
      intro state hle
      rw [node, eventsOfNode]
      cases loopItems (state.context limit) header with
      | error error => exact tally_nil hle rfl
      | ok items =>
          cases items with
          | nil => exact tallies_nodes limit otherwise state hle
          | cons item rest =>
              have hrounds := (tallies_nodes limit body).rounds header.position header.name
                (item :: rest).length 0 (item :: rest)
              exact hrounds state hle
  | .branch condition body arms otherwise position => by
      have hrest := tallies_firstArm limit arms (tallies_nodes limit otherwise)
      exact (tallies_nodes limit body).ifHolds hrest condition
  | .capture name body position => (tallies_nodes limit body).captured name

/-- Nodes count what they count one after the other. -/
theorem tallies_nodes (limit : Nat) :
    ∀ all : List Node, Tallies limit (nodes limit all) (eventsOfNodes limit all)
  | [] => tallies_quiet fun _ => rfl
  | first :: rest => (tallies_node limit first).bind (tallies_nodes limit rest)

theorem tallies_firstArm (limit : Nat) : ∀ (arms : List Arm)
    {otherwise : RenderState → Except Stopped RenderState} {events : RenderState → List LoopEvent},
    Tallies limit otherwise events →
    Tallies limit (firstArm limit arms otherwise) (eventsOfArms limit arms events)
  | [], _, _, h => h
  | ⟨condition, body, _⟩ :: rest, _, _, h =>
      (tallies_nodes limit body).ifHolds (tallies_firstArm limit rest h) condition

end

end Render

namespace Renderer

/-- The renderer after some renders, whatever came of them. -/
def after (renderer : Renderer) (earlier : List (List Node × Value)) : Renderer :=
  earlier.foldl (fun renderer (nodes, root) => (renderer.render nodes root).2) renderer

/-- Earlier renders do not change the options of a renderer. -/
theorem options_after (renderer : Renderer) (earlier : List (List Node × Value)) :
    (renderer.after earlier).options = renderer.options := by
  induction earlier generalizing renderer with
  | nil => rfl
  | cons first rest ih =>
      have hfirst : (renderer.render first.1 first.2).2.options = renderer.options := by
        rw [render_eq]
      exact (ih _).trans hfirst

end Renderer

/-- The result of a render and its count do not depend on earlier renders. The count is the number
of bodies entered, and stays within the limit, unless a loop is refused a round: then as many bodies
have been entered as the limit allows, and the count is one more. -/
theorem render_iterations (options : RenderOptions) (earlier : List (List Node × Value))
    (nodes : List Node) (root : Value) :
    let limit := options.maxIterations
    let fresh := (Renderer.ofOptions options).render nodes root
    let events := Render.eventsOfNodes limit nodes (.ofDocument root)
    ((Renderer.ofOptions options).after earlier).render nodes root = fresh ∧
      (∀ output, fresh.1 = .ok output →
        fresh.2.iterations = entries events ∧ fresh.2.iterations ≤ limit) ∧
      (∀ position, .refused position ∈ events →
        fresh.1 = .error (.iterationLimitExceeded limit position) ∧
          entries events = limit ∧ fresh.2.iterations = limit + 1) ∧
      ∀ error, fresh.1 = .error error → (∀ position, .refused position ∉ events) →
        fresh.2.iterations = entries events ∧ fresh.2.iterations ≤ limit := by
  intro limit fresh events
  have htally : Render.Tally limit 0 (Render.nodes limit nodes (.ofDocument root)) events :=
    Render.tallies_nodes limit nodes (.ofDocument root) (Nat.zero_le limit)
  have hfresh : fresh = _ := (Renderer.ofOptions options).render_eq nodes root
  refine ⟨?again, ?_⟩
  case again => rw [hfresh, Renderer.render_eq, Renderer.options_after]
  -- The events are those of the run that the renderer reports.
  have hresult : fresh.1 = Render.reported (Render.nodes limit nodes (.ofDocument root)) := by
    rw [hfresh]
    rfl
  have hcount : fresh.2.iterations =
      (Render.ended (Render.nodes limit nodes (.ofDocument root))).iterations := by
    rw [hfresh]
    rfl
  rw [hresult, hcount]
  generalize Render.nodes limit nodes (.ofDocument root) = run at htally ⊢
  clear_value events
  cases htally with
  | within none_refused count within_limit =>
      rw [Nat.zero_add] at count
      exact ⟨fun _ _ => ⟨count, within_limit⟩, fun position h => absurd h (none_refused position),
        fun _ _ _ => ⟨count, within_limit⟩⟩
  | @exceeded position state front none_refused reached count =>
      have hrefused : LoopEvent.refused position ∈ front ++ [.refused position] := by simp
      refine ⟨nofun, ?_, fun _ _ hnone => absurd hrefused (hnone position)⟩
      intro position' hmem
      obtain rfl : position' = position := by simpa [none_refused] using hmem
      have hentries : entries (front ++ [.refused position']) = limit := by
        rw [entries_append, ← reached, Nat.zero_add]
        rfl
      exact ⟨rfl, hentries, count⟩

/-- Two loops, one in the other, with two elements each: the limit of five is reached when the inner
one has an element left. -/
example :
    let header (name : String) (offset : Nat) : LoopHeader :=
      ⟨name, .path [.field "model"], false, none, none, ⟨1, offset + 1, offset⟩⟩
    let inner : Node := .loop (header "y" 18) [.text "."] []
    let state := RenderState.ofDocument (.array [.null, .null])
    Render.eventsOfNodes 5 [.loop (header "x" 0) [inner] []] state =
      [.entered ⟨1, 1, 0⟩, .entered ⟨1, 19, 18⟩, .entered ⟨1, 19, 18⟩, .entered ⟨1, 1, 0⟩,
        .entered ⟨1, 19, 18⟩, .refused ⟨1, 19, 18⟩] := by
  decide +kernel

end TextTemplate
