import TextTemplate.Proofs.Filter.Sorting
import TextTemplate.Proofs.Render.Reach
import TextTemplate.Proofs.Template.Refusal
/-! # How a render can fail

A template that names no unknown filter can fail in two ways only: a loop or a range exceeds the
limit, or an array is sorted whose order contradicts itself. The places at which this can happen are
known beforehand, and a render that fails has come to one of them. `OnlyFails` says of a result that
it is no error other than some, and follows the way in which results are put together.
-/

namespace TextTemplate

section OnlyFails

variable {ε α β : Type} {P Q : ε → Prop}

/-- The result is no error other than those with a property. -/
def OnlyFails (P : ε → Prop) (result : Except ε α) : Prop :=
  ∀ error, result = .error error → P error

theorem onlyFails_ok {value : α} : OnlyFails P (.ok value : Except ε α) := nofun

theorem onlyFails_error {error : ε} (h : P error) : OnlyFails P (.error error : Except ε α) := by
  rintro _ ⟨⟩
  exact h

/-- The errors may be said less precisely. -/
theorem OnlyFails.mono {result : Except ε α} (h : OnlyFails P result)
    (himp : ∀ error, P error → Q error) : OnlyFails Q result :=
  fun error herror => himp error (h error herror)

/-- A sequence fails as one of its parts does. -/
theorem OnlyFails.bind {result : Except ε α} {f : α → Except ε β} (h : OnlyFails P result)
    (hf : ∀ value, result = .ok value → OnlyFails P (f value)) : OnlyFails P (result >>= f) := by
  cases result with
  | error error => exact onlyFails_error (h error rfl)
  | ok value => exact hf value rfl

/-- A search fails as one of its tests does. -/
theorem onlyFails_findM? {test : α → Except ε Bool} {items : List α}
    (h : ∀ item ∈ items, OnlyFails P (test item)) : OnlyFails P (items.findM? test) := by
  induction items with
  | nil => exact onlyFails_ok
  | cons item rest ih =>
      obtain ⟨hitem, hrest⟩ := List.forall_mem_cons.mp h
      rw [List.findM?]
      refine hitem.bind fun found _ => ?_
      cases found with
      | true => exact onlyFails_ok
      | false => exact ih hrest

end OnlyFails

/-- A part of a template that can end its render: a loop or a range, or a call of `sort`, which is
given the value of `input`. -/
inductive Hazard where
  | exceeding (position : Position)
  | sorting (input : Expr) (position : Position)
deriving DecidableEq, Repr

/-- The error that a hazard ends in. A call of `sort` only does so if its input is an array that
cannot be sorted. -/
def Hazard.Causes (context : Context) : Hazard → TemplateError → Prop
  | .exceeding position, error => error = .iterationLimitExceeded context.maxIterations position
  | .sorting input _, error =>
    error = .internal .inconsistentOrder ∧
      ∃ items, context.evaluate input = .ok (.array items) ∧ Filter.sorted? items = none

/-- The error is one that some of the hazards end in. -/
def CausedBy (context : Context) (hazards : List Hazard) (error : TemplateError) : Prop :=
  ∃ hazard ∈ hazards, hazard.Causes context error

section Hazards

variable {α : Type} {context : Context} {hazards rest : List Hazard}
  {result : Except TemplateError α}

theorem CausedBy.mono {error : TemplateError} (h : CausedBy context hazards error)
    (hsubset : hazards ⊆ rest) : CausedBy context rest error := by
  obtain ⟨hazard, hmem, hcauses⟩ := h
  exact ⟨hazard, hsubset hmem, hcauses⟩

theorem OnlyFails.append_left (h : OnlyFails (CausedBy context hazards) result) :
    OnlyFails (CausedBy context (hazards ++ rest)) result :=
  h.mono fun _ herror => herror.mono (List.subset_append_left hazards rest)

theorem OnlyFails.append_right (h : OnlyFails (CausedBy context rest) result) :
    OnlyFails (CausedBy context (hazards ++ rest)) result :=
  h.mono fun _ herror => herror.mono (List.subset_append_right hazards rest)

end Hazards

/-! ## Expressions -/

/-- The hazard of a call, if it is one of `sort`. -/
def hazardOfCall (input : Expr) (name : String) (position : Position) : List Hazard :=
  if name = Filter.sort.name then [.sorting input position] else []

mutual

/-- The hazards in an expression. -/
def Expr.hazards : Expr → List Hazard
  | .literal _ => []
  | .path segments => hazardsInPath segments
  | .filtered base calls => base.hazards ++ hazardsInCalls base calls
  | .binary _ left right => left.hazards ++ right.hazards
  | .not operand => operand.hazards
  | .range first last position => (first.hazards ++ last.hazards) ++ [.exceeding position]

/-- The hazards in the lookups of a path. -/
def hazardsInPath : List Segment → List Hazard
  | [] => []
  | .lookup key :: rest => key.hazards ++ hazardsInPath rest
  | _ :: rest => hazardsInPath rest

/-- The hazards in filter calls. Each call is given the value of what stands in front of it. -/
def hazardsInCalls : Expr → List FilterCall → List Hazard
  | _, [] => []
  | input, ⟨name, args, position⟩ :: rest =>
    hazardsInArgs args ++ (hazardOfCall input name position ++
      hazardsInCalls (.filtered input [⟨name, args, position⟩]) rest)

/-- The hazards in a list of expressions. -/
def hazardsInArgs : List Expr → List Hazard
  | [] => []
  | arg :: rest => arg.hazards ++ hazardsInArgs rest

end

namespace Context

variable (context : Context)

/-- A range fails only if it is longer than the limit, and names its own place. -/
theorem onlyFails_range (first last : Value) (position : Position) :
    OnlyFails (CausedBy context [.exceeding position]) (context.range first last position) := by
  unfold range
  dsimp only
  split
  · exact onlyFails_ok
  split
  · exact onlyFails_error ⟨_, List.mem_singleton_self _, rfl⟩
  · exact onlyFails_ok

/-- A known filter fails only if it is `sort`, and its input an array that cannot be sorted. -/
theorem onlyFails_filterValue {input : Expr} {value : Value} {name : String} {filter : Filter}
    (hinput : context.evaluate input = .ok value) (hname : Filter.ofName? name = some filter)
    (position : Position) (args : List Value) :
    OnlyFails (CausedBy context (hazardOfCall input name position))
      (filterValue filter value args) := by
  unfold filterValue
  split
  next hnone =>
    have hsort : filter = .sort := by
      by_contra hne
      rw [Filter.value?_of_ne_sort hne] at hnone
      cases hnone
    subst hsort
    have hspelled : name = Filter.sort.name := (Filter.name_of_ofName? hname).symm
    refine onlyFails_error ⟨.sorting input position, by simp [hazardOfCall, hspelled], rfl, ?_⟩
    cases value with
    | array items => exact ⟨items, hinput, by simpa [Filter.value?, Filter.sortItems?] using hnone⟩
    | _ => cases hnone
  next => exact onlyFails_ok

/-- The value of an expression with one filter behind it. -/
theorem evaluate_filtered_singleton {input : Expr} {value result : Value} {values : List Value}
    {name : String} {args : List Expr} {filter : Filter}
    (hinput : context.evaluate input = .ok value) (hname : Filter.ofName? name = some filter)
    (hargs : context.evaluateAll args = .ok values)
    (hvalue : filterValue filter value values = .ok result) (position : Position) :
    context.evaluate (.filtered input [⟨name, args, position⟩]) = .ok result := by
  rw [evaluate, hinput]
  simp only [bind, Except.bind, applyCalls, hname, hargs, hvalue]

mutual

/-- If it has no unknown filter, an expression fails only at one of its hazards. -/
theorem onlyFails_evaluate : ∀ expr : Expr, expr.unknownFilter? = none →
    OnlyFails (CausedBy context expr.hazards) (context.evaluate expr)
  | .literal value, _ => onlyFails_ok
  | .path [], _ => onlyFails_ok
  | .path (.field name :: steps), hknown => by
      rw [evaluate]
      split
      · exact onlyFails_ok
      · exact onlyFails_follow _ steps hknown
  | .path (.index i :: steps), _ => onlyFails_ok
  | .path (.lookup key :: steps), _ => onlyFails_ok
  | .filtered base calls, hknown => by
      rw [Expr.unknownFilter?_filtered, Option.or_eq_none_iff, ← unknownFilterInCalls?_eq] at hknown
      rw [evaluate, Expr.hazards]
      refine (onlyFails_evaluate base hknown.1).append_left.bind ?_
      intro value hvalue
      exact (onlyFails_applyCalls base value calls hvalue hknown.2).append_right
  | .binary op left right, hknown => by
      rw [Expr.unknownFilter?_binary, Option.or_eq_none_iff] at hknown
      have hright : ∀ f : Value → Bool,
          OnlyFails (CausedBy context (left.hazards ++ right.hazards)) (do
            let value ← context.evaluate right
            pure (Value.bool (f value))) := fun f =>
        (onlyFails_evaluate right hknown.2).append_right.bind fun _ _ => onlyFails_ok
      -- `and` and `or` may leave the second operand alone; then nothing in it can fail.
      rw [evaluate, Expr.hazards]
      refine (onlyFails_evaluate left hknown.1).append_left.bind ?_
      intro value _
      split
      · split
        · exact hright Value.isTruthy
        · exact onlyFails_ok
      · split
        · exact onlyFails_ok
        · exact hright Value.isTruthy
      · exact hright _
  | .not operand, hknown => by
      rw [evaluate, Expr.hazards]
      exact (onlyFails_evaluate operand hknown).bind fun _ _ => onlyFails_ok
  | .range first last position, hknown => by
      rw [Expr.unknownFilter?_range, Option.or_eq_none_iff] at hknown
      rw [evaluate, Expr.hazards]
      refine (onlyFails_evaluate first hknown.1).append_left.append_left.bind ?_
      intro lower _
      refine (onlyFails_evaluate last hknown.2).append_right.append_left.bind ?_
      intro upper _
      exact (context.onlyFails_range lower upper position).append_right

/-- Following a path fails only as one of the lookups in it does. -/
theorem onlyFails_follow : ∀ (value : Value) (steps : List Segment),
    unknownFilterInPath? steps = none →
    OnlyFails (CausedBy context (hazardsInPath steps)) (context.follow value steps)
  | value, [], _ => onlyFails_ok
  | value, .field name :: rest, hknown => by
      rw [follow]
      split
      · exact onlyFails_ok
      · exact onlyFails_follow _ rest hknown
  | value, .index i :: rest, hknown => by
      rw [follow]
      split
      · exact onlyFails_ok
      · exact onlyFails_follow _ rest hknown
  | value, .lookup key :: rest, hknown => by
      rw [unknownFilterInPath?_eq, findSome?_cons_eq_or, Option.or_eq_none_iff,
        ← unknownFilterInPath?_eq] at hknown
      rw [follow, hazardsInPath]
      refine (onlyFails_evaluate key hknown.1).append_left.bind ?_
      intro step _
      split
      · exact onlyFails_ok
      · exact (onlyFails_follow _ rest hknown.2).append_right

/-- Filters fail only as their arguments do, or where `sort` is given what is in front of it. -/
theorem onlyFails_applyCalls : ∀ (input : Expr) (value : Value) (calls : List FilterCall),
    context.evaluate input = .ok value → unknownFilterInCalls? calls = none →
    OnlyFails (CausedBy context (hazardsInCalls input calls)) (context.applyCalls value calls)
  | input, value, [], _, _ => onlyFails_ok
  | input, value, ⟨name, args, position⟩ :: rest, hinput, hknown => by
      rw [unknownFilterInCalls?_eq, findSome?_cons_eq_or, FilterCall.unknownFilter?,
        Option.or_eq_none_iff, ← unknownFilterInCalls?_eq] at hknown
      rw [applyCalls, hazardsInCalls]
      cases hname : Filter.ofName? name with
      | none => simp [hname] at hknown
      | some filter =>
          have hargs : unknownFilterInArgs? args = none := by simpa [hname] using hknown.1
          refine (onlyFails_evaluateAll args hargs).append_left.bind ?_
          intro values hvalues
          have hvalue := context.onlyFails_filterValue hinput hname position values
          refine hvalue.append_left.append_right.bind ?_
          intro result hresult
          have hbehind := context.evaluate_filtered_singleton hinput hname hvalues hresult position
          have hrest := onlyFails_applyCalls _ result rest hbehind hknown.2
          exact hrest.append_right.append_right

/-- A list of expressions fails only as one of them does. -/
theorem onlyFails_evaluateAll : ∀ exprs : List Expr, unknownFilterInArgs? exprs = none →
    OnlyFails (CausedBy context (hazardsInArgs exprs)) (context.evaluateAll exprs)
  | [], _ => onlyFails_ok
  | expr :: rest, hknown => by
      rw [unknownFilterInArgs?_eq, findSome?_cons_eq_or, Option.or_eq_none_iff,
        ← unknownFilterInArgs?_eq] at hknown
      rw [evaluateAll, hazardsInArgs]
      refine (onlyFails_evaluate expr hknown.1).append_left.bind ?_
      intro value _
      refine (onlyFails_evaluateAll rest hknown.2).append_right.bind ?_
      intro values _
      exact onlyFails_ok

end

end Context

/-! ## Nodes -/

/-- The hazards in what a loop runs over. -/
def LoopHeader.hazards (header : LoopHeader) : List Hazard :=
  header.iterable.hazards ++
    (header.offset?.elim [] Expr.hazards ++ header.limit?.elim [] Expr.hazards)

/-- The hazards in the tags of a node. Those of the nodes in it are not among them. -/
def Node.tagHazards : Node → List Hazard
  | .text _ | .capture _ _ _ => []
  | .output expr _ | .assign _ expr _ => expr.hazards
  | .loop header _ _ => header.hazards ++ [.exceeding header.position]
  | .branch condition _ arms _ _ =>
    condition.hazards ++ arms.flatMap fun arm => arm.condition.hazards

mutual

/-- The hazards in a node, with those of the nodes in it. -/
def Node.hazards : Node → List Hazard
  | .text _ => []
  | .output expr _ => expr.hazards
  | .assign _ expr _ => expr.hazards
  | .loop header body otherwise =>
    (header.hazards ++ [.exceeding header.position]) ++
      (hazardsInNodes body ++ hazardsInNodes otherwise)
  | .branch condition body arms otherwise _ =>
    condition.hazards ++ (hazardsInNodes body ++ (hazardsInArms arms ++ hazardsInNodes otherwise))
  | .capture _ body _ => hazardsInNodes body

/-- The hazards in a list of nodes. -/
def hazardsInNodes : List Node → List Hazard
  | [] => []
  | node :: rest => node.hazards ++ hazardsInNodes rest

/-- The hazards in the arms of a branch. -/
def hazardsInArms : List Arm → List Hazard
  | [] => []
  | ⟨condition, body, _⟩ :: rest => condition.hazards ++ (hazardsInNodes body ++ hazardsInArms rest)

end

theorem hazardsInArms_eq (arms : List Arm) :
    hazardsInArms arms =
      arms.flatMap fun arm => arm.condition.hazards ++ hazardsInNodes arm.body := by
  induction arms with
  | nil => rfl
  | cons arm rest ih =>
      obtain ⟨condition, body, position⟩ := arm
      rw [hazardsInArms, ih, List.flatMap_cons, List.append_assoc]

/-- The hazards in the tags of a node are hazards in the node. -/
theorem Node.tagHazards_subset (node : Node) : node.tagHazards ⊆ node.hazards := by
  cases node with
  | text content => exact List.Subset.refl _
  | output expr position => exact List.Subset.refl _
  | assign name expr position => exact List.Subset.refl _
  | loop header body otherwise => exact List.subset_append_left _ _
  | capture name body position => exact List.nil_subset _
  | branch condition body arms otherwise position =>
      intro hazard hhazard
      rw [hazards, hazardsInArms_eq]
      simp only [tagHazards, List.mem_append, List.mem_flatMap] at hhazard ⊢
      rcases hhazard with hcondition | ⟨arm, harm, hcondition⟩
      · exact .inl hcondition
      · exact .inr (.inr (.inl ⟨arm, harm, .inl hcondition⟩))

namespace Render

variable {limit : Nat}

/-- The nodes that a node opens stand in it. -/
theorem Opens.hazards_subset {first : Node} {body : List Node} {state entered : RenderState}
    (h : Opens limit first state body entered) : hazardsInNodes body ⊆ first.hazards := by
  intro hazard hhazard
  cases h with
  | @arm condition body otherwise arms position state arm fails found =>
      have hin : hazard ∈ hazardsInArms arms := by
        rw [hazardsInArms_eq]
        exact List.mem_flatMap.mpr
          ⟨arm, mem_of_findM? found, List.mem_append_right _ hhazard⟩
      simp [Node.hazards, hin]
  | capture => exact hhazard
  | _ => simp [Node.hazards, hhazard]

/-- What a render comes to stands in the nodes that it started from. -/
theorem Reaches.hazards_subset {all : List Node} {target : Node} {state reached : RenderState}
    (h : Reaches limit all state target reached) : target.tagHazards ⊆ hazardsInNodes all := by
  induction h with
  | here => exact List.Subset.trans (Node.tagHazards_subset _) (List.subset_append_left _ _)
  | behind ends more ih => exact List.Subset.trans ih (List.subset_append_right _ _)
  | inside opens more ih =>
      exact List.Subset.trans (List.Subset.trans ih opens.hazards_subset)
        (List.subset_append_left _ _)

/-- The error is one that ends a tag to which the render of the nodes comes. -/
def FailsAt (limit : Nat) (all : List Node) (state : RenderState) (error : TemplateError) : Prop :=
  ∃ target reached, Reaches limit all state target reached ∧
    CausedBy (reached.context limit) target.tagHazards error

section FailsAt

variable {first : Node} {rest body : List Node} {state next entered : RenderState}
  {error : TemplateError}

/-- The tags of the first node are evaluated in the state that there is. -/
theorem FailsAt.here (h : CausedBy (state.context limit) first.tagHazards error) :
    FailsAt limit (first :: rest) state error :=
  ⟨first, state, .here, h⟩

theorem FailsAt.behind (ends : node limit first state = .ok next)
    (h : FailsAt limit rest next error) : FailsAt limit (first :: rest) state error := by
  obtain ⟨target, reached, hreaches, hcaused⟩ := h
  exact ⟨target, reached, .behind ends hreaches, hcaused⟩

theorem FailsAt.inside (opens : Opens limit first state body entered)
    (h : FailsAt limit body entered error) : FailsAt limit (first :: rest) state error := by
  obtain ⟨target, reached, hreaches, hcaused⟩ := h
  exact ⟨target, reached, .inside opens hreaches, hcaused⟩

/-- Where one node fails, nodes fail of which it is the first. -/
theorem FailsAt.of_first (h : FailsAt limit [first] state error) :
    FailsAt limit (first :: rest) state error := by
  obtain ⟨target, reached, hreaches, hcaused⟩ := h
  cases hreaches with
  | here => exact .here hcaused
  | behind ends more => cases more
  | inside opens more => exact .inside opens ⟨target, reached, more, hcaused⟩

end FailsAt

section Parts

variable {P : TemplateError → Prop} {body : RenderState → Except Stopped RenderState}

/-- An error of a tag stops the render, and what follows has the value of the tag if there is
none. -/
theorem onlyFails_tag {α : Type} {first : Node} {state : RenderState} {hazards : List Hazard}
    {result : Except TemplateError α} {f : α → Except Stopped RenderState}
    (h : OnlyFails (CausedBy (state.context limit) hazards) result)
    (hsubset : hazards ⊆ first.tagHazards)
    (hf : ∀ value, result = .ok value →
      OnlyFails (fun stopped => FailsAt limit [first] state stopped.error) (f value)) :
    OnlyFails (fun stopped => FailsAt limit [first] state stopped.error)
      (state.stop result >>= f) := by
  cases result with
  | ok value => exact hf value rfl
  | error error =>
      have herror : FailsAt limit [first] state error := .here ((h error rfl).mono hsubset)
      exact onlyFails_error herror

/-- A loop parameter fails as its expression does. -/
theorem onlyFails_count? (context : Context) (expr? : Option Expr)
    (hknown : expr?.bind Expr.unknownFilter? = none) :
    OnlyFails (CausedBy context (expr?.elim [] Expr.hazards)) (count? context expr?) := by
  cases expr? with
  | none => exact onlyFails_ok
  | some expr => exact (context.onlyFails_evaluate expr hknown).bind fun _ _ => onlyFails_ok

theorem onlyFails_holds (context : Context) (condition : Expr)
    (hknown : condition.unknownFilter? = none) :
    OnlyFails (CausedBy context condition.hazards) (context.holds condition) :=
  (context.onlyFails_evaluate condition hknown).bind fun _ _ => onlyFails_ok

/-- What a loop runs over fails only as one of the expressions in its header does. -/
theorem onlyFails_loopItems (context : Context) (header : LoopHeader)
    (hknown : header.unknownFilter? = none) :
    OnlyFails (CausedBy context header.hazards) (loopItems context header) := by
  rw [LoopHeader.unknownFilter?_eq, Option.or_eq_none_iff, Option.or_eq_none_iff] at hknown
  obtain ⟨hiterable, hlimit, hoffset⟩ := hknown
  refine (context.onlyFails_evaluate header.iterable hiterable).append_left.bind ?_
  intro value _
  refine (onlyFails_count? context header.offset? hoffset).append_left.append_right.bind ?_
  intro offset? _
  refine (onlyFails_count? context header.limit? hlimit).append_right.append_right.bind ?_
  intro limit? _
  exact onlyFails_ok

/-- A round fails only as its body does. -/
theorem onlyFails_inFrame {name : String} {item info : Value} {state : RenderState}
    (h : OnlyFails (fun stopped => P stopped.error) (body (enter name item info state))) :
    OnlyFails (fun stopped => P stopped.error) (inFrame body name item info state) := by
  rw [inFrame_eq]
  cases hbody : body (enter name item info state) with
  | ok left => exact onlyFails_ok
  | error stopped =>
      have hstopped : P stopped.error := h stopped hbody
      exact onlyFails_error hstopped

/-- Rounds fail only as one is refused, or as the body does behind the rounds before it. -/
theorem onlyFails_rounds {position : Position} {name : String} {length index : Nat}
    {items : List Value} {state : RenderState}
    (hrefused : P (.iterationLimitExceeded limit position))
    (hround : ∀ front item rest before, items = front ++ item :: rest →
      rounds limit position name length body index front state = .ok before →
      before.iterations < limit →
      OnlyFails (fun stopped => P stopped.error) (body
        (enter name item (loopInfo (index + front.length) length)
          { before with iterations := before.iterations + 1 }))) :
    OnlyFails (fun stopped => P stopped.error)
      (rounds limit position name length body index items state) := by
  induction items generalizing index state with
  | nil => exact onlyFails_ok
  | cons item rest ih =>
      rw [rounds_cons]
      by_cases hlimit : state.iterations + 1 ≤ limit
      · have hfirst := onlyFails_inFrame (hround [] item rest state rfl rfl hlimit)
        rw [counted_of_le hlimit]
        refine hfirst.bind fun left hleft => ih ?_
        intro front next behind before hrest hfront hwithin
        have hlength : index + 1 + front.length = index + (item :: front).length := by
          rw [List.length_cons]
          omega
        have hitems : item :: rest = (item :: front) ++ next :: behind := by
          rw [hrest, List.cons_append]
        rw [hlength]
        refine hround _ next behind before hitems ?_ hwithin
        rw [rounds_cons, counted_of_le hlimit]
        exact (congrArg (· >>= _) hleft).trans hfront
      · rw [counted_of_lt (Nat.lt_of_not_le hlimit)]
        exact onlyFails_error hrefused

/-- A captured body fails only as the body does. -/
theorem onlyFails_captured {name : String} {state : RenderState}
    (h : OnlyFails (fun stopped => P stopped.error) (body { state with output := "" })) :
    OnlyFails (fun stopped => P stopped.error) (captured body name state) := by
  unfold captured
  split
  · exact onlyFails_ok
  next error left hbody =>
    have hstopped : P error := h _ hbody
    exact onlyFails_error hstopped

end Parts

variable (limit)

mutual

/-- If it has no unknown filter, a node fails only in a tag that its render comes to. -/
theorem onlyFails_node : ∀ (first : Node) (state : RenderState), first.unknownFilter? = none →
    OnlyFails (fun stopped => FailsAt limit [first] state stopped.error) (node limit first state)
  | .text content, state, _ => onlyFails_ok
  | .output expr position, state, hknown =>
      onlyFails_tag ((state.context limit).onlyFails_evaluate expr hknown) (List.Subset.refl _)
        fun _ _ => onlyFails_ok
  | .assign name expr position, state, hknown =>
      onlyFails_tag ((state.context limit).onlyFails_evaluate expr hknown) (List.Subset.refl _)
        fun _ _ => onlyFails_ok
  | .loop header body otherwise, state, hknown => by
      rw [Node.unknownFilter?_loop, Option.or_eq_none_iff, Option.or_eq_none_iff,
        ← unknownFilterInNodes?_eq, ← unknownFilterInNodes?_eq] at hknown
      obtain ⟨hheader, hbody, hotherwise⟩ := hknown
      have hitems := onlyFails_loopItems (state.context limit) header hheader
      refine onlyFails_tag hitems (List.subset_append_left _ _) ?_
      intro items hitems
      split
      next hempty =>
        rw [List.isEmpty_iff.mp hempty] at hitems
        exact (onlyFails_nodes otherwise state hotherwise).mono fun _ => .inside (.noElement hitems)
      next =>
        apply onlyFails_rounds
        · exact .here ⟨.exceeding header.position, by simp [Node.tagHazards], rfl⟩
        · rintro front item rest before rfl hfront hwithin
          rw [Nat.zero_add]
          exact (onlyFails_nodes body _ hbody).mono fun _ => .inside (.round hitems hfront hwithin)
  | .branch condition body arms otherwise position, state, hknown => by
      rw [Node.unknownFilter?_branch, Option.or_eq_none_iff, Option.or_eq_none_iff,
        Option.or_eq_none_iff, ← unknownFilterInNodes?_eq, ← unknownFilterInNodes?_eq,
        ← unknownFilterInArms?_eq] at hknown
      obtain ⟨hcondition, hbody, harms, hotherwise⟩ := hknown
      obtain ⟨hconditions, hbodies⟩ := onlyFails_arms arms harms
      have hholds := onlyFails_holds (state.context limit) condition hcondition
      refine onlyFails_tag hholds (List.subset_append_left _ _) ?_
      intro holds hholds
      cases holds with
      | true => exact (onlyFails_nodes body state hbody).mono fun _ => .inside (.body hholds)
      | false =>
          have hsearch : OnlyFails (CausedBy (state.context limit)
              (Node.branch condition body arms otherwise position).tagHazards)
              (arms.findM? fun arm => (state.context limit).holds arm.condition) := by
            refine onlyFails_findM? fun arm harm => ?_
            refine (hconditions arm harm _).mono fun _ herror => herror.mono ?_
            intro hazard hhazard
            exact List.mem_append_right _ (List.mem_flatMap.mpr ⟨arm, harm, hhazard⟩)
          rw [if_neg Bool.false_ne_true, firstArm_eq]
          refine onlyFails_tag hsearch (List.Subset.refl _) ?_
          intro found hfound
          cases found with
          | some arm =>
              exact (hbodies arm (mem_of_findM? hfound) state).mono fun _ =>
                .inside (.arm hholds hfound)
          | none =>
              exact (onlyFails_nodes otherwise state hotherwise).mono fun _ =>
                .inside (.noArm hholds hfound)
  | .capture name body position, state, hknown => by
      rw [Node.unknownFilter?_capture, ← unknownFilterInNodes?_eq] at hknown
      exact onlyFails_captured ((onlyFails_nodes body _ hknown).mono fun _ => .inside .capture)

/-- Nodes fail only in a tag that their render comes to. -/
theorem onlyFails_nodes : ∀ (all : List Node) (state : RenderState),
    unknownFilterInNodes? all = none →
    OnlyFails (fun stopped => FailsAt limit all state stopped.error) (nodes limit all state)
  | [], state, _ => onlyFails_ok
  | first :: rest, state, hknown => by
      rw [unknownFilterInNodes?_eq, findSome?_cons_eq_or, Option.or_eq_none_iff,
        ← unknownFilterInNodes?_eq] at hknown
      rw [nodes]
      refine ((onlyFails_node first state hknown.1).mono fun _ => .of_first).bind ?_
      intro next hnext
      exact (onlyFails_nodes rest next hknown.2).mono fun _ => .behind hnext

/-- The conditions of arms fail only at one of their hazards, and the bodies as their nodes do. -/
theorem onlyFails_arms : ∀ arms : List Arm, unknownFilterInArms? arms = none →
    (∀ arm ∈ arms, ∀ context : Context,
      OnlyFails (CausedBy context arm.condition.hazards) (context.holds arm.condition)) ∧
    ∀ arm ∈ arms, ∀ state : RenderState,
      OnlyFails (fun stopped => FailsAt limit arm.body state stopped.error)
        (nodes limit arm.body state)
  | [], _ => ⟨nofun, nofun⟩
  | ⟨condition, body, position⟩ :: arms, hknown => by
      rw [unknownFilterInArms?_eq, findSome?_cons_eq_or, Arm.unknownFilter?,
        Option.or_eq_none_iff, Option.or_eq_none_iff, ← unknownFilterInArms?_eq] at hknown
      obtain ⟨⟨hcondition, hbody⟩, harms⟩ := hknown
      obtain ⟨hconditions, hbodies⟩ := onlyFails_arms arms harms
      exact ⟨List.forall_mem_cons.mpr
          ⟨fun context => onlyFails_holds context condition hcondition, hconditions⟩,
        List.forall_mem_cons.mpr ⟨fun state => onlyFails_nodes body state hbody, hbodies⟩⟩

end

end Render

/-- A template that was parsed renders, but for two cases. One of its loops or ranges may exceed the
limit. And the render may come to a call of `sort` that is given an array that cannot be sorted: it
has more than twenty elements, and the order contradicts itself on them, so that among values of the
data model there is a floating-point value between two whole numbers that are rounded to it. An
error in any node that the render comes to is the error of the whole. A template without loops,
ranges and calls of `sort` renders in any case. -/
theorem render_of_parseTemplate {source : String} {options : RenderOptions} {nodes : List Node}
    (hparse : parseTemplate source options = .ok nodes) (iterations : Nat) (root : Value) :
    let limit := options.maxIterations
    let result := ((⟨options, iterations⟩ : Renderer).render nodes root).1
    ((∃ output, result = .ok output) ∨
      (∃ position, .exceeding position ∈ hazardsInNodes nodes ∧
        result = .error (.iterationLimitExceeded limit position)) ∨
      (result = .error (.internal .inconsistentOrder) ∧
        ∃ node state input position items,
          Render.Reaches limit nodes (.ofDocument root) node state ∧
          .sorting input position ∈ node.tagHazards ∧
          (state.context limit).evaluate input = .ok (.array items) ∧
          Filter.sorted? items = none ∧ 20 < items.length ∧ ¬ Filter.Preordered items ∧
          ((∀ item ∈ items, item.Proper) →
            ∃ a ∈ items, ∃ b ∈ items, ∃ c ∈ items, Value.Blurred a b c))) ∧
    (∀ node state stopped, Render.Reaches limit nodes (.ofDocument root) node state →
      Render.node limit node state = .error stopped → result = .error stopped.error) ∧
    (hazardsInNodes nodes = [] → ∃ output, result = .ok output) := by
  have hknown := known_of_parseTemplate hparse
  have honly := Render.onlyFails_nodes options.maxIterations nodes (.ofDocument root) hknown
  have hstops : ∀ node state stopped,
      Render.Reaches options.maxIterations nodes (.ofDocument root) node state →
      Render.node options.maxIterations node state = .error stopped →
      ((⟨options, iterations⟩ : Renderer).render nodes root).1 = .error stopped.error := by
    intro node state stopped hreaches herror
    obtain ⟨left, hnodes⟩ := hreaches.stops herror
    rw [Renderer.render_eq, hnodes]
    rfl
  refine and_left_comm.mp ⟨hstops, ?_⟩
  unfold Renderer.render
  dsimp only
  cases hresult : Render.nodes options.maxIterations nodes (.ofDocument root) with
  | ok state => exact ⟨.inl ⟨state.output, rfl⟩, fun _ => ⟨state.output, rfl⟩⟩
  | error stopped =>
      obtain ⟨node, state, hreaches, hazard, hmem, hcauses⟩ := honly stopped hresult
      have hin : hazard ∈ hazardsInNodes nodes := hreaches.hazards_subset hmem
      refine ⟨.inr ?_, fun hnone => by rw [hnone] at hin; cases hin⟩
      cases hazard with
      | exceeding position => exact .inl ⟨position, hin, congrArg Except.error hcauses⟩
      | sorting input position =>
          obtain ⟨herror, items, hinput, hitems⟩ := hcauses
          obtain ⟨hlength, hpreordered⟩ := Filter.not_preordered_of_sorted?_eq_none hitems
          exact .inr ⟨congrArg Except.error herror, node, state, input, position, items, hreaches,
            hmem, hinput, hitems, hlength, hpreordered,
            fun hproper => Filter.exists_blurred_of_not_preordered hproper hpreordered⟩

/-- Twenty-two numbers on which the order contradicts itself: the fourth is greater than the last
ones, and the fifth is equal to all of these. -/
theorem render_sort_breakdown :
    let items : List Value :=
      [.ofInt 5, .ofInt 7, .ofInt 6, .ofInt 9007199254740993,
        .number (.float ⟨false, 4503599627370496, 1⟩)] ++
      List.replicate 17 (.ofInt 9007199254740992)
    let sorting : Expr := .filtered (.path [.field "model"]) [⟨"sort", [], ⟨1, 12, 11⟩⟩]
    let nodes : List Node := [.output sorting ⟨1, 1, 0⟩]
    let result := ((⟨{}, 0⟩ : Renderer).render nodes (.array items)).1
    parseTemplate "{{ model | sort }}" {} = .ok nodes ∧
      result = .error (.internal .inconsistentOrder) ∧
      ∃ node state input position found,
        Render.Reaches 1000000 nodes (.ofDocument (.array items)) node state ∧
        .sorting input position ∈ node.tagHazards ∧
        (state.context 1000000).evaluate input = .ok (.array found) ∧
        Filter.sorted? found = none ∧ 20 < found.length ∧ ¬ Filter.Preordered found ∧
        ((∀ item ∈ found, item.Proper) →
          ∃ a ∈ found, ∃ b ∈ found, ∃ c ∈ found, Value.Blurred a b c) := by
  intro items sorting nodes result
  have hparse : parseTemplate "{{ model | sort }}" {} = .ok nodes :=
    parseTemplate_of_known (by decide +kernel) rfl
  have hsorted : Filter.sorted? items = none := by
    rw [← Option.isNone_iff_eq_none]
    decide +kernel
  have hfound : (Scope.ofDocument (.array items)).get? "model" = some (.array items) := rfl
  have hname : Filter.ofName? "sort" = some .sort := by decide
  have hvalue : Context.filterValue .sort (.array items) [] =
      .error (.internal .inconsistentOrder) := by
    rw [Context.filterValue, Filter.value?, Filter.sortItems?, hsorted]
    rfl
  let state := RenderState.ofDocument (.array items)
  have hevaluate : (state.context 1000000).evaluate sorting =
      .error (.internal .inconsistentOrder) := by
    rw [Context.evaluate, Context.evaluate]
    simp only [state, RenderState.context, RenderState.ofDocument, hfound, Context.follow, bind,
      Except.bind, Context.applyCalls, hname, Context.evaluateAll, hvalue]
  have hnode : Render.node 1000000 (.output sorting ⟨1, 1, 0⟩) state =
      .error ⟨.internal .inconsistentOrder, state⟩ := by
    rw [Render.node, hevaluate]
    rfl
  obtain ⟨hends, hstops, -⟩ := render_of_parseTemplate hparse 0 (.array items)
  have hresult : result = .error (.internal .inconsistentOrder) := hstops _ state _ .here hnode
  obtain ⟨output, hok⟩ | ⟨position, -, hexceeded⟩ | ⟨-, hsorting⟩ := hends
  · cases hok.symm.trans hresult
  · cases hexceeded.symm.trans hresult
  · exact ⟨hparse, hresult, hsorting⟩

end TextTemplate
