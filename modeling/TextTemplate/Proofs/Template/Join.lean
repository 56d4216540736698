import TextTemplate.Proofs.Render.Loop
import TextTemplate.Proofs.Template.NestingLimit
/-! # Three ways to print an array

The elements of an array can be joined by a filter, written one after the other by a loop that puts
the separator behind each but the last, or, without a separator, printed as the array. The three
come to the same text.
-/

namespace TextTemplate

/-- The elements of `xs`, joined by a filter. -/
def joinSource : String := "\x7b\x7b xs | join: sep \x7d\x7d"

/-- The elements of `xs`, written by a loop that knows its last round. -/
def loopSource : String :=
  "\x7b% for x in xs %\x7d\x7b\x7b x \x7d\x7d" ++
    "\x7b% unless forloop.last %\x7d\x7b\x7b sep \x7d\x7d\x7b% endunless %\x7d\x7b% endfor %\x7d"

/-- The array `xs` itself. -/
def arraySource : String := "\x7b\x7b xs \x7d\x7d"

/-! ## Texts -/

theorem Text.ofList_joinWith (separator : List Char) (pieces : List (List Char)) :
    String.ofList (Text.joinWith separator pieces) =
      (String.ofList separator).intercalate (pieces.map String.ofList) := by
  fun_induction Text.joinWith separator pieces with
  | case1 => rfl
  | case2 piece => simp
  | case3 piece next rest ih => simp [ih, String.append_assoc]

/-- An array is written as its elements are, with nothing between them. -/
theorem Value.toText_array (items : List Value) :
    (Value.array items).toText = "".intercalate (items.map Value.toText) := by
  have htext : (Value.array items).toText = String.ofList (textItems items) := rfl
  rw [htext]
  induction items with
  | nil => rfl
  | cons item rest ih =>
      rw [textItems, String.ofList_append, ih rfl]
      cases rest with
      | nil => simp [Value.toText]
      | cons next rest => simp [Value.toText]

namespace Render

/-- The separator, unless the round is the last. -/
def unlessLast : Node :=
  .branch (.not (.path [.field "forloop", .field "last"]))
    [.output (.path [.field "sep"]) ⟨1, 50, 49⟩] [] [] ⟨1, 25, 24⟩

/-- The body of the loop. -/
def roundBody : List Node := [.output (.path [.field "x"]) ⟨1, 18, 17⟩, unlessLast]

/-- The loop over all elements. -/
def roundHeader : LoopHeader := ⟨"x", .path [.field "xs"], false, none, none, ⟨1, 1, 0⟩⟩

/-- What a round of the loop writes: an element, and the separator unless the round is the last. -/
def roundText (separator : String) (length : Nat) (round : Value × Nat) : String :=
  round.1.toText ++ if round.2 + 1 = length then "" else separator

/-- The texts of the rounds, each with the separator behind it unless it is the last, are the texts
joined by the separator. -/
theorem join_roundText {separator : String} {length index : Nat} {items : List Value}
    (h : index + items.length = length) :
    String.join ((items.zipIdx index).map (roundText separator length)) =
      separator.intercalate (items.map Value.toText) := by
  induction items generalizing index with
  | nil => simp
  | cons item rest ih =>
      have hrest : index + 1 + rest.length = length := by
        rw [← h, List.length_cons]
        omega
      rw [List.zipIdx_cons, List.map_cons, String.join_cons, ih hrest, roundText]
      cases rest with
      | nil =>
          have hlast : index + 1 = length := hrest
          simp [hlast]
      | cons next rest =>
          have hmore : index + 1 ≠ length := by
            rw [List.length_cons] at hrest
            omega
          simp [hmore, String.append_assoc]

variable {limit : Nat} {scope : Scope} {separator : String}

/-- In the condition of the body, `forloop` tells whether the round is the last. -/
theorem holds_not_last (item : Value) (index length : Nat) :
    Context.holds ⟨roundScope scope "x" item index length, limit⟩
        (.not (.path [.field "forloop", .field "last"])) =
      .ok !decide (index + 1 = length) := by
  have hforloop : (roundScope scope "x" item index length).get? "forloop" =
      some (roundInfo index length) := get?_roundScope scope "x" item index length "forloop"
  have hlast : (roundInfo index length).get? (.name "last") =
      some (.bool (decide (index + 1 = length))) := by
    have hiff : ((index : Int) = length - 1) ↔ index + 1 = length := by omega
    simp only [← decide_eq_decide.mpr hiff]
    rfl
  simp only [Context.holds, Context.evaluate, hforloop, Context.follow, hlast]
  rfl

/-- The separator is written unless the round is the last. -/
theorem node_unlessLast (hsep : scope.get? "sep" = some (.string separator)) (item : Value)
    (index length : Nat) (output : String) :
    node limit unlessLast ⟨roundScope scope "x" item index length, output, 0⟩ =
      .ok ⟨roundScope scope "x" item index length,
        output ++ if index + 1 = length then "" else separator, 0⟩ := by
  let state : RenderState := ⟨roundScope scope "x" item index length, output, 0⟩
  have hwrite : nodes limit [.output (.path [.field "sep"]) ⟨1, 50, 49⟩] state =
      .ok (state.write separator) := by
    have hvalue : (state.context limit).evaluate (.path [.field "sep"]) = .ok (.string separator) :=
      Context.evaluate_field ((get?_roundScope scope "x" item index length "sep").trans hsep)
    rw [nodes_singleton, node_output_of_value _ hvalue, Value.toText_string]
  have hholds : (state.context limit).holds (.not (.path [.field "forloop", .field "last"])) =
      .ok !decide (index + 1 = length) := holds_not_last item index length
  rw [unlessLast, node, hholds]
  by_cases hlast : index + 1 = length
  · simp only [hlast, ↓reduceIte, String.append_empty, decide_true]
    rfl
  · simp only [hlast, ↓reduceIte, decide_false]
    exact hwrite

/-- A round writes its text and counts nothing. -/
theorem roundAlone_eq (hsep : scope.get? "sep" = some (.string separator)) (length : Nat)
    (round : Value × Nat) :
    roundAlone limit roundHeader roundBody scope length round =
      .ok ⟨roundScope scope "x" round.1 round.2 length, roundText separator length round, 0⟩ := by
  obtain ⟨item, index⟩ := round
  have hitem : node limit (.output (.path [.field "x"]) ⟨1, 18, 17⟩)
      (.alone (roundScope scope "x" item index length)) =
      .ok ⟨roundScope scope "x" item index length, "" ++ item.toText, 0⟩ := by
    apply node_output_of_value
    exact Context.evaluate_field (get?_roundScope scope "x" item index length "x")
  rw [roundAlone, roundBody, nodes]
  refine (congrArg (· >>= _) hitem).trans ?_
  refine (nodes_singleton limit unlessLast _).trans ?_
  rw [node_unlessLast hsep, String.empty_append]
  rfl

variable {items : List Value}

/-- Without parameters the loop runs over all elements. -/
theorem loopItems_all (hxs : scope.get? "xs" = some (.array items)) :
    loopItems ⟨scope, limit⟩ roundHeader = .ok items := by
  have hvalue : Context.evaluate ⟨scope, limit⟩ roundHeader.iterable = .ok (.array items) :=
    Context.evaluate_field hxs
  have hnone : ∀ expr? : Option Expr, expr? = none →
      expr?.mapM (Context.evaluate ⟨scope, limit⟩) = .ok none := by
    rintro _ rfl
    rfl
  rw [loopItems_eq hvalue (hnone _ rfl) (hnone _ rfl)]
  rfl

/-- The loop writes the texts of the elements, and the separator between neighbours. -/
theorem nodes_loop (hxs : scope.get? "xs" = some (.array items))
    (hsep : scope.get? "sep" = some (.string separator)) (hcount : items.length ≤ limit) :
    nodes limit [.loop roundHeader roundBody []] (.alone scope) =
      .ok ⟨scope, separator.intercalate (items.map Value.toText), items.length⟩ := by
  let ends := items.zipIdx.map fun round : Value × Nat =>
    RenderState.mk (roundScope scope "x" round.1 round.2 items.length)
      (roundText separator items.length round) 0
  have hends : List.Forall₂
      (fun round last => roundAlone limit roundHeader roundBody scope items.length round = .ok last)
      items.zipIdx ends := by
    apply List.forall₂_map_right_iff.mpr
    apply List.forall₂_same.mpr
    intro round _
    exact roundAlone_eq hsep items.length round
  have houtput : String.join (ends.map RenderState.output) =
      separator.intercalate (items.map Value.toText) := by
    rw [List.map_map]
    exact join_roundText (Nat.zero_add _)
  have hiterations : (ends.map RenderState.iterations).sum = 0 := by
    rw [List.map_map]
    apply List.sum_eq_zero
    intro count hmem
    obtain ⟨round, -, rfl⟩ := List.mem_map.mp hmem
    rfl
  have hle : (RenderState.alone scope).iterations +
      (items.length + (ends.map RenderState.iterations).sum) ≤ limit := by
    have hzero : (RenderState.alone scope).iterations = 0 := rfl
    omega
  have hrounds := rounds_append [] hends (Nat.le_of_eq (Nat.zero_add _)) hle
  rw [nodes_singleton, node_loop_of_items roundBody [] (loopItems_all hxs)]
  split
  next hempty =>
    rw [hempty]
    rfl
  next =>
    rw [List.append_nil] at hrounds
    rw [hrounds, houtput, hiterations]
    simp [rounds, RenderState.alone]

/-- An output that is all there is. -/
theorem nodes_output_alone (limit : Nat) {expr : Expr} {value : Value} (position : Position)
    (h : Context.evaluate ⟨scope, limit⟩ expr = .ok value) :
    nodes limit [.output expr position] (.alone scope) = .ok ⟨scope, value.toText, 0⟩ := by
  have houtput : node limit (.output expr position) (.alone scope) =
      .ok ((RenderState.alone scope).write value.toText) := node_output_of_value position h
  rw [nodes_singleton, houtput, RenderState.write, RenderState.alone, String.empty_append]

/-- The filter joins the texts of the elements. -/
theorem evaluate_join (hxs : scope.get? "xs" = some (.array items))
    (hsep : scope.get? "sep" = some (.string separator)) (position : Position) :
    Context.evaluate ⟨scope, limit⟩
        (.filtered (.path [.field "xs"]) [⟨"join", [.path [.field "sep"]], position⟩]) =
      .ok (.string (separator.intercalate (items.map Value.toText))) := by
  have hjoin : Filter.ofName? "join" = some .join := by decide
  have hvalue : Filter.apply .join (.array items) [.string separator] =
      .string (separator.intercalate (items.map Value.toText)) := by
    have htext := Text.ofList_joinWith separator.toList (items.map Value.text)
    rw [String.ofList_toList, List.map_map] at htext
    exact congrArg Value.string htext
  have hargs : Context.evaluateAll ⟨scope, limit⟩ [.path [.field "sep"]] =
      .ok [.string separator] := by
    rw [Context.evaluateAll, Context.evaluate_field hsep]
    rfl
  rw [Context.evaluate, Context.evaluate_field hxs]
  simp only [bind, Except.bind, Context.applyCalls, hjoin, hargs,
    Context.filterValue_of_ne_sort (by decide : Filter.join ≠ .sort), hvalue]

end Render

/-! ## Templates -/

/-- What the three templates parse to, with as many levels as they need. -/
theorem parseNodes_sources :
    parseNodes joinSource 0 =
        .ok [.output (.filtered (.path [.field "xs"])
          [⟨"join", [.path [.field "sep"]], ⟨1, 9, 8⟩⟩]) ⟨1, 1, 0⟩] ∧
      parseNodes loopSource 2 = .ok [.loop Render.roundHeader Render.roundBody []] ∧
      parseNodes arraySource 0 = .ok [.output (.path [.field "xs"]) ⟨1, 1, 0⟩] := by
  decide +kernel

/-- The loop opens two levels, and is refused where the limit is one or none. -/
theorem parseNodes_loopSource_of_lt {limit : Nat} (h : limit < 2) :
    ∃ position, parseNodes loopSource limit = .error ⟨.nestingTooDeep limit, position⟩ := by
  obtain rfl | rfl : limit = 0 ∨ limit = 1 := by omega
  · exact ⟨⟨1, 1, 0⟩, by decide +kernel⟩
  · exact ⟨⟨1, 25, 24⟩, by decide +kernel⟩

/-- Where the document is read and the template parsed, rendering is what is left to do. -/
theorem renderText_eq {document source : String} {options : RenderOptions} {root : Value}
    {nodes : List Node} (hread : readDocument document = .ok root)
    (hparse : parseTemplate source options = .ok nodes) :
    renderText document source options =
      Render.reported (Render.nodes options.maxIterations nodes (.ofDocument root)) := by
  unfold renderText Template.parse
  rw [hread, hparse]
  exact congrArg Prod.fst (Renderer.render_eq (Renderer.ofOptions options) nodes root)

theorem renderText_of_malformed {document source : String} {options : RenderOptions} {root : Value}
    {error : SyntaxError} (hread : readDocument document = .ok root)
    (hparse : parseNodes source options.maxNestingDepth = .error error) :
    renderText document source options = .error (.malformed error) := by
  unfold renderText Template.parse
  rw [hread, parseTemplate_of_malformed hparse]
  rfl

/-- Joined by the filter, written by the loop and, without a separator, printed as it is, an array
comes to the same text: those of its elements with the separator between neighbours. The loop needs
two levels of nesting, and as many rounds as there are elements. -/
theorem renderText_join {document : String} {members : List (String × Value)} {items : List Value}
    {separator : String} {options : RenderOptions}
    (hread : readDocument document = .ok (.object members))
    (hxs : Value.member? "xs" members = some (.array items))
    (hsep : Value.member? "sep" members = some (.string separator))
    (hcount : items.length ≤ options.maxIterations) :
    let joined := separator.intercalate (items.map Value.toText)
    renderText document joinSource options = .ok joined ∧
      (2 ≤ options.maxNestingDepth → renderText document loopSource options = .ok joined) ∧
      (options.maxNestingDepth < 2 → ∃ position, renderText document loopSource options =
        .error (.malformed ⟨.nestingTooDeep options.maxNestingDepth, position⟩)) ∧
      (separator = "" → renderText document arraySource options = .ok joined) := by
  intro joined
  let scope := Scope.ofDocument (.object members)
  have hxs' : scope.get? "xs" = some (.array items) := hxs
  have hsep' : scope.get? "sep" = some (.string separator) := hsep
  obtain ⟨hjoinNodes, hloopNodes, harrayNodes⟩ := parseNodes_sources
  refine ⟨?join, ?loop, ?deep, ?array⟩
  case join =>
    have hparse := parseTemplate_of_levels hjoinNodes rfl
      options.maxNestingDepth.zero_le
    have houtput := Render.nodes_output_alone options.maxIterations ⟨1, 1, 0⟩
      (Render.evaluate_join hxs' hsep' ⟨1, 9, 8⟩)
    rw [Value.toText_string] at houtput
    rw [renderText_eq hread hparse]
    exact congrArg Render.reported houtput
  case loop =>
    intro hdepth
    have hparse := parseTemplate_of_levels hloopNodes rfl hdepth
    rw [renderText_eq hread hparse]
    exact congrArg Render.reported (Render.nodes_loop hxs' hsep' hcount)
  case deep =>
    intro hdepth
    obtain ⟨position, herror⟩ := parseNodes_loopSource_of_lt hdepth
    exact ⟨position, renderText_of_malformed hread herror⟩
  case array =>
    intro hempty
    have hparse := parseTemplate_of_levels harrayNodes rfl
      options.maxNestingDepth.zero_le
    have houtput := Render.nodes_output_alone options.maxIterations ⟨1, 1, 0⟩
      (Context.evaluate_field hxs')
    rw [Value.toText_array, ← hempty] at houtput
    rw [renderText_eq hread hparse]
    exact congrArg Render.reported houtput

/-- An array with null, an array and an object in it, as long as is allowed, in a document that has
the separator in front; and an array without a separator. -/
theorem renderText_join_mixed :
    let document := "\x7b\"sep\":\"-\",\"xs\":[true,null,[\"a\",\x7b\x7d]]\x7d"
    let plain := "\x7b\"xs\":[true,\"a\"],\"sep\":\"\"\x7d"
    let options : RenderOptions := { maxIterations := 3 }
    renderText document joinSource options = .ok "true--a\x7b\x7d" ∧
      renderText document loopSource options = .ok "true--a\x7b\x7d" ∧
      renderText plain arraySource options = .ok "truea" := by
  intro document plain options
  let items : List Value := [.bool true, .null, .array [.string "a", .object []]]
  let items' : List Value := [.bool true, .string "a"]
  obtain ⟨hread, hread'⟩ :
      readDocument document = .ok (.object [("sep", .string "-"), ("xs", .array items)]) ∧
        readDocument plain = .ok (.object [("xs", .array items'), ("sep", .string "")]) :=
    ⟨by decide +kernel, by decide +kernel⟩
  have htexts : items.map Value.toText = ["true", "", "a\x7b\x7d"] := rfl
  have htexts' : items'.map Value.toText = ["true", "a"] := rfl
  have hcount : items.length ≤ options.maxIterations := by decide
  have hcount' : items'.length ≤ options.maxIterations := by decide
  have hdepth : 2 ≤ options.maxNestingDepth := by decide
  obtain ⟨hjoin, hloop, -, -⟩ := renderText_join hread rfl rfl hcount
  obtain ⟨-, -, -, harray⟩ := renderText_join hread' rfl rfl hcount'
  rw [htexts] at hjoin hloop
  rw [htexts'] at harray
  exact ⟨hjoin, hloop hdepth, harray rfl⟩

end TextTemplate
