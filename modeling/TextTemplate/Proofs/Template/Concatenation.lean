import TextTemplate.Proofs.Parser.BlockCompleteness
import TextTemplate.Proofs.Render.Moved
import TextTemplate.Proofs.Template.ErrorPosition
import TextTemplate.Proofs.Token.Append
/-! # Templates one behind the other

Where one template ends in a closing delimiter without a hyphen, another can be put behind it: the
whole has the nodes of the one and then those of the other, which point to where they now stand.
What it renders is what the first renders, followed by what the second renders with the variables
that the first leaves.
-/

namespace TextTemplate

open Grammar

/-- Pieces behind pieces are pieces. -/
theorem Grammar.Pieces.append {primary : Reading Expr} {inner? : Option Level}
    {tokens tokens' : List Token} {nodes nodes' : List Node} {survey survey' : Survey}
    (h : Pieces primary inner? tokens nodes survey)
    (h' : Pieces primary inner? tokens' nodes' survey') :
    ∃ whole, Pieces primary inner? (tokens ++ tokens') (nodes ++ nodes') whole := by
  induction h with
  | nil => exact ⟨survey', h'⟩
  | cons first more ih =>
      obtain ⟨whole, hwhole⟩ := ih
      rw [List.append_assoc, List.append_assoc]
      exact ⟨_, .cons first hwhole⟩

/-- A source is parsed exactly if it has no lexical error and its tokens a layout. -/
theorem parseNodes_eq_ok_iff {source : String} {limit : Nat} {nodes : List Node} :
    parseNodes source limit = .ok nodes ↔
      (tokenize source.toList).failure? = none ∧
        ∃ survey, Nodes limit (tokenize source.toList).tokens nodes survey := by
  constructor
  · intro h
    exact Parser.template_eq_ok_iff.mp (parseNodes_eq_ok h)
  · intro h
    obtain ⟨next, hok⟩ := Parser.template_eq_ok_iff.mpr
      (show (Parser.start (tokenize source.toList)).failure? = none ∧ _ from h)
    rw [parseNodes_eq_map, hok]
    rfl

/-- Moved tokens have a layout for the moved nodes. -/
theorem layout_moved {f : Position → Position} {stream : TokenStream} {limit : Nat}
    {nodes : List Node} (hfailure : stream.failure? = none)
    (h : ∃ survey, Nodes limit stream.tokens nodes survey) :
    ∃ survey, Nodes limit (stream.tokens.map (Token.moved f)) (movedNodes f nodes) survey := by
  obtain ⟨next, hok⟩ := Parser.template_eq_ok_iff.mpr
    (show (Parser.start stream).failure? = none ∧ _ from ⟨hfailure, h⟩)
  have hmoved := Parser.template_moved f limit (Parser.start stream)
  rw [hok] at hmoved
  exact (Parser.template_eq_ok_iff.mp ⟨_, hmoved⟩).2

/-- A source ends in a closing delimiter without a hyphen. -/
inductive EndsPlainly (source : String) : Prop
  | closing (delimiter : Delimiter) {last : Token}
      (isLast : (tokenize source.toList).tokens.getLast? = some last)
      (kind : last.kind = delimiter.closeKind)
      (text : last.text = String.ofList delimiter.closing)

/-- The nodes of one source behind another are the nodes of both, the second ones moved behind the
first. -/
theorem parseNodes_append {first second : String} {limit : Nat} {nodes nodes' : List Node}
    (hfirst : parseNodes first limit = .ok nodes) (hends : EndsPlainly first)
    (hsecond : parseNodes second limit = .ok nodes') :
    parseNodes (first ++ second) limit =
      .ok (nodes ++ movedNodes (Position.behind first.toList) nodes') := by
  obtain ⟨delimiter, hlast, hkind, htext⟩ := hends
  obtain ⟨hfailure, survey, hnodes⟩ := parseNodes_eq_ok_iff.mp hfirst
  obtain ⟨hfailure', hnodes'⟩ := parseNodes_eq_ok_iff.mp hsecond
  obtain ⟨survey', hmoved⟩ :=
    layout_moved (f := Position.behind first.toList) hfailure' hnodes'
  have htokens := tokenize_append hfailure hlast hkind htext second.toList
  rw [parseNodes_eq_ok_iff, String.toList_append, htokens]
  rw [nodes_eq] at hnodes hmoved ⊢
  exact ⟨by rw [TokenStream.behind, TokenStream.moved, hfailure']; rfl, hnodes.append hmoved⟩

theorem unknownFilterInNodes?_append (nodes nodes' : List Node) :
    unknownFilterInNodes? (nodes ++ nodes') =
      (unknownFilterInNodes? nodes).or (unknownFilterInNodes? nodes') := by
  simp only [unknownFilterInNodes?_eq, List.findSome?_append]

namespace Render

/-- Nodes render one part after the other. -/
theorem nodes_append (limit : Nat) (all more : List Node) (state : RenderState) :
    nodes limit (all ++ more) state = nodes limit all state >>= nodes limit more := by
  induction all generalizing state with
  | nil => rfl
  | cons first rest ih =>
      rw [List.cons_append, nodes, nodes]
      cases node limit first state with
      | error stopped => rfl
      | ok next => exact ih next

end Render

/-- Nodes behind others start with an empty output, from the variables and the count that those
leave. What they write then stands behind what those have written. -/
theorem Renderer.render_append (renderer : Renderer) (nodes nodes' : List Node) (root : Value) :
    (renderer.render (nodes ++ nodes') root).1 =
      match Render.nodes renderer.options.maxIterations nodes (.ofDocument root) with
      | .error stopped => .error stopped.error
      | .ok between =>
          match Render.nodes renderer.options.maxIterations nodes'
            { between with output := "" } with
          | .error stopped => .error stopped.error
          | .ok left => .ok (between.output ++ left.output) := by
  rw [render_eq, Render.nodes_append]
  cases Render.nodes renderer.options.maxIterations nodes (.ofDocument root) with
  | error stopped => rfl
  | ok between =>
      have hbehind := (Render.local_nodes renderer.options.maxIterations nodes').behind
        between.output { between with output := "" }
      have hbetween :
          RenderState.behind between.output { between with output := "" } = between := by
        rw [RenderState.behind, String.append_empty]
      rw [hbetween] at hbehind
      change Render.reported (Render.nodes _ nodes' between) = _
      rw [hbehind]
      dsimp only
      split
      next stopped herror => rw [herror]; rfl
      next left hok => rw [hok]; rfl

/-- Where a template ends in a closing delimiter without a hyphen, another can be put behind it. The
whole has the nodes of both, those of the second where they now stand. It writes what the first
writes, and behind it what the second writes from the variables and the count that the first
leaves. -/
theorem parseTemplate_append {first second : String} {options : RenderOptions}
    {nodes nodes' : List Node} (hfirst : parseTemplate first options = .ok nodes)
    (hends : EndsPlainly first) (hsecond : parseTemplate second options = .ok nodes') :
    parseTemplate (first ++ second) options =
        .ok (nodes ++ movedNodes (Position.behind first.toList) nodes') ∧
      ∀ (renderer : Renderer) (root : Value),
        (renderer.render (nodes ++ movedNodes (Position.behind first.toList) nodes') root).1 =
          match Render.nodes renderer.options.maxIterations nodes (.ofDocument root) with
          | .error stopped => .error stopped.error
          | .ok between =>
              match Render.nodes renderer.options.maxIterations nodes'
                { between with output := "" } with
              | .error stopped => .error (stopped.error.moved (Position.behind first.toList))
              | .ok left => .ok (between.output ++ left.output) := by
  obtain ⟨hnodes, hknown⟩ := parseTemplate_eq_ok hfirst
  obtain ⟨hnodes', hknown'⟩ := parseTemplate_eq_ok hsecond
  constructor
  · apply parseTemplate_of_known (parseNodes_append hnodes hends hnodes')
    rw [unknownFilterInNodes?_append, unknownFilterInNodes?_moved, hknown, hknown']
    rfl
  · intro renderer root
    rw [renderer.render_append]
    cases Render.nodes renderer.options.maxIterations nodes (.ofDocument root) with
    | error stopped => rfl
    | ok between =>
        have hmoved := Render.movesWith_nodes (Position.behind first.toList)
          renderer.options.maxIterations nodes' { between with output := "" }
        dsimp only
        rw [hmoved]
        cases Render.nodes renderer.options.maxIterations nodes' { between with output := "" } <;>
          rfl

/-- A variable set in the one template is written by the other, whose first line goes on in the
second line of the whole. -/
theorem parseTemplate_append_second_line :
    let first := "é\n{% assign x = 1 %}"
    let second := "ü\x7b\x7b x \x7d\x7d\n\x7b\x7b x \x7d\x7d"
    let options : RenderOptions := {}
    let assigned : List Node := [.text "é\n", .assign "x" (.literal (.number (.int 1))) ⟨2, 1, 3⟩]
    let written : List Node := [.text "ü", .output (.path [.field "x"]) ⟨1, 2, 2⟩, .text "\n",
      .output (.path [.field "x"]) ⟨2, 1, 10⟩]
    let behind : List Node := [.text "ü", .output (.path [.field "x"]) ⟨2, 20, 23⟩, .text "\n",
      .output (.path [.field "x"]) ⟨3, 1, 31⟩]
    (parseTemplate first options = .ok assigned ∧ EndsPlainly first ∧
        parseTemplate second options = .ok written) ∧
      parseTemplate (first ++ second) options = .ok (assigned ++ behind) ∧
      ((Renderer.ofOptions options).render (assigned ++ behind) (.object [])).1 =
        .ok "é\nü1\n1" := by
  intro first second options assigned written behind
  have hfirst : parseTemplate first options = .ok assigned :=
    parseTemplate_of_known (by decide +kernel) rfl
  have hsecond : parseTemplate second options = .ok written :=
    parseTemplate_of_known (by decide +kernel) rfl
  have hlast : (tokenize first.toList).tokens.getLast? =
      some ⟨.tagClose, "%\x7d", ⟨2, 17, 19⟩⟩ := by decide +kernel
  have hends : EndsPlainly first := .closing .logic hlast rfl rfl
  have hbehind : movedNodes (Position.behind first.toList) written = behind := by decide +kernel
  obtain ⟨hparse, hrender⟩ := parseTemplate_append hfirst hends hsecond
  rw [hbehind] at hparse hrender
  exact ⟨⟨hfirst, hends, hsecond⟩, hparse, (hrender _ _).trans (by decide +kernel)⟩

end TextTemplate
