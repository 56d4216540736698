import TextTemplate.Proofs.Render.Locality
/-! # Capturing a text and printing it

What nodes write does not depend on what has been written before. So a capture, which starts with an
empty output, catches the text that its body would write in place, and to print the variable behind
it makes up for having caught it.
-/

namespace TextTemplate

theorem Scope.get?_set_self (scope : Scope) (name : String) (value : Value) :
    (scope.set name value).get? name = some value := by
  simp [Scope.get?, Scope.set, Scope.binding?]

namespace Render

variable {limit : Nat} {body : List Node}

/-- Nodes write behind whatever has been written, and do nothing else with it. -/
theorem nodes_behind (limit : Nat) (body : List Node) (scope : Scope) (buffer : String)
    (count : Nat) :
    nodes limit body ⟨scope, buffer, count⟩ =
      endedAs (RenderState.behind buffer) (nodes limit body ⟨scope, "", count⟩) := by
  have hbehind := (local_nodes limit body).behind buffer ⟨scope, "", count⟩
  rw [RenderState.behind, String.append_empty] at hbehind
  exact hbehind

/-- A variable with a text prints that text. -/
theorem node_output_text (state : RenderState) (name text : String) (position : Position) :
    node limit (.output (.path [.field name]) position) (state.bind name (.string text)) =
      .ok ((state.bind name (.string text)).write text) := by
  have hvalue : ((state.bind name (.string text)).context limit).evaluate (.path [.field name]) =
      .ok (.string text) :=
    Context.evaluate_field (Scope.get?_set_self state.scope name (.string text))
  rw [node_output_of_value position hvalue, Value.toText_string]

/-- A capture of a body that ends well, and the variable printed behind it. -/
theorem nodes_capture_of_ok {scope left : Scope} {count count' : Nat} {text : String}
    (h : nodes limit body ⟨scope, "", count⟩ = .ok ⟨left, text, count'⟩) (name buffer : String)
    (position position' : Position) :
    nodes limit [.capture name body position, .output (.path [.field name]) position']
        ⟨scope, buffer, count⟩ =
      .ok ⟨left.set name (.string text), buffer ++ text, count'⟩ := by
  have hcapture : node limit (.capture name body position) ⟨scope, buffer, count⟩ =
      .ok (RenderState.bind ⟨left, buffer, count'⟩ name (.string text)) := by
    rw [node, captured]
    simp only [h]
  rw [nodes, hcapture]
  refine (congrArg (· >>= _) (node_output_text _ name text position')).trans ?_
  rfl

/-- A body that fails ends the capture too, with the same error. The text of the body is lost, and
the buffer is as before. -/
theorem nodes_capture_of_error {scope left : Scope} {count count' : Nat} {text : String}
    {error : TemplateError}
    (h : nodes limit body ⟨scope, "", count⟩ = .error ⟨error, left, text, count'⟩)
    (name buffer : String) (position : Position) (rest : List Node) :
    nodes limit (.capture name body position :: rest) ⟨scope, buffer, count⟩ =
      .error ⟨error, left, buffer, count'⟩ := by
  have hcapture : node limit (.capture name body position) ⟨scope, buffer, count⟩ =
      .error ⟨error, left, buffer, count'⟩ := by
    rw [node, captured]
    simp only [h]
  rw [nodes, hcapture]
  rfl

/-- Nodes that end well write behind what has been written the text that they write into an empty
output; the variables and the count do not depend on that either. To capture the text and print it
writes the same text, and leaves the same variables, with the text bound in the innermost frame.
Nodes that do not end well end in the same error either way, whatever has been written. -/
theorem capture_then_output (limit : Nat) (body : List Node) (scope : Scope) (count : Nat) :
    (∃ text left count',
      nodes limit body ⟨scope, "", count⟩ = .ok ⟨left, text, count'⟩ ∧
      (∀ buffer, nodes limit body ⟨scope, buffer, count⟩ = .ok ⟨left, buffer ++ text, count'⟩) ∧
        ∀ name buffer position position',
          nodes limit [.capture name body position, .output (.path [.field name]) position']
              ⟨scope, buffer, count⟩ =
            .ok ⟨left.set name (.string text), buffer ++ text, count'⟩) ∨
      ∃ error text left count',
        nodes limit body ⟨scope, "", count⟩ = .error ⟨error, left, text, count'⟩ ∧
        (∀ buffer, nodes limit body ⟨scope, buffer, count⟩ =
          .error ⟨error, left, buffer ++ text, count'⟩) ∧
        ∀ name buffer position position',
          nodes limit [.capture name body position, .output (.path [.field name]) position']
              ⟨scope, buffer, count⟩ =
            .error ⟨error, left, buffer, count'⟩ := by
  cases halone : nodes limit body ⟨scope, "", count⟩ with
  | ok state =>
      obtain ⟨left, text, count'⟩ := state
      refine .inl ⟨text, left, count', rfl, ?_, ?_⟩
      · intro buffer
        rw [nodes_behind, halone]
        rfl
      · intro name buffer position position'
        exact nodes_capture_of_ok halone name buffer position position'
  | error stopped =>
      obtain ⟨error, left, text, count'⟩ := stopped
      refine .inr ⟨error, text, left, count', rfl, ?_, ?_⟩
      · intro buffer
        rw [nodes_behind, halone]
        rfl
      · intro name buffer position position'
        exact nodes_capture_of_error halone name buffer position _

/-- A body that assigns to the captured name itself. -/
example :
    let body : List Node :=
      [.text "a", .assign "x" (.literal (.string "b")) ⟨1, 1, 0⟩,
        .output (.path [.field "x"]) ⟨1, 2, 1⟩]
    let scope := Scope.ofDocument .null
    nodes 0 [.capture "x" body ⟨1, 1, 0⟩, .output (.path [.field "x"]) ⟨1, 3, 2⟩] ⟨scope, "<", 0⟩ =
      .ok ⟨(scope.set "x" (.string "b")).set "x" (.string "ab"), "<ab", 0⟩ := by rfl

end Render

end TextTemplate
