import TextTemplate.Proofs.Expr.Chain
import TextTemplate.Proofs.Parser.BlockCompleteness
import TextTemplate.Proofs.Render.Locality
/-! # What a `case` means

A `case` compares one value with the values of its arms, in order, and renders the first arm that
has an equal one. No node says so: the parser makes a branch of it, and of each arm a condition in
which the subject is repeated for every value. The branch does what the `case` means.
-/

namespace TextTemplate

/-- An arm of a `case` as it is written. It has at least one value. -/
structure WhenArm where
  first : Expr
  others : List Expr
  body : List Node
  position : Position

/-- A `case` as it is written, with what stands in front of its first arm. -/
structure WrittenCase where
  subject : Expr
  lead : List Node
  arms : List WhenArm
  otherwise : List Node

namespace WhenArm

/-- The values of an arm, in order. -/
def values (arm : WhenArm) : List Expr := arm.first :: arm.others

/-- Whether one of the values equals the subject. No value behind such a one is evaluated. -/
def isChosen (context : Context) (subject : Value) (arm : WhenArm) : Except TemplateError Bool :=
  arm.values.anyM fun expr => do
    let value ← context.evaluate expr
    pure (subject.equal value)

/-- The arm of a branch that the parser makes of an arm. -/
def lowered (subject : Expr) (arm : WhenArm) : Arm :=
  ⟨Expr.balanced .or (.binary .eq subject arm.first) (arm.others.map (.binary .eq subject)),
    arm.body, arm.position⟩

end WhenArm

namespace WrittenCase

/-- The nodes that the parser makes of a `case`. -/
def nodes (written : WrittenCase) : List Node :=
  Parser.caseNodes (written.arms.map (WhenArm.lowered written.subject)) written.otherwise

/-- Render the first arm that is chosen, or else the `else` part. The subject is evaluated once, in
front of all values, and not at all where there is no arm. What is in front of the arms is not
rendered. -/
def render (maxIterations : Nat) (written : WrittenCase) (state : RenderState) :
    Except Stopped RenderState :=
  match written.arms with
  | [] => Render.nodes maxIterations written.otherwise state
  | arms => do
    let context := state.context maxIterations
    let subject ← state.stop (context.evaluate written.subject)
    match ← state.stop (arms.findM? (WhenArm.isChosen context subject)) with
    | some arm => Render.nodes maxIterations arm.body state
    | none => Render.nodes maxIterations written.otherwise state

end WrittenCase

/-! ## Conditions -/

namespace Context

variable {context : Context} {subject : Expr} {value : Value}

/-- Operands of an `or` are evaluated in order, up to the first that holds. -/
theorem scan_true (operands : List Expr) :
    context.scan true operands = operands.anyM context.holds := by
  induction operands with
  | nil => rfl
  | cons operand rest ih =>
      simp only [scan, List.anyM, ih]
      cases context.holds operand with
      | error error => rfl
      | ok found => cases found <;> rfl

/-- A comparison with the subject holds if both values are equal. -/
theorem holds_eq (expr : Expr) :
    context.holds (.binary .eq subject expr) =
      (do
        let value ← context.evaluate subject
        let other ← context.evaluate expr
        pure (value.equal other)) := by
  simp only [holds, evaluate]
  cases context.evaluate subject with
  | error error => rfl
  | ok value => cases context.evaluate expr <;> rfl

/-- Once the subject has a value, an arm that the parser makes is taken if the written one is
chosen. -/
theorem holds_lowered (hsubject : context.evaluate subject = .ok value) (arm : WhenArm) :
    context.holds (arm.lowered subject).condition = arm.isChosen context value := by
  have hmap : arm.values.map (Expr.binary .eq subject) =
      .binary .eq subject arm.first :: arm.others.map (.binary .eq subject) := rfl
  rw [WhenArm.lowered, holds_balanced rfl, scan_true, ← hmap, WhenArm.isChosen]
  induction arm.values with
  | nil => rfl
  | cons expr exprs ih =>
      simp only [List.map_cons, List.anyM, ih, holds_eq, hsubject]
      rfl

/-- A subject that cannot be evaluated ends the first test. -/
theorem holds_lowered_error {error : TemplateError}
    (hsubject : context.evaluate subject = .error error) (arm : WhenArm) :
    context.holds (arm.lowered subject).condition = .error error := by
  rw [WhenArm.lowered, holds_balanced rfl]
  exact scan_cons_of_error (by rw [holds_eq, hsubject]; rfl) _

end Context

/-! ## Arms -/

namespace Render

variable {maxIterations : Nat} {state : RenderState}

/-- A branch tries its own condition first, and then its arms. -/
theorem nodes_branch (condition : Expr) (body : List Node) (arms : List Arm)
    (otherwise : List Node) (position : Position) :
    nodes maxIterations [.branch condition body arms otherwise position] state =
      firstArm maxIterations (⟨condition, body, position⟩ :: arms) (nodes maxIterations otherwise)
        state := by
  rw [nodes_singleton, node]
  rfl

/-- The first arm is taken if its condition holds, and otherwise the arms behind it decide. -/
theorem firstArm_cons (arm : Arm) (arms : List Arm)
    (otherwise : RenderState → Except Stopped RenderState) :
    firstArm maxIterations (arm :: arms) otherwise state =
      (do
        if ← state.stop ((state.context maxIterations).holds arm.condition) then
          nodes maxIterations arm.body state
        else firstArm maxIterations arms otherwise state) := by
  cases arm
  rfl

/-- The arms that the parser makes are tried as those that are written. -/
theorem firstArm_lowered {subject : Expr} {value : Value}
    (hsubject : (state.context maxIterations).evaluate subject = .ok value) (arms : List WhenArm)
    (otherwise : RenderState → Except Stopped RenderState) :
    firstArm maxIterations (arms.map (WhenArm.lowered subject)) otherwise state =
      (do
        match ← state.stop
            (arms.findM? (WhenArm.isChosen (state.context maxIterations) value)) with
        | some arm => nodes maxIterations arm.body state
        | none => otherwise state) := by
  induction arms with
  | nil => rfl
  | cons arm arms ih =>
      rw [List.map_cons, firstArm_cons, Context.holds_lowered hsubject, List.findM?, ih]
      cases arm.isChosen (state.context maxIterations) value with
      | error error => rfl
      | ok chosen => cases chosen <;> rfl

/-- A subject that fails ends a `case` that has an arm. -/
theorem firstArm_lowered_error {subject : Expr} {error : TemplateError}
    (hsubject : (state.context maxIterations).evaluate subject = .error error) (arm : WhenArm)
    (arms : List Arm) (otherwise : RenderState → Except Stopped RenderState) :
    firstArm maxIterations (arm.lowered subject :: arms) otherwise state =
      .error ⟨error, state⟩ := by
  rw [firstArm_cons, Context.holds_lowered_error hsubject]
  rfl

end Render

/-- The nodes that the parser makes of a `case` do what the `case` means, in every state: they write
the same, bind the same and end in the same error. -/
theorem WrittenCase.nodes_eq_render (written : WrittenCase) (maxIterations : Nat)
    (state : RenderState) :
    Render.nodes maxIterations written.nodes state = written.render maxIterations state := by
  obtain ⟨subject, lead, arms, otherwise⟩ := written
  cases arms with
  | nil => rfl
  | cons arm arms =>
      have hbranch : Render.nodes maxIterations (nodes ⟨subject, lead, arm :: arms, otherwise⟩)
          state =
          Render.firstArm maxIterations ((arm :: arms).map (WhenArm.lowered subject))
            (Render.nodes maxIterations otherwise) state :=
        Render.nodes_branch _ _ _ _ _
      rw [hbranch, render]
      cases hsubject : (state.context maxIterations).evaluate subject with
      | error error =>
          rw [List.map_cons, Render.firstArm_lowered_error hsubject]
          simp only [hsubject]
          rfl
      | ok value =>
          rw [Render.firstArm_lowered hsubject]
          simp only [hsubject]
          rfl

/-! ## Tokens -/

namespace Grammar

open TextTemplate.Parser (EndTag)

/-- The tokens of the arms of a `case`. -/
inductive WhenArms (inner : Level) : List Token → List WhenArm → Prop
  | nil : WhenArms inner [] []
  | cons {start tokens more close inside rest : List Token} {position : Position} {first : Expr}
      {others : List Expr} {nodes : List Node} {survey : Survey} {arms : List WhenArm}
      (tag : TagStart ⟨.whenTag, position⟩ start) (here : inner.primary tokens first)
      (values : Items (Behind [.comma, .keyword .or] inner.primary) more others)
      (close_end : TagEnd close) (body : inner.body inside nodes survey)
      (behind : WhenArms inner rest arms) :
      WhenArms inner (start ++ ((tokens ++ more) ++ (close ++ (inside ++ rest))))
        (⟨first, others, nodes, position⟩ :: arms)

/-- The tokens of a `case`, behind its first word. -/
inductive Case (inner : Level) : List Token → WrittenCase → Prop
  | intro {head close inside more rest : List Token} {subject : Expr} {lead otherwise : List Node}
      {arms : List WhenArm} {survey survey' : Survey}
      (here : Expression inner.primary head subject) (close_end : TagEnd close)
      (before : inner.body inside lead survey) (behind : WhenArms inner more arms)
      (closing : Closing .endCase inner.body rest otherwise survey') :
      Case inner (head ++ (close ++ (inside ++ (more ++ rest)))) ⟨subject, lead, arms, otherwise⟩

variable {inner : Level} {tokens : List Token} {subject : Expr}

/-- The arms of a branch that a `case` becomes are those of a written one. -/
theorem Arms.written {arms : List Arm} {survey : Survey}
    (h : Arms .whenTag (When inner.primary subject) inner.body tokens arms survey) :
    ∃ written : List WhenArm, arms = written.map (WhenArm.lowered subject) ∧
      WhenArms inner tokens written := by
  induction h with
  | nil => exact ⟨[], rfl, .nil⟩
  | cons tag here close_end inside more ih =>
      obtain ⟨written, rfl, hwritten⟩ := ih
      obtain ⟨hfirst, hothers, htree⟩ := here
      obtain rfl := Expr.balanced_eq_iff.mpr htree
      exact ⟨_ :: written, rfl, .cons tag hfirst hothers close_end inside hwritten⟩

/-- What is written as the arms of a `case` are the arms of a branch, with the subject in each
condition. -/
theorem WhenArms.arms {arms : List WhenArm} (h : WhenArms inner tokens arms) (subject : Expr) :
    ∃ survey, Arms .whenTag (When inner.primary subject) inner.body tokens
      (arms.map (WhenArm.lowered subject)) survey := by
  induction h with
  | nil => exact ⟨_, .nil⟩
  | cons tag here values close_end body behind ih =>
      obtain ⟨survey, harms⟩ := ih
      refine ⟨_, .cons tag (.intro here values ?_) close_end body harms⟩
      exact Expr.balanced_eq_iff.mp rfl

/-- The nodes of a `case` block are those of a written one. -/
theorem Block.written {position : Position} {nodes : List Node} {survey : Survey}
    (h : Block inner ⟨.caseTag, position⟩ tokens nodes survey) :
    ∃ written : WrittenCase, nodes = written.nodes ∧ Case inner tokens written := by
  cases h with
  | caseTag here close_end inside others closing =>
      obtain ⟨arms, hmap, harms⟩ := others.written
      refine ⟨_, ?_, .intro here close_end inside harms closing⟩
      rw [WrittenCase.nodes, ← hmap]
      rfl
  | armless here close_end inside closing =>
      exact ⟨_, rfl, .intro here close_end inside .nil closing⟩

end Grammar

namespace Parser

open Grammar

variable {inner : Inner} {level : Level}

/-- The parser makes the nodes of a `case` as it is written. -/
theorem TakesLevel.writtenCase (h : TakesLevel inner level) {block : OpenBlock}
    {tokens rest : List Token} {written : WrittenCase} (hcase : Case level tokens written) :
    TakesAs (Parser.caseBlock inner block) rest tokens written.nodes := by
  obtain ⟨here, close_end, before, behind, closing⟩ := hcase
  obtain ⟨survey, harms⟩ := behind.arms _
  exact h.caseBlock here close_end before harms closing

end Parser

/-- Whatever a `case` says, its nodes do what it means, in every state and under every limit: they
write the same, bind the same and end in the same error. The nodes that the parser makes of some
tokens are those of a `case` that these tokens spell, and what spells a `case` is parsed. -/
theorem case_means_as_written :
    (∀ (written : WrittenCase) maxIterations state,
      Render.nodes maxIterations written.nodes state = written.render maxIterations state) ∧
    ∀ (limit budget : Nat) (position : Position) (cursor : Cursor),
      let parse := Parser.caseBlock ⟨Parser.primary limit budget, Parser.body limit budget⟩
        ⟨.caseTag, position⟩
      let level : Grammar.Level := ⟨Grammar.Primary budget, Grammar.Nodes budget⟩
      (∀ nodes next, parse cursor = .ok (nodes, next) →
        ∃ tokens written, cursor.tokens = tokens ++ next.tokens ∧
          Grammar.Case level tokens written ∧ ∀ maxIterations state,
            Render.nodes maxIterations nodes state = written.render maxIterations state) ∧
      ∀ tokens rest written, cursor.tokens = tokens ++ rest → Grammar.Case level tokens written →
        ∃ nodes next, parse cursor = .ok (nodes, next) ∧ next.tokens = rest ∧
          ∀ maxIterations state,
            Render.nodes maxIterations nodes state = written.render maxIterations state := by
  refine ⟨WrittenCase.nodes_eq_render, ?_⟩
  intro limit budget position cursor parse level
  constructor
  · intro nodes next hparse
    obtain ⟨level', hlevel, hreads⟩ := Parser.readsLevels_inner? limit (budget + 1) _ rfl
    cases hlevel
    obtain ⟨tokens, htokens, -, survey, hblock⟩ := hreads.caseBlock cursor nodes next hparse
    obtain ⟨written, rfl, hcase⟩ := hblock.written
    exact ⟨tokens, written, htokens, hcase, written.nodes_eq_render⟩
  · intro tokens rest written htokens hcase
    obtain ⟨inner, hinner, htakes⟩ := Parser.takesLevels_inner? limit (budget + 1) _ rfl
    cases hinner
    obtain ⟨next, hparse, hnext⟩ := htakes.writtenCase hcase cursor htokens
    exact ⟨written.nodes, next, hparse, hnext, written.nodes_eq_render⟩

/-- A `case` with two values in one arm, and with a text in front of it. The arm becomes a branch
whose condition names the subject twice; the text is in no node. -/
theorem case_means_as_written_two_values :
    let token (kind : TokenKind) (text : String) : Token := ⟨kind, text, Position.start⟩
    let tokens := [token .identifier "x", token .tagClose "%\x7d", token .literal "-",
      token .tagOpen "\x7b%", token (.keyword .whenTag) "when", token .number "1",
      token .comma ",", token .number "2", token .tagClose "%\x7d", token .literal "a",
      token .tagOpen "\x7b%", token (.keyword .endCase) "endcase", token .tagClose "%\x7d"]
    let subject : Expr := .path [.field "x"]
    let number (n : Int) : Expr := .literal (.number (.int n))
    let written : WrittenCase :=
      ⟨subject, [.text "-"], [⟨number 1, [number 2], [.text "a"], Position.start⟩], []⟩
    let branch : Node :=
      .branch (.binary .or (.binary .eq subject (number 1)) (.binary .eq subject (number 2)))
        [.text "a"] [] [] Position.start
    let parse := Parser.caseBlock ⟨Parser.primary 2 1, Parser.body 2 1⟩ ⟨.caseTag, Position.start⟩
    Grammar.Case ⟨Grammar.Primary 1, Grammar.Nodes 1⟩ tokens written ∧
      ∃ next, parse (Parser.start ⟨tokens, none⟩) = .ok ([branch], next) ∧ next.tokens = [] ∧
        ∀ maxIterations state,
          Render.nodes maxIterations [branch] state = written.render maxIterations state := by
  intro token tokens subject number written branch parse
  have hsubject : Grammar.Expression (Grammar.Primary 1) [token .identifier "x"] subject :=
    Grammar.expression_of_primary (.path rfl .nil)
  have hone : Grammar.Primary 1 [token .number "1"] (number 1) :=
    .number rfl (.int (Parser.readInt64?_eq_some_iff_writes.mp (by decide)))
  have htwo : Grammar.Primary 1 [token .number "2"] (number 2) :=
    .number rfl (.int (Parser.readInt64?_eq_some_iff_writes.mp (by decide)))
  have hcomma : Grammar.Behind [.comma, .keyword .or] (Grammar.Primary 1)
      [token .comma ",", token .number "2"] (number 2) :=
    .intro List.mem_cons_self htwo
  have htext (text : String) : Grammar.Nodes 1 [token .literal text] [.text text] _ :=
    .cons (.text rfl) .nil
  have hend : Grammar.TagEnd [token .tagClose "%\x7d"] := .intro rfl
  have hwhen : Grammar.TagStart ⟨.whenTag, Position.start⟩
      [token .tagOpen "\x7b%", token (.keyword .whenTag) "when"] := .intro rfl rfl rfl
  have hendcase : Grammar.TagStart ⟨.endCase, Position.start⟩
      [token .tagOpen "\x7b%", token (.keyword .endCase) "endcase"] := .intro rfl rfl rfl
  have harms : Grammar.WhenArms ⟨Grammar.Primary 1, Grammar.Nodes 1⟩ _ written.arms :=
    .cons hwhen hone (.cons hcomma .nil) hend (htext "a") .nil
  have hcase : Grammar.Case ⟨Grammar.Primary 1, Grammar.Nodes 1⟩ tokens written :=
    .intro hsubject hend (htext "-") harms (.plain (.intro hendcase hend))
  have htree : Expr.balanced .or (.binary .eq subject (number 1)) [.binary .eq subject (number 2)] =
      .binary .or (.binary .eq subject (number 1)) (.binary .eq subject (number 2)) :=
    Expr.balanced_eq_iff.mpr (.halves (.operand _) (.operand _) (.inl rfl))
  have hbranch : written.nodes = [branch] :=
    congrArg (fun condition => [Node.branch condition [.text "a"] [] [] Position.start]) htree
  obtain ⟨inner, hinner, htakes⟩ := Parser.takesLevels_inner? 2 2 _ rfl
  cases hinner
  obtain ⟨last, hlast, -⟩ := htakes.writtenCase hcase (Parser.start ⟨tokens, none⟩)
    (List.append_nil tokens).symm
  rw [hbranch] at hlast
  obtain ⟨nodes, next, hnodes, hnext, hrender⟩ :=
    (case_means_as_written.2 2 1 Position.start (Parser.start ⟨tokens, none⟩)).2 tokens [] written
      (List.append_nil tokens).symm hcase
  obtain ⟨rfl, rfl⟩ := Prod.mk.inj (Except.ok.inj (hnodes.symm.trans hlast))
  exact ⟨hcase, _, hnodes, hnext, hrender⟩

end TextTemplate
