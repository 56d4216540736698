import TextTemplate.Proofs.Node.Moved
import TextTemplate.Proofs.Token.Lookahead
import TextTemplate.Proofs.Token.Places
/-! # Sources one behind the other

The lexer carries along where it is, and nothing else of what it has read of the tags behind it. So
behind a source that ends in a closing delimiter without a hyphen it starts afresh in another place,
and its tokens there are those of the second source alone, moved to behind the first.
-/

namespace TextTemplate

open Text

/-! ## The lexer in another place -/

/-- Behind the position all places are moved as the position itself is. -/
def Position.Follows (f : Position → Position) (position : Position) : Prop :=
  ∀ text, f (position.advanceBy text) = (f position).advanceBy text

/-- Behind more text, a position still follows. -/
theorem Position.Follows.advanceBy {f : Position → Position} {position : Position}
    (h : position.Follows f) (text : List Char) : (position.advanceBy text).Follows f := by
  intro more
  rw [← Position.advanceBy_append, h, h, Position.advanceBy_append]

/-- The tag at another place. -/
def OpenTag.moved (f : Position → Position) (tag : OpenTag) : OpenTag :=
  { tag with opened := f tag.opened }

/-- The mode at another place. -/
def LexerMode.moved (f : Position → Position) : LexerMode → LexerMode
  | .text trim => .text trim
  | .inside tag => .inside (tag.moved f)
  | .verbatim opener opened trim => .verbatim opener (f opened) trim

/-- The lexer at another place. -/
def Lexer.moved (f : Position → Position) (lexer : Lexer) : Lexer :=
  ⟨lexer.rest, f lexer.position, lexer.mode.moved f⟩

/-- The step at another place. -/
def LexerStep.moved (f : Position → Position) : LexerStep → LexerStep
  | .finished => .finished
  | .failed error => .failed (error.moved f)
  | .token read next => .token (read.moved f) (next.moved f)

namespace Lexer

variable {f : Position → Position} {position : Position}

/-- Where a tag opens, the lexer does the same in another place. -/
theorem openTag_moved (h : position.Follows f) (text : List Char) (mode mode' : LexerMode) :
    openTag ⟨text, f position, mode'⟩ = (openTag ⟨text, position, mode⟩).moved f := by
  rw [openTag_eq, openTag_eq]
  split
  next => simp only [LexerStep.moved, Token.moved, Lexer.moved, LexerMode.moved, OpenTag.moved, h _]
  next => rfl

/-- A run of text is the same in another place. -/
theorem textStep_moved (h : position.Follows f) (trim : Bool) (run after : List Char) :
    textStep (f position) trim run after = (textStep position trim run after).moved f := by
  unfold textStep
  dsimp only
  rw [← h]
  split
  · split
    · rfl
    · exact openTag_moved (h.advanceBy run) after _ _
  · simp only [LexerStep.moved, Token.moved, Lexer.moved, LexerMode.moved, apply_ite f, h _]

theorem modeAfter_moved (tag : OpenTag) (trim : Bool) :
    modeAfter (tag.moved f) trim = (modeAfter tag trim).moved f := by
  obtain ⟨delimiter, opened, last?, verbatim?⟩ := tag
  cases verbatim? <;> rfl

/-- Inside a tag the lexer does the same in another place. -/
theorem insideStep_moved (h : position.Follows f) (rest : List Char) (tag : OpenTag) :
    insideStep ⟨rest, f position, .inside (tag.moved f)⟩ (tag.moved f) =
      (insideStep ⟨rest, position, .inside tag⟩ tag).moved f := by
  have hgap := h.advanceBy (rest.takeWhile isBlank)
  simp only [insideStep, ← h _]
  have hdelimiter : (tag.moved f).delimiter = tag.delimiter := rfl
  have hlast : (tag.moved f).last? = tag.last? := rfl
  rw [hdelimiter, hlast]
  split
  next => simp only [LexerStep.moved, Token.moved, Lexer.moved, modeAfter_moved, hgap _]
  next =>
    split
    next =>
      simp only [LexerStep.moved, Token.moved, Lexer.moved, LexerMode.moved, hgap _]
      rfl
    next => rfl
    next => rfl

/-- A step does the same in another place. -/
theorem step_moved {lexer : Lexer} (h : lexer.position.Follows f) :
    (lexer.moved f).step = lexer.step.moved f := by
  obtain ⟨rest, position, mode⟩ := lexer
  cases mode with
  | text trim => exact textStep_moved h trim _ _
  | inside tag => exact insideStep_moved h rest tag
  | verbatim opener opened trim =>
      simp only [step, Lexer.moved, LexerMode.moved]
      split
      next => exact textStep_moved h trim _ _
      next => rfl

/-- The tokens of a source are the same in another place, and so is the error behind them. -/
theorem run_moved {lexer : Lexer} (h : lexer.position.Follows f) (fuel : Nat) :
    run fuel (lexer.moved f) = (run fuel lexer).moved f := by
  induction fuel generalizing lexer with
  | zero => rfl
  | succ fuel ih =>
      rw [run_succ, run_succ, step_moved h]
      cases hstep : lexer.step with
      | finished => rfl
      | failed error => rfl
      | token token next =>
          obtain ⟨text, -, -, hposition⟩ := took_of_step hstep
          rw [LexerStep.moved, streamOf, ih (hposition ▸ h.advanceBy text)]
          rfl

/-! ## The end of a source -/

variable {lexer last : Lexer} {tokens : List Token} {closing : Token} {delimiter : Delimiter}

/-- The last of some steps gives the last token. -/
theorem Steps.exists_last (h : Steps lexer tokens last) (hlast : tokens.getLast? = some closing) :
    ∃ lexer' : Lexer, lexer'.step = .token closing last := by
  induction h with
  | refl => cases hlast
  | @step lexer next last token tokens here rest ih =>
      cases tokens with
      | nil =>
          cases hlast
          cases rest
          exact ⟨lexer, here⟩
      | cons token' tokens => exact ih hlast

/-- Behind a closing delimiter without a hyphen nothing is trimmed. -/
theorem mode_of_plain_closing (h : lexer.step = .token closing last)
    (hkind : closing.kind = delimiter.closeKind)
    (htext : closing.text = String.ofList delimiter.closing) :
    last.mode = .text false ∨ ∃ opener opened, last.mode = .verbatim opener opened false := by
  cases step_eq_token_iff.mp h with
  | literal cuts kept => cases delimiter <;> cases hkind
  | @opening _ _ after _ _ _ _ _ cuts bare ne_nil opens =>
      obtain ⟨-, rfl, -⟩ := openTag_eq_token_iff.mp opens
      generalize delimiterOf after = delimiter' at hkind
      cases delimiter <;> cases delimiter' <;> cases hkind
  | @closing _ text _ tag width trim blank ahead closes =>
      obtain ⟨after, rfl, rfl⟩ := closingAt?_eq_some closes
      rw [List.take_left, String.ofList_inj] at htext
      have hlength := congrArg List.length htext
      rw [List.length_append, Delimiter.closing_length, Delimiter.closing_length] at hlength
      have htrim : trim = false := by
        cases trim with
        | false => rfl
        | true => cases hlength
      rw [htrim, modeAfter]
      cases tag.verbatim? with
      | none => exact .inl rfl
      | some opener => exact .inr ⟨opener, tag.opened, rfl⟩
  | inner blank ahead stays reads =>
      have hinner := (Lexeme.bounds_of_read reads).1
      exact absurd ⟨delimiter, hkind⟩ (not_closes_of_isInner hinner)

/-- The lexer does not finish in front of a tag. -/
theorem textStep_ne_finished {trim : Bool} {run after : List Char} (hafter : after ≠ []) :
    textStep position trim run after ≠ .finished := by
  by_cases hkept : keptText trim run after = []
  · rw [textStep_of_bare hkept hafter, openTag_eq]
    split <;> (intro h; cases h)
  · rw [textStep_of_kept hkept]
    intro h
    cases h

/-- The lexer finishes behind a closing delimiter without a hyphen only at the end of the source,
and not in a verbatim block. -/
theorem finished_of_plain_closing (h : last.step = .finished)
    (hmode : last.mode = .text false ∨ ∃ opener opened, last.mode = .verbatim opener opened false) :
    last.rest = [] ∧ last.mode = .text false := by
  obtain ⟨rest, position, mode⟩ := last
  rcases hmode with rfl | ⟨opener, opened, rfl⟩
  · obtain ⟨run, after, hsplit⟩ : ∃ run after, splitText rest = (run, after) := ⟨_, _, rfl⟩
    obtain ⟨rfl, -⟩ := splitText_eq hsplit
    rw [step_of_cuts (.text hsplit)] at h
    by_cases hafter : after = []
    · subst hafter
      by_cases hrun : run = []
      · exact ⟨by rw [hrun, List.append_nil], rfl⟩
      · have hkept : keptText false run [] ≠ [] := hrun
        rw [textStep_of_kept hkept] at h
        cases h
    · exact absurd h (textStep_ne_finished hafter)
  · cases hsplit : splitVerbatim? opener.endWord rest with
    | none =>
        rw [Keyword.endWord] at hsplit
        simp only [step, hsplit] at h
        cases h
    | some cut =>
        obtain ⟨run, after⟩ := cut
        have hstops : StopsFirst (RunStops (some (opener, opened))) run after :=
          (stopsFirst_of_splitVerbatim? hsplit).2
        have hafter : after ≠ [] :=
          fun hnil => not_opensTag_nil (hnil ▸ opensTag_of_startsEndTag hstops.1)
        rw [step_of_cuts (.verbatim hsplit)] at h
        exact absurd h (textStep_ne_finished hafter)

end Lexer

/-! ## Positions behind a text -/

/-- The position that a place of a text has when it stands behind another text. -/
def Position.behind (text : List Char) (position : Position) : Position where
  line := position.line + text.count '\n'
  column := if position.line = 1 then position.column + (lastLine text).length else position.column
  offset := position.offset + Position.byteLength text

/-- Behind a text, a place of another is where it is in both together. -/
theorem Position.behind_positionBehind (text text' : List Char) :
    (positionBehind text').behind text = positionBehind (text ++ text') := by
  have hline := lastLine_append text text'
  have hline' := lastLine_append [] text'
  rw [List.nil_append] at hline'
  rw [positionBehind_eq, positionBehind_eq, behind, List.count_append, byteLength_append, hline]
  simp only [Position.mk.injEq]
  refine ⟨by omega, ?_, Nat.add_comm _ _⟩
  by_cases hcount : text'.count '\n' = 0
  · have hwhole : lastLine text' = text' := by rwa [if_pos hcount] at hline'
    rw [if_pos (by omega), if_pos hcount, hwhole, List.length_append]
    omega
  · rw [if_neg (by omega), if_neg hcount]

theorem Position.behind_start (text : List Char) :
    Position.start.behind text = positionBehind text := by
  have h := behind_positionBehind text []
  rwa [List.append_nil] at h

theorem Position.follows_behind (text : List Char) :
    Position.start.Follows (Position.behind text) := by
  intro more
  rw [behind_start, ← positionBehind_append]
  exact behind_positionBehind text more

open Lexer

/-- Behind a source that ends in a closing delimiter without a hyphen another source yields its own
tokens. -/
theorem tokenize_append {first : List Char} {closing : Token} {delimiter : Delimiter}
    (hfailure : (tokenize first).failure? = none)
    (hlast : (tokenize first).tokens.getLast? = some closing)
    (hkind : closing.kind = delimiter.closeKind)
    (htext : closing.text = String.ofList delimiter.closing) (second : List Char) :
    tokenize (first ++ second) =
      ((tokenize second).moved (Position.behind first)).behind (tokenize first).tokens := by
  obtain ⟨last, hsteps, hfinished⟩ : ∃ last,
      Steps (ofSource first) (tokenize first).tokens last ∧ last.step = .finished :=
    exists_steps (Nat.lt_succ_self _) hfailure
  obtain ⟨lexer, hclosing⟩ := hsteps.exists_last hlast
  obtain ⟨hnil, hmode⟩ :=
    finished_of_plain_closing hfinished (mode_of_plain_closing hclosing hkind htext)
  obtain ⟨text, hrest, hposition, hlength⟩ := hsteps.took
  obtain rfl : first = text := by rwa [hnil, List.append_nil] at hrest
  -- Where the first source ends, the second starts in another place.
  have hfollows := Position.follows_behind first
  have hstart : last.extended second = (ofSource second).moved (Position.behind first) := by
    have hplace : last.position = Position.start.behind first :=
      hposition.trans (Position.behind_start first).symm
    rw [Lexer.extended, Lexer.moved, hnil, hmode, hplace]
    rfl
  obtain ⟨fuel, hfuel⟩ := Nat.exists_eq_add_of_le' hlength
  have hrest : run (fuel + second.length + 1) (ofSource second) = tokenize second :=
    run_eq_of_lt (Nat.lt_succ_of_le (Nat.le_add_left _ _)) (Nat.lt_succ_self _)
  have hrun := (hsteps.extended hlast ⟨delimiter, hkind⟩ second).run (fuel + second.length + 1)
  rw [hstart, run_moved hfollows, hrest] at hrun
  have hfuel' : (first ++ second).length + 1 =
      fuel + second.length + 1 + (tokenize first).tokens.length := by
    rw [List.length_append]
    omega
  rw [tokenize, hfuel']
  exact hrun

end TextTemplate
