import TextTemplate.Proofs.Token.WordTag
/-! # The steps that yield a token

A step that yields a token takes some text from the source, never none. `Yields` tells the four
kinds of such steps apart, with what each looks at. A source is read by as many steps as it has
tokens, and more fuel than it has characters makes no difference.
-/

namespace TextTemplate

open Text

theorem Position.advanceBy_append (position : Position) (text text' : List Char) :
    position.advanceBy (text ++ text') = (position.advanceBy text).advanceBy text' :=
  List.foldl_append

namespace Lexer

/-- Where a lexer in text or in a verbatim body has a run of literal text ahead, it is cut off in
front of the next tag that counts. -/
inductive Cuts (rest : List Char) (trim : Bool) (run after : List Char) : LexerMode → Prop
  | text (split : splitText rest = (run, after)) : Cuts rest trim run after (.text trim)
  | verbatim {opener : Keyword} {opened : Position}
      (split : splitVerbatim? opener.endWord rest = some (run, after)) :
      Cuts rest trim run after (.verbatim opener opened trim)

/-- The step of a lexer yields a token and leads to another place. -/
inductive Yields : Lexer → Token → Lexer → Prop
  | literal {rest run after : List Char} {trim : Bool} {mode : LexerMode} {position : Position}
      (cuts : Cuts rest trim run after mode) (kept : keptText trim run after ≠ []) :
      Yields ⟨rest, position, mode⟩
        ⟨.literal, String.ofList (keptText trim run after),
          if trim then position.advanceBy (run.takeWhile isBlank) else position⟩
        ⟨after, position.advanceBy run, .text false⟩
  | opening {rest run after : List Char} {trim : Bool} {mode : LexerMode} {position : Position}
      {token : Token} {next : Lexer} (cuts : Cuts rest trim run after mode)
      (bare : keptText trim run after = []) (ne_nil : after ≠ [])
      (opens : openTag ⟨after, position.advanceBy run, .text false⟩ = .token token next) :
      Yields ⟨rest, position, mode⟩ token next
  | closing {gap text : List Char} {position : Position} {tag : OpenTag} {width : Nat} {trim : Bool}
      (blank : ∀ c ∈ gap, isBlank c = true) (ahead : ∀ c, text.head? = some c → isBlank c = false)
      (closes : closingAt? tag.delimiter text = some (width, trim)) :
      Yields ⟨gap ++ text, position, .inside tag⟩
        ⟨tag.delimiter.closeKind, String.ofList (text.take width), position.advanceBy gap⟩
        ⟨text.drop width, (position.advanceBy gap).advanceBy (text.take width), modeAfter tag trim⟩
  | inner {gap text : List Char} {position : Position} {tag : OpenTag} {lexeme : Lexeme}
      (blank : ∀ c ∈ gap, isBlank c = true) (ahead : ∀ c, text.head? = some c → isBlank c = false)
      (stays : closingAt? tag.delimiter text = none)
      (reads : Lexeme.read (tag.last? == some .dot) text = .ok lexeme) :
      Yields ⟨gap ++ text, position, .inside tag⟩
        ⟨lexeme.kind, String.ofList lexeme.text, position.advanceBy gap⟩
        ⟨text.drop lexeme.width, (position.advanceBy gap).advanceBy (text.take lexeme.width),
          .inside (tag.push lexeme.kind)⟩

/-- What is left of a run of text becomes a literal. -/
theorem textStep_of_kept {position : Position} {trim : Bool} {run after : List Char}
    (h : keptText trim run after ≠ []) :
    textStep position trim run after =
      .token
        ⟨.literal, String.ofList (keptText trim run after),
          if trim then position.advanceBy (run.takeWhile isBlank) else position⟩
        ⟨after, position.advanceBy run, .text false⟩ := by
  unfold textStep
  rw [if_neg (by simpa using h)]

/-- Where nothing is left of a run of text, the tag behind it opens at once. -/
theorem textStep_of_bare {position : Position} {trim : Bool} {run after : List Char}
    (h : keptText trim run after = []) (hafter : after ≠ []) :
    textStep position trim run after = openTag ⟨after, position.advanceBy run, .text false⟩ := by
  unfold textStep
  rw [if_pos (by simpa using h), if_neg (by simpa using hafter)]

theorem textStep_of_end {position : Position} {trim : Bool} {run : List Char}
    (h : keptText trim run [] = []) : textStep position trim run [] = .finished := by
  unfold textStep
  rw [if_pos (by simpa using h)]
  rfl

/-- Outside tags, a step is made on the run of text up to the next tag. -/
theorem step_of_cuts {rest run after : List Char} {trim : Bool} {mode : LexerMode}
    (h : Cuts rest trim run after mode) (position : Position) :
    step ⟨rest, position, mode⟩ = textStep position trim run after := by
  cases h with
  | text split => simp only [step, split]
  | verbatim split =>
      rw [Keyword.endWord] at split
      simp only [step, split]

theorem yields_of_textStep {rest run after : List Char} {trim : Bool} {mode : LexerMode}
    {position : Position} {token : Token} {next : Lexer} (hcuts : Cuts rest trim run after mode)
    (h : textStep position trim run after = .token token next) :
    Yields ⟨rest, position, mode⟩ token next := by
  by_cases hkept : keptText trim run after = []
  · by_cases hafter : after = []
    · subst hafter
      rw [textStep_of_end hkept] at h
      cases h
    · rw [textStep_of_bare hkept hafter] at h
      exact .opening hcuts hkept hafter h
  · rw [textStep_of_kept hkept] at h
    cases h
    exact .literal hcuts hkept

/-- Inside a tag, what follows the white space ahead decides. -/
theorem step_inside_append {gap text : List Char} (hgap : ∀ c ∈ gap, isBlank c = true)
    (hahead : ∀ c, text.head? = some c → isBlank c = false) (position : Position) (tag : OpenTag) :
    step ⟨gap ++ text, position, .inside tag⟩ =
      match closingAt? tag.delimiter text with
      | some (width, trim) =>
        .token ⟨tag.delimiter.closeKind, String.ofList (text.take width), position.advanceBy gap⟩
          ⟨text.drop width, (position.advanceBy gap).advanceBy (text.take width),
            modeAfter tag trim⟩
      | none =>
        match Lexeme.read (tag.last? == some .dot) text with
        | .ok lexeme =>
          .token ⟨lexeme.kind, String.ofList lexeme.text, position.advanceBy gap⟩
            ⟨text.drop lexeme.width, (position.advanceBy gap).advanceBy (text.take lexeme.width),
              .inside (tag.push lexeme.kind)⟩
        | .error (.unexpected c) => .failed ⟨.unexpectedCharacter c, position.advanceBy gap⟩
        | .error .unfinished => .failed ⟨.unterminatedTag tag.delimiter, tag.opened⟩ := by
  have hrest := trimStart_append hgap hahead
  rw [trimStart] at hrest
  simp only [step, insideStep, takeWhile_isBlank_append hgap hahead, hrest]
  cases tag.delimiter <;> rfl

/-- Every text is white space and what follows it. -/
theorem exists_gap (rest : List Char) : ∃ gap text, rest = gap ++ text ∧
    (∀ c ∈ gap, isBlank c = true) ∧ ∀ c, text.head? = some c → isBlank c = false := by
  obtain ⟨gap, hgap, hrest⟩ := exists_append_trimStart rest
  exact ⟨gap, trimStart rest, hrest, hgap, fun _ => not_isBlank_head_trimStart⟩

/-- The token that a step gives, told from where the lexer stands: text, a delimiter, or what is
read in a tag. -/
theorem step_eq_token_iff {lexer next : Lexer} {token : Token} :
    lexer.step = .token token next ↔ Yields lexer token next := by
  obtain ⟨rest, position, mode⟩ := lexer
  constructor
  · intro h
    cases mode with
    | text trim => exact yields_of_textStep (.text rfl) h
    | verbatim opener opened trim =>
        cases hsplit : splitVerbatim? opener.endWord rest with
        | none =>
            rw [Keyword.endWord] at hsplit
            simp only [step, hsplit] at h
            cases h
        | some cut =>
            have hcuts : Cuts rest trim cut.1 cut.2 (.verbatim opener opened trim) :=
              .verbatim hsplit
            rw [step_of_cuts hcuts] at h
            exact yields_of_textStep hcuts h
    | inside tag =>
        obtain ⟨gap, text, rfl, hgap, hahead⟩ := exists_gap rest
        rw [step_inside_append hgap hahead] at h
        split at h
        next hcloses =>
          cases h
          exact .closing hgap hahead hcloses
        next hstays =>
          split at h
          next hreads =>
            cases h
            exact .inner hgap hahead hstays hreads
          next => cases h
          next => cases h
  · intro h
    cases h with
    | literal cuts kept => rw [step_of_cuts cuts, textStep_of_kept kept]
    | opening cuts bare ne_nil opens => rw [step_of_cuts cuts, textStep_of_bare bare ne_nil, opens]
    | closing blank ahead closes =>
        rw [step_inside_append blank ahead]
        simp only [closes]
    | inner blank ahead stays reads =>
        rw [step_inside_append blank ahead]
        simp only [stays, reads]

/-! ## What a step takes -/

/-- The number of characters in an opening delimiter. -/
def openWidth (text : List Char) : Nat := if opensTrimmed text then 3 else 2

theorem openTag_eq (text : List Char) (position : Position) (mode : LexerMode) :
    openTag ⟨text, position, mode⟩ =
      if occurs (delimiterOf text).closing (text.drop (openWidth text)) then
        .token ⟨(delimiterOf text).openKind, String.ofList (text.take (openWidth text)), position⟩
          ⟨text.drop (openWidth text), position.advanceBy (text.take (openWidth text)),
            .inside ⟨delimiterOf text, position, none, none⟩⟩
      else .failed ⟨.unterminatedTag (delimiterOf text), position⟩ := by
  simp only [openTag, openWidth]
  cases delimiterOf text <;> rfl

/-- A tag opens if its closing delimiter is somewhere behind. -/
theorem openTag_eq_token_iff {text : List Char} {position : Position} {mode : LexerMode}
    {token : Token} {next : Lexer} :
    openTag ⟨text, position, mode⟩ = .token token next ↔
      occurs (delimiterOf text).closing (text.drop (openWidth text)) = true ∧
        token = ⟨(delimiterOf text).openKind, String.ofList (text.take (openWidth text)),
          position⟩ ∧
        next = ⟨text.drop (openWidth text), position.advanceBy (text.take (openWidth text)),
          .inside ⟨delimiterOf text, position, none, none⟩⟩ := by
  rw [openTag_eq]
  split
  next hcloses =>
    rw [LexerStep.token.injEq]
    constructor
    · rintro ⟨rfl, rfl⟩
      exact ⟨hcloses, rfl, rfl⟩
    · rintro ⟨-, rfl, rfl⟩
      exact ⟨rfl, rfl⟩
  next hcloses => exact iff_of_false nofun fun h => hcloses h.1

/-- A tag that is opened has room for both of its delimiters. -/
theorem length_of_openTag {text : List Char} {position : Position} {mode : LexerMode}
    {token : Token} {next : Lexer} (h : openTag ⟨text, position, mode⟩ = .token token next) :
    openWidth text + 2 ≤ text.length := by
  obtain ⟨hcloses, -, -⟩ := openTag_eq_token_iff.mp h
  obtain ⟨front, back, hdrop⟩ := occurs_iff.mp hcloses
  have hlength := congrArg List.length hdrop
  simp only [List.length_drop, List.length_append, Delimiter.closing_length] at hlength
  omega

theorem two_le_openWidth (text : List Char) : 2 ≤ openWidth text := by
  unfold openWidth
  split <;> decide

/-- The lexer has taken some text and stands behind it. -/
structure Took (lexer : Lexer) (text : List Char) (next : Lexer) : Prop where
  ne_nil : text ≠ []
  rest_eq : lexer.rest = text ++ next.rest
  position_eq : next.position = lexer.position.advanceBy text

theorem Cuts.rest_eq {rest run after : List Char} {trim : Bool} {mode : LexerMode}
    (h : Cuts rest trim run after mode) : rest = run ++ after := by
  cases h with
  | text split => exact (splitText_eq split).1
  | verbatim split => exact (splitVerbatim?_eq_some split).1

theorem ne_nil_of_keptText {trim : Bool} {run after : List Char}
    (h : keptText trim run after ≠ []) : run ≠ [] := by
  rintro rfl
  apply h
  cases trim <;> simp [keptText, trimStart, trimEnd]

/-- A step takes some text from the source. -/
theorem Yields.took {lexer next : Lexer} {token : Token} (h : Yields lexer token next) :
    ∃ text, Took lexer text next := by
  cases h with
  | literal cuts kept => exact ⟨_, ne_nil_of_keptText kept, cuts.rest_eq, rfl⟩
  | @opening _ run after _ _ position _ _ cuts bare ne_nil opens =>
      have hlength := length_of_openTag opens
      have hwidth := two_le_openWidth after
      obtain ⟨-, -, rfl⟩ := openTag_eq_token_iff.mp opens
      refine ⟨run ++ after.take (openWidth after), ?_, ?_, ?_⟩
      · apply List.append_ne_nil_of_right_ne_nil
        apply List.ne_nil_of_length_pos
        rw [List.length_take]
        omega
      · rw [cuts.rest_eq, List.append_assoc, List.take_append_drop]
      · rw [Position.advanceBy_append]
  | @closing gap text _ _ width _ blank ahead closes =>
      obtain ⟨after, rfl, rfl⟩ := closingAt?_eq_some closes
      refine ⟨_, ?_, ?_, (Position.advanceBy_append _ _ _).symm⟩
      · rw [List.take_left]
        apply List.append_ne_nil_of_right_ne_nil
        apply List.ne_nil_of_length_pos
        simp only [List.length_append, Delimiter.closing_length]
        omega
      · dsimp only
        rw [List.append_assoc gap, List.take_append_drop]
  | @inner gap text _ _ lexeme blank ahead stays reads =>
      obtain ⟨spelling, after, rfl, hspelled⟩ := Lexeme.spelledBy_of_read reads
      refine ⟨_, ?_, ?_, (Position.advanceBy_append _ _ _).symm⟩
      · rw [hspelled.width_eq, List.take_left]
        exact List.append_ne_nil_of_right_ne_nil _ hspelled.ne_nil
      · rw [List.append_assoc, List.take_append_drop]

/-- A step leaves less to read. -/
theorem Took.length_lt {lexer next : Lexer} {text : List Char} (h : Took lexer text next) :
    next.rest.length < lexer.rest.length := by
  have hpos := List.length_pos_iff.mpr h.ne_nil
  rw [h.rest_eq, List.length_append]
  omega

/-! ## Whole runs -/

theorem took_of_step {lexer next : Lexer} {token : Token} (h : lexer.step = .token token next) :
    ∃ text, Took lexer text next :=
  (step_eq_token_iff.mp h).took

/-- More fuel than characters makes no difference. -/
theorem run_eq_of_lt {lexer : Lexer} {fuel fuel' : Nat} (h : lexer.rest.length < fuel)
    (h' : lexer.rest.length < fuel') : run fuel lexer = run fuel' lexer := by
  induction fuel generalizing lexer fuel' with
  | zero => exact absurd h (Nat.not_lt_zero _)
  | succ fuel ih =>
      obtain ⟨fuel', rfl⟩ := Nat.exists_eq_succ_of_ne_zero (Nat.ne_zero_of_lt h')
      rw [run_succ, Nat.succ_eq_add_one, run_succ]
      cases hstep : lexer.step with
      | finished => rfl
      | failed error => rfl
      | token token next =>
          obtain ⟨text, htook⟩ := took_of_step hstep
          have hlt := htook.length_lt
          have hrest : run fuel next = run fuel' next := ih (by omega) (by omega)
          rw [streamOf, streamOf, hrest]

/-- A source without a lexical error is read to its end, one token at a step. -/
theorem exists_steps {lexer : Lexer} {fuel : Nat} (h : lexer.rest.length < fuel)
    (hfailure : (run fuel lexer).failure? = none) :
    ∃ last, Steps lexer (run fuel lexer).tokens last ∧ last.step = .finished := by
  induction fuel generalizing lexer with
  | zero => exact absurd h (Nat.not_lt_zero _)
  | succ fuel ih =>
      rw [run_succ] at hfailure ⊢
      cases hstep : lexer.step with
      | finished => exact ⟨lexer, .refl, hstep⟩
      | failed error =>
          rw [hstep] at hfailure
          cases hfailure
      | token token next =>
          obtain ⟨text, htook⟩ := took_of_step hstep
          have hlt := htook.length_lt
          rw [hstep] at hfailure
          obtain ⟨last, hsteps, hlast⟩ := ih (by omega) hfailure
          exact ⟨last, .step hstep hsteps, hlast⟩

/-- Steps take what lies between the two places, and at least a character for each token. -/
theorem Steps.took {lexer last : Lexer} {tokens : List Token} (h : Steps lexer tokens last) :
    ∃ text, lexer.rest = text ++ last.rest ∧
      last.position = lexer.position.advanceBy text ∧ tokens.length ≤ text.length := by
  induction h with
  | refl => exact ⟨[], rfl, rfl, Nat.le_refl 0⟩
  | step here rest ih =>
      obtain ⟨text, hne, hrest, hposition⟩ := took_of_step here
      obtain ⟨text', hrest', hposition', hlength⟩ := ih
      have hpos := List.length_pos_iff.mpr hne
      refine ⟨text ++ text', ?_, ?_, ?_⟩
      · rw [hrest, hrest', List.append_assoc]
      · rw [hposition', hposition, Position.advanceBy_append]
      · rw [List.length_cons, List.length_append]
        omega

end Lexer

end TextTemplate
