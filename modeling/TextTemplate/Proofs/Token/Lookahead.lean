import TextTemplate.Proofs.Token.Step
import TextTemplate.Proofs.Token.Verbatim
/-! # What the lexer sees ahead

The lexer looks ahead as far as it has to: for a tag in a run of text, for the tag that ends a
verbatim block, for the quote that ends a string, for a closing delimiter somewhere. What it finds
there it also finds with more text behind. Only the last characters in front of that text could be
taken for something else, and as long as a closing delimiter is yet to come there are enough of
them.
-/

namespace TextTemplate

namespace Text

/-- Whether a lead is there can be seen once the text is as long as the lead. -/
theorem afterLead?_isSome_append {lead text : List Char} (h : lead.length ≤ text.length)
    (more : List Char) :
    (afterLead? lead (text ++ more)).isSome = (afterLead? lead text).isSome := by
  induction lead generalizing text with
  | nil => simp [afterLead?]
  | cons l lead ih =>
      cases text with
      | nil => simp at h
      | cons c text =>
          rw [List.cons_append, afterLead?, afterLead?]
          split
          · exact ih (by simpa using h)
          · rfl

/-- A character that was found is found with more text behind. -/
theorem splitFirst?_append {mark : Char} {text before rest : List Char}
    (h : splitFirst? [mark] text = some (before, rest)) (more : List Char) :
    splitFirst? [mark] (text ++ more) = some (before, rest ++ more) := by
  induction text generalizing before with
  | nil => simp [splitFirst?] at h
  | cons c text ih =>
      rw [List.cons_append]
      by_cases hmark : mark = c
      · simp only [splitFirst?, afterLead?, hmark, ↓reduceIte] at h ⊢
        cases h
        rfl
      · simp only [splitFirst?, afterLead?, hmark, ↓reduceIte] at h ⊢
        obtain ⟨⟨front, back⟩, hfound, heq⟩ := Option.map_eq_some_iff.mp h
        cases heq
        rw [ih hfound]
        rfl

theorem takeWhile_append_of_lt {p : Char → Bool} {text : List Char}
    (h : (text.takeWhile p).length < text.length) (more : List Char) :
    (text ++ more).takeWhile p = text.takeWhile p := by
  rw [List.takeWhile_append, if_neg (Nat.ne_of_lt h)]

theorem dropWhile_append_of_lt {p : Char → Bool} {text : List Char}
    (h : (text.takeWhile p).length < text.length) (more : List Char) :
    (text ++ more).dropWhile p = text.dropWhile p ++ more := by
  have hne : text.dropWhile p ≠ [] := by
    intro hnil
    have hsplit := congrArg List.length (List.takeWhile_append_dropWhile (p := p) (l := text))
    rw [hnil, List.append_nil] at hsplit
    omega
  rw [List.dropWhile_append, if_neg (by simpa using hne)]

end Text

namespace Lexeme

theorem wordTail_cons (c : Char) (rest : List Char) :
    wordTail (c :: rest) =
      if isWordChar c || (c = '-' && rest.head?.any isWordChar) then c :: wordTail rest
      else [] := by
  rw [wordTail.eq_def]
  by_cases hword : isWordChar c = true
  · simp [hword]
  · by_cases hhyphen : c = '-'
    · subst hhyphen
      cases rest <;> simp [hword]
    · simp [hword, hhyphen]

theorem head?_append_of_length_pos {text : List Char} (h : 0 < text.length) (more : List Char) :
    (text ++ more).head? = text.head? := by
  cases text with
  | nil => simp at h
  | cons c rest => rfl

/-- A word ends where it did, as long as two characters behind it were there to see. -/
theorem wordTail_append_more {text : List Char} (h : (wordTail text).length + 2 ≤ text.length)
    (more : List Char) : wordTail (text ++ more) = wordTail text := by
  induction text with
  | nil => simp at h
  | cons c rest ih =>
      rw [List.length_cons] at h
      -- A hyphen is told from the character behind it, and there is one.
      rw [List.cons_append, wordTail_cons, wordTail_cons,
        head?_append_of_length_pos (by omega)]
      split
      next hkept =>
        rw [wordTail_cons, if_pos hkept, List.length_cons] at h
        rw [ih (by omega)]
      next => rfl

/-- The fraction of a number, point included. -/
def fractionText (fraction : Bool) (text : List Char) : List Char :=
  match text with
  | '.' :: c :: rest =>
    if fraction && Numeral.isDigit c then '.' :: (c :: rest).takeWhile Numeral.isDigit else []
  | _ => []

theorem numberText_eq (fraction : Bool) (text : List Char) :
    numberText fraction text =
      text.takeWhile Numeral.isDigit ++ fractionText fraction (text.dropWhile Numeral.isDigit) := by
  unfold numberText
  dsimp only
  split
  next c rest hdrop =>
    rw [hdrop, fractionText]
    split
    · rfl
    · rw [List.append_nil]
  next hother =>
    unfold fractionText
    split
    next c rest hdrop => exact absurd hdrop (hother c rest)
    next => rw [List.append_nil]

/-- A fraction ends where it did, as long as two characters behind it were there to see. -/
theorem fractionText_append {fraction : Bool} {text : List Char}
    (h : (fractionText fraction text).length + 2 ≤ text.length) (more : List Char) :
    fractionText fraction (text ++ more) = fractionText fraction text := by
  obtain ⟨a, c, rest, rfl⟩ : ∃ a c rest, text = a :: c :: rest := by
    match text, h with
    | a :: c :: rest, _ => exact ⟨a, c, rest, rfl⟩
  by_cases hpoint : a = '.'
  · subst hpoint
    rw [List.cons_append, List.cons_append]
    simp only [fractionText] at h ⊢
    split
    next hdigit =>
      rw [if_pos hdigit] at h
      rw [← List.cons_append, Text.takeWhile_append_of_lt]
      simp only [List.length_cons] at h ⊢
      omega
    next => rfl
  · simp [fractionText, hpoint]

/-- A number ends where it did, as long as two characters behind it were there to see. -/
theorem numberText_append {fraction : Bool} {text : List Char}
    (h : (numberText fraction text).length + 2 ≤ text.length) (more : List Char) :
    numberText fraction (text ++ more) = numberText fraction text := by
  have hsplit := congrArg List.length
    (List.takeWhile_append_dropWhile (p := Numeral.isDigit) (l := text))
  rw [numberText_eq, List.length_append] at h
  rw [List.length_append] at hsplit
  rw [numberText_eq, numberText_eq, Text.takeWhile_append_of_lt (by omega),
    Text.dropWhile_append_of_lt (by omega), fractionText_append (by omega)]

theorem width_ofWord (afterDot : Bool) (text : List Char) :
    (ofWord afterDot text).width = text.length := by
  unfold ofWord
  split
  · split <;> rfl
  · rfl

/-- What is read is inside a tag, and takes at least one character. -/
theorem bounds_of_read {afterDot : Bool} {text : List Char} {lexeme : Lexeme}
    (h : read afterDot text = .ok lexeme) :
    lexeme.kind.isInner = true ∧ 0 < lexeme.width ∧ lexeme.width ≤ text.length := by
  obtain ⟨spelling, after, rfl, hspelled⟩ := spelledBy_of_read h
  have hpos := List.length_pos_iff.mpr hspelled.ne_nil
  rw [hspelled.width_eq, List.length_append]
  exact ⟨hspelled.inner, hpos, Nat.le_add_right _ _⟩

/-- A lexeme with two characters behind it is not mistaken for a longer one. -/
theorem read_append {afterDot : Bool} {text : List Char} {lexeme : Lexeme}
    (h : read afterDot text = .ok lexeme) (hbehind : lexeme.width + 2 ≤ text.length)
    (more : List Char) : read afterDot (text ++ more) = .ok lexeme := by
  cases text with
  | nil => cases h
  | cons c rest =>
      have hhead : (rest ++ more).head? = rest.head? := by
        obtain ⟨-, hpos, -⟩ := bounds_of_read h
        rw [List.length_cons] at hbehind
        exact head?_append_of_length_pos (by omega) more
      rw [List.cons_append]
      simp only [read] at h ⊢
      rw [hhead]
      split
      next hword =>
        rw [if_pos hword] at h
        cases h
        rw [width_ofWord, List.length_cons, List.length_cons] at hbehind
        rw [wordTail_append_more (by omega)]
      next hword =>
        rw [if_neg hword] at h
        split
        next hdigit =>
          rw [if_pos hdigit] at h
          cases h
          rw [← List.cons_append, numberText_append hbehind]
        next hdigit =>
          rw [if_neg hdigit] at h
          split
          next hminus =>
            rw [if_pos hminus] at h
            cases h
            simp only [plain, List.length_cons] at hbehind
            rw [numberText_append (by omega)]
          next hminus =>
            rw [if_neg hminus] at h
            split
            next hquote =>
              rw [if_pos hquote] at h
              split at h
              next content behind hcontent =>
                rw [Text.splitFirst?_append hcontent]
                exact h
              next => cases h
            next hquote =>
              rw [if_neg hquote] at h
              exact h

end Lexeme

namespace Lexer

open Text

/-- The lexer with more text behind its own. -/
def extended (more : List Char) (lexer : Lexer) : Lexer := { lexer with rest := lexer.rest ++ more }

section Functions

variable {text run after : List Char}

/-- A text ends at the tag that opens there, with more behind it too. -/
theorem splitText_append (h : splitText text = (run, after)) (hafter : after ≠ [])
    (more : List Char) : splitText (text ++ more) = (run, after ++ more) := by
  induction text generalizing run with
  | nil =>
      cases h
      exact absurd rfl hafter
  | cons c rest ih =>
      cases rest with
      | nil =>
          have hend : splitText [c] = ([c], []) := by simp [splitText]
          rw [hend] at h
          cases h
          exact absurd rfl hafter
      | cons d rest =>
          -- A brace is told from the character behind it, and there is one.
          have hhead : (d :: rest ++ more).head? = (d :: rest).head? := rfl
          rw [List.cons_append, splitText, hhead]
          rw [splitText] at h
          split at h
          next hopen =>
            rw [if_pos hopen]
            cases h
            rfl
          next hopen =>
            rw [if_neg hopen]
            cases hsplit : splitText (d :: rest) with
            | mk front back =>
                rw [hsplit] at h
                cases h
                rw [ih hsplit]

theorem startsEndTag_append {word : List Char} (h : StartsEndTag word text) (more : List Char) :
    StartsEndTag word (text ++ more) := by
  obtain ⟨spacing, after, rfl⟩ := startsEndTag_iff_spacing.mp h
  exact startsEndTag_iff_spacing.mpr ⟨spacing, after ++ more, List.append_assoc _ _ _⟩

/-- The end tag that was found is found with more text behind. No tag in front of it can run into
it, so none can run past it either. -/
theorem splitVerbatim?_append {word : Keyword}
    (h : splitVerbatim? word.word.toList text = some (run, after)) (more : List Char) :
    splitVerbatim? word.word.toList (text ++ more) = some (run, after ++ more) := by
  obtain ⟨rfl, hends, hfirst⟩ := splitVerbatim?_eq_some h
  have hends : StartsEndTag word.word.toList after := (startsEndTag_word_iff word after).mp hends
  obtain ⟨spacing, behind, htag⟩ := startsEndTag_iff_spacing.mp hends
  have hfree : FreeOfEndTag word.word.toList run := by
    intro front back hrun hback
    have hne : back ≠ [] := by
      rintro rfl
      exact absurd ((startsEndTag_word_iff word []).mpr hback) nofun
    apply hfirst front back hrun hne
    exact (startsEndTag_word_iff word _).mpr (startsEndTag_append hback after)
  rw [htag, List.append_assoc, List.append_assoc]
  exact splitVerbatim?_of_free hfree spacing (behind ++ more)

/-- Three characters tell whether a tag trims the text in front of it. -/
theorem opensTrimmed_append (h : 3 ≤ text.length) (more : List Char) :
    opensTrimmed (text ++ more) = opensTrimmed text := by
  match text, h with
  | a :: b :: c :: rest, _ =>
      rw [Bool.eq_iff_iff, opensTrimmed_iff, opensTrimmed_iff]
      constructor
      · rintro ⟨delimiter, after, heq⟩
        cases delimiter <;> cases heq
        · exact ⟨.output, rest, rfl⟩
        · exact ⟨.logic, rest, rfl⟩
      · rintro ⟨delimiter, after, heq⟩
        exact ⟨delimiter, after ++ more, by rw [heq]; simp⟩

theorem delimiterOf_append (h : 2 ≤ text.length) (more : List Char) :
    delimiterOf (text ++ more) = delimiterOf text := by
  match text, h with
  | a :: b :: rest, _ => rfl

theorem closingAt?_of_ne_hyphen {delimiter : Delimiter} (h : text.head? ≠ some '-') :
    closingAt? delimiter text =
      if (afterLead? delimiter.closing text).isSome then some (2, false) else none := by
  unfold closingAt?
  split
  next rest => exact absurd rfl h
  next => rfl

/-- Three characters tell whether a tag is closed. -/
theorem closingAt?_append {delimiter : Delimiter} (h : 3 ≤ text.length) (more : List Char) :
    closingAt? delimiter (text ++ more) = closingAt? delimiter text := by
  have hlead : ∀ rest : List Char, 2 ≤ rest.length →
      (afterLead? delimiter.closing (rest ++ more)).isSome =
        (afterLead? delimiter.closing rest).isSome := by
    intro rest hrest
    exact afterLead?_isSome_append (by rwa [delimiter.closing_length]) more
  by_cases hhyphen : text.head? = some '-'
  · obtain ⟨rest, rfl⟩ := List.head?_eq_some_iff.mp hhyphen
    rw [List.cons_append, closingAt?, closingAt?, hlead rest (by simpa using h)]
  · have hhead : (text ++ more).head? = text.head? :=
      Lexeme.head?_append_of_length_pos (by omega) more
    rw [closingAt?_of_ne_hyphen hhyphen, closingAt?_of_ne_hyphen (hhead ▸ hhyphen),
      hlead text (by omega)]

/-- A tag that could be opened can be with more text behind. -/
theorem openTag_append {position : Position} {mode : LexerMode} {token : Token} {next : Lexer}
    (h : openTag ⟨text, position, mode⟩ = .token token next) (more : List Char) :
    openTag ⟨text ++ more, position, mode⟩ = .token token (next.extended more) := by
  have hlength := length_of_openTag h
  have hwidth := two_le_openWidth text
  obtain ⟨hcloses, rfl, rfl⟩ := openTag_eq_token_iff.mp h
  have hdelimiter := delimiterOf_append (by omega : 2 ≤ text.length) more
  have hopens : openWidth (text ++ more) = openWidth text := by
    rw [openWidth, opensTrimmed_append (by omega), openWidth]
  have hdrop : (text ++ more).drop (openWidth text) = text.drop (openWidth text) ++ more :=
    List.drop_append_of_le_length (by omega)
  have htake : (text ++ more).take (openWidth text) = text.take (openWidth text) :=
    List.take_append_of_le_length (by omega)
  rw [openTag_eq_token_iff, hopens, hdelimiter, hdrop, htake]
  refine ⟨?_, rfl, rfl⟩
  exact occurs_iff.mpr ((occurs_iff.mp hcloses).trans (List.prefix_append _ more).isInfix)

theorem keptText_append (trim : Bool) (h : 3 ≤ after.length) (more : List Char) :
    keptText trim run (after ++ more) = keptText trim run after := by
  rw [keptText, keptText, opensTrimmed_append h]

/-- A run of text ends where it did, unless it was the end of the source that ended it. -/
theorem Cuts.extended {rest : List Char} {trim : Bool} {mode : LexerMode}
    (h : Cuts rest trim run after mode) (hafter : after ≠ []) (more : List Char) :
    Cuts (rest ++ more) trim run (after ++ more) mode := by
  cases h with
  | text split => exact .text (splitText_append split hafter more)
  | verbatim split => exact .verbatim (splitVerbatim?_append split more)

end Functions

/-! ## Steps that more text behind leaves as they are -/

/-- How many characters there are at least in front of the end, if a closing delimiter is yet to
come. -/
def room : LexerMode → Nat
  | .inside _ => 2
  | _ => 4

/-- The token closes a tag. -/
def Closes (token : Token) : Prop := ∃ delimiter : Delimiter, token.kind = delimiter.closeKind

theorem not_closes_of_ne {token : Token} (houtput : token.kind ≠ .outputClose)
    (htag : token.kind ≠ .tagClose) : ¬ Closes token := by
  rintro ⟨delimiter, hkind⟩
  cases delimiter with
  | output => exact houtput hkind
  | logic => exact htag hkind

theorem not_closes_of_isInner {token : Token} (h : token.kind.isInner = true) : ¬ Closes token := by
  rintro ⟨delimiter, hkind⟩
  rw [hkind] at h
  cases delimiter <;> cases h

variable {lexer next last : Lexer} {token closing : Token} {tokens : List Token}

theorem closingAt?_closing (delimiter : Delimiter) (hyphen : Bool) (after : List Char) :
    closingAt? delimiter (hyphenText hyphen ++ delimiter.closing ++ after) =
      some ((hyphenText hyphen ++ delimiter.closing).length, hyphen) := by
  cases hyphen <;> cases delimiter <;> rfl

/-- What closes a tag is its delimiter, or that and a hyphen. -/
theorem width_of_closingAt? {delimiter : Delimiter} {text : List Char} {width : Nat} {trim : Bool}
    (h : closingAt? delimiter text = some (width, trim)) : 2 ≤ width ∧ width ≤ text.length := by
  obtain ⟨after, rfl, rfl⟩ := closingAt?_eq_some h
  simp only [List.length_append, delimiter.closing_length]
  omega

theorem Cuts.room_eq {rest run after : List Char} {trim : Bool} {mode : LexerMode}
    (h : Cuts rest trim run after mode) : room mode = 4 := by
  cases h <;> rfl

/-- Where a closing delimiter is yet to come, there is room for it. -/
theorem Yields.room_le (h : Yields lexer token next)
    (hnext : ¬ Closes token → room next.mode ≤ next.rest.length) :
    room lexer.mode ≤ lexer.rest.length := by
  cases h with
  | literal cuts kept =>
      have hlength := hnext (not_closes_of_ne nofun nofun)
      rw [cuts.room_eq, cuts.rest_eq, List.length_append]
      exact Nat.le_trans hlength (Nat.le_add_left _ _)
  | @opening _ run after _ _ _ _ _ cuts bare ne_nil opens =>
      have hlength := length_of_openTag opens
      have hwidth := two_le_openWidth after
      rw [cuts.room_eq, cuts.rest_eq, List.length_append]
      omega
  | @closing gap text _ _ _ _ blank ahead closes =>
      obtain ⟨htwo, hwidth⟩ := width_of_closingAt? closes
      change 2 ≤ (gap ++ text).length
      rw [List.length_append]
      omega
  | @inner gap text _ _ lexeme blank ahead stays reads =>
      obtain ⟨hinner, -, hwidth⟩ := Lexeme.bounds_of_read reads
      have hbehind : 2 ≤ (text.drop lexeme.width).length := hnext (not_closes_of_isInner hinner)
      rw [List.length_drop] at hbehind
      change 2 ≤ (gap ++ text).length
      rw [List.length_append]
      omega

/-- A step from a place with room behind it does the same with more text behind. -/
theorem Yields.extended (h : Yields lexer token next)
    (hnext : ¬ Closes token → room next.mode ≤ next.rest.length) (more : List Char) :
    Yields (lexer.extended more) token (next.extended more) := by
  cases h with
  | @literal _ run after trim _ position cuts kept =>
      have hlength : 4 ≤ after.length := hnext (not_closes_of_ne nofun nofun)
      have hkept : keptText trim run (after ++ more) = keptText trim run after :=
        keptText_append trim (by omega) more
      have hafter : after ≠ [] := List.ne_nil_of_length_pos (by omega)
      have hcuts := cuts.extended hafter more
      have hyields : Yields _ _ ⟨after ++ more, position.advanceBy run, .text false⟩ :=
        .literal hcuts (hkept ▸ kept)
      rw [hkept] at hyields
      exact hyields
  | @opening _ run after trim _ position _ _ cuts bare ne_nil opens =>
      have hlength := length_of_openTag opens
      have hwidth := two_le_openWidth after
      refine .opening (cuts.extended ne_nil more) ?_ ?_ (openTag_append opens more)
      · rw [keptText_append trim (by omega), bare]
      · exact List.append_ne_nil_of_left_ne_nil ne_nil more
  | @closing gap text position tag width trim blank ahead closes =>
      obtain ⟨htwo, hwidth⟩ := width_of_closingAt? closes
      have hcloses : closingAt? tag.delimiter (text ++ more) = some (width, trim) := by
        obtain ⟨after, htext, hlength⟩ := closingAt?_eq_some closes
        rw [htext, hlength, List.append_assoc]
        exact closingAt?_closing _ _ _
      have hahead : ∀ c, (text ++ more).head? = some c → isBlank c = false := by
        rwa [Lexeme.head?_append_of_length_pos (by omega)]
      have hyields := @Yields.closing gap (text ++ more) position tag _ trim blank hahead hcloses
      rw [List.take_append_of_le_length hwidth, List.drop_append_of_le_length hwidth,
        ← List.append_assoc] at hyields
      exact hyields
  | @inner gap text position tag lexeme blank ahead stays reads =>
      obtain ⟨hinner, hpos, hwidth⟩ := Lexeme.bounds_of_read reads
      have hbehind : 2 ≤ (text.drop lexeme.width).length := hnext (not_closes_of_isInner hinner)
      rw [List.length_drop] at hbehind
      have hahead : ∀ c, (text ++ more).head? = some c → isBlank c = false := by
        rwa [Lexeme.head?_append_of_length_pos (by omega)]
      have hstays : closingAt? tag.delimiter (text ++ more) = none := by
        rwa [closingAt?_append (by omega)]
      have hreads := Lexeme.read_append reads (by omega) more
      have hyields := @Yields.inner gap (text ++ more) position tag _ blank hahead hstays hreads
      rw [List.take_append_of_le_length hwidth, List.drop_append_of_le_length hwidth,
        ← List.append_assoc] at hyields
      exact hyields

/-- Where steps lead behind a closing delimiter, there is room for it. -/
theorem Steps.room_le (h : Steps lexer tokens last) (hlast : tokens.getLast? = some closing)
    (hcloses : Closes closing) : room lexer.mode ≤ lexer.rest.length := by
  induction h with
  | refl => cases hlast
  | @step lexer next last token tokens here rest ih =>
      apply (step_eq_token_iff.mp here).room_le
      intro hother
      cases tokens with
      | nil =>
          cases hlast
          exact absurd hcloses hother
      | cons token' tokens => exact ih hlast

/-- Steps that lead behind a closing delimiter are the same with more text behind. -/
theorem Steps.extended (h : Steps lexer tokens last) (hlast : tokens.getLast? = some closing)
    (hcloses : Closes closing) (more : List Char) :
    Steps (lexer.extended more) tokens (last.extended more) := by
  induction h with
  | refl => exact .refl
  | @step lexer next last token tokens here rest ih =>
      have hyields := step_eq_token_iff.mp here
      cases tokens with
      | nil =>
          cases hlast
          cases rest
          have hstep := hyields.extended (absurd hcloses) more
          exact .step (step_eq_token_iff.mpr hstep) .refl
      | cons token' tokens =>
          have hstep := hyields.extended (fun _ => rest.room_le hlast hcloses) more
          exact .step (step_eq_token_iff.mpr hstep) (ih hlast)

end Lexer

end TextTemplate
