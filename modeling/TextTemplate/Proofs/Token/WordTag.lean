import TextTemplate.Proofs.Token.Coverage
/-! # Tags of a single word

What the lexer makes of a logic tag that has a reserved word in it and nothing else, whatever white
space and hyphens it is written with. The tags that open and close a verbatim block are of this
kind, and the lexer looks for the closing one without taking it apart into tokens.
-/

namespace TextTemplate

open Text Lexeme

/-- The white space and the hyphens before and behind the word in a logic tag of a single word. -/
structure TagSpacing where
  hyphenBefore : Bool
  gapBefore : List Char
  gapBehind : List Char
  hyphenBehind : Bool
  blankBefore : ∀ c ∈ gapBefore, isBlank c = true
  blankBehind : ∀ c ∈ gapBehind, isBlank c = true

namespace TagSpacing

/-- One space on either side of the word. -/
def spaced (hyphenBefore hyphenBehind : Bool) : TagSpacing :=
  ⟨hyphenBefore, [' '], [' '], hyphenBehind, List.all_eq_true.mp rfl, List.all_eq_true.mp rfl⟩

/-- What follows the word of a tag. -/
def close (spacing : TagSpacing) : List Char :=
  spacing.gapBehind ++ (hyphenText spacing.hyphenBehind ++ Delimiter.logic.closing)

/-- The tag of a word. -/
def tag (spacing : TagSpacing) (word : List Char) : List Char :=
  Delimiter.logic.opening ++
    (hyphenText spacing.hyphenBefore ++ (spacing.gapBefore ++ (word ++ spacing.close)))

end TagSpacing

/-- The tokens of the tag of a word. -/
inductive WordTagTokens (word : Keyword) : List Token → Prop
  | intro {opening name closing : Token} (opening_kind : opening.kind = .tagOpen)
      (name_kind : name.kind = .keyword word) (closing_kind : closing.kind = .tagClose) :
      WordTagTokens word [opening, name, closing]

/-- An end tag is a tag of one word, with any spacing. -/
theorem startsEndTag_iff_spacing {word text : List Char} :
    StartsEndTag word text ↔ ∃ (spacing : TagSpacing) (after : List Char),
      text = spacing.tag word ++ after := by
  constructor
  · rintro ⟨hyphen, hyphen', gap, gap', after, hgap, hgap', rfl⟩
    refine ⟨⟨hyphen, gap, gap', hyphen', hgap, hgap'⟩, after, ?_⟩
    simp only [TagSpacing.tag, TagSpacing.close, List.append_assoc]
  · rintro ⟨spacing, after, rfl⟩
    refine ⟨spacing.hyphenBefore, spacing.hyphenBehind, spacing.gapBefore, spacing.gapBehind, after,
      spacing.blankBefore, spacing.blankBehind, ?_⟩
    simp only [TagSpacing.tag, TagSpacing.close, List.append_assoc]

/-! ## Words -/

theorem Keyword.ofWord?_word (word : Keyword) : Keyword.ofWord? word.word = some word := by
  cases word <;> rfl

theorem isAlpha_of_mem_word (word : Keyword) : ∀ c ∈ word.word.toList, c.isAlpha = true := by
  rw [← List.all_eq_true]
  cases word <;> decide

theorem Keyword.word_ne_nil (word : Keyword) : word.word.toList ≠ [] := by
  cases word <;> decide

theorem not_isWordChar_of_isBlank {c : Char} (h : isBlank c = true) : isWordChar c = false := by
  have hunderscore : c ≠ '_' := by
    rintro rfl
    exact absurd h (by decide)
  have hval : c.val.toNat = c.toNat := rfl
  simp only [isBlank, inRanges, blankRanges, List.any_cons, List.any_nil, Bool.or_false,
    Bool.or_eq_true, Bool.and_eq_true, decide_eq_true_eq] at h
  delta isWordChar Char.isAlphanum Char.isAlpha Char.isUpper Char.isLower Char.isDigit
  simp only [UInt32.le_iff_toNat_le, Bool.or_eq_false_iff, Bool.and_eq_false_iff,
    decide_eq_false_iff_not, beq_eq_false_iff_ne, Char.reduceVal, UInt32.reduceToNat, hval]
  refine ⟨⟨⟨?_, ?_⟩, ?_⟩, hunderscore⟩
  · omega
  · omega
  · omega

/-- A word is taken up to where none of its characters stand. -/
theorem wordTail_append {word behind : List Char} (hword : ∀ c ∈ word, isWordChar c = true)
    (hbehind : wordTail behind = []) : wordTail (word ++ behind) = word := by
  induction word with
  | nil => exact hbehind
  | cons c word ih =>
      rw [List.forall_mem_cons] at hword
      rw [List.cons_append, wordTail.eq_def]
      simp only [hword.1, ↓reduceIte, ih hword.2]

/-- A word ends where its tag does. -/
theorem wordTail_close (spacing : TagSpacing) (after : List Char) :
    wordTail (spacing.close ++ after) = [] := by
  obtain ⟨hyphen, gap, gap', hyphen', hblank, hblank'⟩ := spacing
  cases gap' with
  | nil => cases hyphen' <;> rfl
  | cons c gap' =>
      have hc : isBlank c = true := hblank' c (by simp)
      have hhyphen : c ≠ '-' := by
        rintro rfl
        exact absurd hc (by decide)
      rw [TagSpacing.close, List.cons_append, List.cons_append, wordTail.eq_def]
      simp [not_isWordChar_of_isBlank hc, hhyphen]

/-- Letters up to the end of a tag are read as a word. -/
theorem read_word (word : Keyword) (spacing : TagSpacing) (after : List Char) :
    Lexeme.read false (word.word.toList ++ (spacing.close ++ after)) =
      .ok (plain (.keyword word) word.word.toList) := by
  obtain ⟨c, letters, hword⟩ := List.exists_cons_of_ne_nil word.word_ne_nil
  have halpha := isAlpha_of_mem_word word
  have hkeyword : Keyword.ofWord? (String.ofList (c :: letters)) = some word := by
    rw [← hword, String.ofList_toList]
    exact word.ofWord?_word
  rw [hword] at halpha ⊢
  rw [List.forall_mem_cons] at halpha
  have hletters : ∀ d ∈ letters, isWordChar d = true := by
    intro d hd
    simp [isWordChar, Char.isAlphanum, halpha.2 d hd]
  rw [List.cons_append]
  unfold Lexeme.read
  dsimp only
  rw [if_pos (by simp [isWordStart, halpha.1]),
    wordTail_append hletters (wordTail_close spacing after), ofWord, hkeyword]
  rfl

/-! ## The steps of the lexer -/

namespace Lexer

/-- From the first lexer some steps yield the tokens and lead to the second. -/
inductive Steps : Lexer → List Token → Lexer → Prop
  | refl {lexer : Lexer} : Steps lexer [] lexer
  | step {lexer next last : Lexer} {token : Token} {tokens : List Token}
      (here : lexer.step = .token token next) (rest : Steps next tokens last) :
      Steps lexer (token :: tokens) last

theorem Steps.append {lexer middle last : Lexer} {tokens tokens' : List Token}
    (h : Steps lexer tokens middle) (h' : Steps middle tokens' last) :
    Steps lexer (tokens ++ tokens') last := by
  induction h with
  | refl => exact h'
  | step here rest ih => exact .step here (ih h')

/-- The tokens of some steps stand in front of those of the run from there. -/
theorem Steps.run {lexer last : Lexer} {tokens : List Token} (h : Steps lexer tokens last)
    (fuel : Nat) :
    Lexer.run (fuel + tokens.length) lexer = (Lexer.run fuel last).behind tokens := by
  induction h with
  | refl => rfl
  | step here rest ih =>
      rw [List.length_cons, ← Nat.add_assoc, run_succ, here, streamOf, ih]
      rfl

/-- Tokens up to the end of the source are its tokens, if there are no more than characters. -/
theorem tokenize_of_steps {source : List Char} {tokens : List Token} {last : Lexer}
    (h : Steps (ofSource source) tokens last) (hlast : last.step = .finished)
    (hlength : tokens.length ≤ source.length) : tokenize source = ⟨tokens, none⟩ := by
  obtain ⟨extra, hextra⟩ := Nat.exists_eq_add_of_le' hlength
  rw [tokenize, hextra, Nat.add_right_comm, h.run, run_succ, hlast]
  simp [streamOf, TokenStream.behind]

/-- A delimiter in front of the text is opened at once. -/
theorem step_of_opensTag {text : List Char} {position : Position} (h : OpensTag text) :
    step ⟨text, position, .text false⟩ = openTag ⟨text, position, .text false⟩ := by
  have hne : text ≠ [] := fun hnil => not_opensTag_nil (hnil ▸ h)
  simp only [step, splitText_of_stops (.inr h)]
  unfold textStep keptText
  simp [trimEnd, hne, Position.advanceBy]

theorem takeWhile_isBlank_append {gap rest : List Char} (hgap : ∀ c ∈ gap, isBlank c = true)
    (hrest : ∀ c, rest.head? = some c → isBlank c = false) :
    (gap ++ rest).takeWhile isBlank = gap := by
  have hsplit : (gap ++ rest).takeWhile isBlank ++ trimStart (gap ++ rest) = gap ++ rest :=
    List.takeWhile_append_dropWhile
  rw [trimStart_append hgap hrest] at hsplit
  exact List.append_cancel_right hsplit

theorem isAlpha_of_head_word {word : Keyword} {rest : List Char} {c : Char}
    (h : (word.word.toList ++ rest).head? = some c) : c.isAlpha = true := by
  apply isAlpha_of_mem_word word
  obtain ⟨d, letters, hword⟩ := List.exists_cons_of_ne_nil word.word_ne_nil
  rw [hword] at h ⊢
  cases h
  exact List.mem_cons_self

theorem not_isBlank_of_isAlpha {c : Char} (h : c.isAlpha = true) : isBlank c = false := by
  rw [← Bool.not_eq_true]
  intro hblank
  have hother := not_isWordChar_of_isBlank hblank
  simp [isWordChar, Char.isAlphanum, h] at hother

/-- A logic tag opens, with a hyphen or without, if it is closed somewhere. -/
theorem openTag_logic {hyphen : Bool} {inside : List Char}
    (hlongest : hyphen = false → inside.head? ≠ some '-')
    (hcloses : occurs Delimiter.logic.closing inside = true) (position : Position) :
    ∃ opening position', opening.kind = .tagOpen ∧
      openTag ⟨Delimiter.logic.opening ++ (hyphenText hyphen ++ inside), position, .text false⟩ =
        .token opening ⟨inside, position', .inside ⟨.logic, position, none, none⟩⟩ := by
  have hdelimiter :
      delimiterOf (Delimiter.logic.opening ++ (hyphenText hyphen ++ inside)) = .logic := rfl
  simp only [openTag, hdelimiter, opensTrimmed_opening hlongest]
  cases hyphen with
  | true => exact ⟨_, _, rfl, if_pos hcloses⟩
  | false => exact ⟨_, _, rfl, if_pos hcloses⟩

/-- The hyphen of an opening delimiter is told from what follows it. -/
theorem head_gap_ne_hyphen (spacing : TagSpacing) (word : Keyword) (rest : List Char) :
    (spacing.gapBefore ++ (word.word.toList ++ rest)).head? ≠ some '-' := by
  intro hhead
  cases hgap : spacing.gapBefore with
  | nil =>
      rw [hgap] at hhead
      exact absurd (isAlpha_of_head_word hhead) (by decide)
  | cons c gap =>
      have hblank := spacing.blankBefore c (by simp [hgap])
      rw [hgap] at hhead
      cases hhead
      exact absurd hblank (by decide)

theorem opensTrimmed_tag (spacing : TagSpacing) (word : Keyword) (after : List Char) :
    opensTrimmed (spacing.tag word.word.toList ++ after) = spacing.hyphenBefore := by
  simp only [TagSpacing.tag, List.append_assoc]
  exact opensTrimmed_opening fun _ => head_gap_ne_hyphen spacing word _

/-- The tag of a word opens with its spacing. -/
theorem openTag_spacing (spacing : TagSpacing) (word : Keyword) (position : Position)
    (after : List Char) : ∃ opening position', opening.kind = .tagOpen ∧
      openTag ⟨spacing.tag word.word.toList ++ after, position, .text false⟩ =
        .token opening
          ⟨spacing.gapBefore ++ (word.word.toList ++ (spacing.close ++ after)), position',
            .inside ⟨.logic, position, none, none⟩⟩ := by
  have hlongest : spacing.hyphenBefore = false →
      (spacing.gapBefore ++ (word.word.toList ++ (spacing.close ++ after))).head? ≠ some '-' :=
    fun _ => head_gap_ne_hyphen spacing word _
  have hcloses : occurs Delimiter.logic.closing
      (spacing.gapBefore ++ (word.word.toList ++ (spacing.close ++ after))) = true := by
    have hcloses : Delimiter.logic.closing <:+:
        spacing.gapBefore ++
          (word.word.toList ++ (spacing.gapBehind ++ hyphenText spacing.hyphenBehind)) ++
          Delimiter.logic.closing ++ after := List.infix_append _ _ _
    simpa only [TagSpacing.close, List.append_assoc] using occurs_iff.mpr hcloses
  have hopen := openTag_logic hlongest hcloses position
  simpa only [TagSpacing.tag, List.append_assoc] using hopen

theorem closingAt?_word (delimiter : Delimiter) (word : Keyword) (rest : List Char) :
    closingAt? delimiter (word.word.toList ++ rest) = none := by
  cases hclosing : closingAt? delimiter (word.word.toList ++ rest) with
  | none => rfl
  | some found =>
      obtain ⟨width, trim⟩ := found
      obtain ⟨after, htext, -⟩ := closingAt?_eq_some hclosing
      have hfirst : ∀ c, (hyphenText trim ++ delimiter.closing ++ after).head? = some c →
          c.isAlpha = true := fun c hc => isAlpha_of_head_word (htext ▸ hc)
      cases trim <;> cases delimiter <;> exact absurd (hfirst _ rfl) (by decide)

/-- The word of a tag is read behind its gap. -/
theorem insideStep_word (spacing : TagSpacing) (word : Keyword) (position opened : Position)
    (after : List Char) : ∃ name position', name.kind = .keyword word ∧
      insideStep ⟨spacing.gapBefore ++ (word.word.toList ++ (spacing.close ++ after)), position,
          .inside ⟨.logic, opened, none, none⟩⟩ ⟨.logic, opened, none, none⟩ =
        .token name ⟨spacing.close ++ after, position',
          .inside (OpenTag.push ⟨.logic, opened, none, none⟩ (.keyword word))⟩ := by
  have hhead : ∀ c, (word.word.toList ++ (spacing.close ++ after)).head? = some c →
      isBlank c = false := fun c hc => not_isBlank_of_isAlpha (isAlpha_of_head_word hc)
  have hgap := takeWhile_isBlank_append spacing.blankBefore hhead
  have hrest := trimStart_append spacing.blankBefore hhead
  have hstart : ((none : Option TokenKind) == some .dot) = false := rfl
  rw [trimStart] at hrest
  simp only [insideStep, hgap, hrest, closingAt?_word, hstart, read_word, plain, List.drop_left]
  exact ⟨_, _, rfl, rfl⟩

/-- The tag of a word is closed behind its gap. -/
theorem insideStep_close (spacing : TagSpacing) {tag : OpenTag} (hlogic : tag.delimiter = .logic)
    (position : Position) (after : List Char) : ∃ closing position', closing.kind = .tagClose ∧
      insideStep ⟨spacing.close ++ after, position, .inside tag⟩ tag =
        .token closing ⟨after, position', modeAfter tag spacing.hyphenBehind⟩ := by
  have hhead : ∀ c, (hyphenText spacing.hyphenBehind ++ (Delimiter.logic.closing ++ after)).head? =
      some c → isBlank c = false := by
    intro c hc
    cases hhyphen : spacing.hyphenBehind <;> (rw [hhyphen] at hc; cases hc; decide)
  have hgap := takeWhile_isBlank_append spacing.blankBehind hhead
  have hrest := trimStart_append spacing.blankBehind hhead
  rw [trimStart] at hrest
  simp only [insideStep, TagSpacing.close, List.append_assoc, hlogic, hgap, hrest]
  cases spacing.hyphenBehind with
  | true => exact ⟨_, _, rfl, rfl⟩
  | false => exact ⟨_, _, rfl, rfl⟩

/-- A tag of one word is read in three steps. -/
theorem steps_wordTag (spacing : TagSpacing) (word : Keyword) (position : Position)
    (after : List Char) : ∃ tokens position', WordTagTokens word tokens ∧
      Steps ⟨spacing.tag word.word.toList ++ after, position, .text false⟩ tokens
        ⟨after, position', modeAfter (OpenTag.push ⟨.logic, position, none, none⟩ (.keyword word))
          spacing.hyphenBehind⟩ := by
  obtain ⟨opening, inside, hopening, hopen⟩ := openTag_spacing spacing word position after
  obtain ⟨name, behind, hname, hword⟩ := insideStep_word spacing word inside position after
  have hlogic : (OpenTag.push ⟨.logic, position, none, none⟩ (.keyword word)).delimiter = .logic :=
    rfl
  obtain ⟨closing, last, hclosing, hclose⟩ := insideStep_close spacing hlogic behind after
  refine ⟨_, last, .intro hopening hname hclosing, ?_⟩
  have htag : OpensTag (spacing.tag word.word.toList ++ after) :=
    opensTag_of_startsEndTag (startsEndTag_iff_spacing.mpr ⟨spacing, after, rfl⟩)
  exact .step ((step_of_opensTag htag).trans hopen) (.step hword (.step hclose .refl))

end Lexer

end TextTemplate
