import TextTemplate.Proofs.Token.Scanning
/-! # The lexer cuts a source into tokens

What each step of the lexer takes from the source and what it yields for it, and from this, by
induction on the number of steps, the tokens of a whole source.
-/

namespace TextTemplate

open Text

theorem positionBehind_append (before text : List Char) :
    positionBehind (before ++ text) = (positionBehind before).advanceBy text := by
  simp only [positionBehind, Position.advanceBy, List.foldl_append]

theorem Delimiter.closing_length (delimiter : Delimiter) : delimiter.closing.length = 2 := by
  cases delimiter <;> rfl

theorem Delimiter.opening_length (delimiter : Delimiter) : delimiter.opening.length = 2 := by
  cases delimiter <;> rfl

namespace Lexer

/-- A tag opens at two braces, or at a brace and a percent sign. -/
theorem opensTag_cons_iff {c : Char} {rest : List Char} :
    OpensTag (c :: rest) ↔
      (c = '\x7b' && (rest.head? == some '\x7b' || rest.head? == some '%')) = true := by
  simp only [Bool.and_eq_true, decide_eq_true_eq, Bool.or_eq_true, beq_iff_eq,
    List.head?_eq_some_iff]
  constructor
  · rintro ⟨delimiter, after, heq⟩
    cases delimiter
    · simp only [Delimiter.opening, List.cons_append, List.nil_append, List.cons.injEq] at heq
      exact ⟨heq.1, .inl ⟨after, heq.2⟩⟩
    · simp only [Delimiter.opening, List.cons_append, List.nil_append, List.cons.injEq] at heq
      exact ⟨heq.1, .inr ⟨after, heq.2⟩⟩
  · rintro ⟨rfl, ⟨after, rfl⟩ | ⟨after, rfl⟩⟩
    · exact ⟨.output, after, rfl⟩
    · exact ⟨.logic, after, rfl⟩

theorem not_opensTag_nil : ¬ OpensTag [] := by
  rintro ⟨delimiter, after, heq⟩
  cases delimiter <;> simp [Delimiter.opening] at heq

/-- A run of literal text ends at the first opening delimiter, or with the source. -/
theorem splitText_eq {text run after : List Char} (h : splitText text = (run, after)) :
    text = run ++ after ∧ StopsFirst (fun text => text = [] ∨ OpensTag text) run after := by
  induction text generalizing run with
  | nil =>
      simp only [splitText, Prod.mk.injEq] at h
      obtain ⟨rfl, rfl⟩ := h
      exact ⟨rfl, stopsFirst_nil (.inl rfl)⟩
  | cons c rest ih =>
      simp only [splitText] at h
      split at h
      next hopen =>
        simp only [Prod.mk.injEq] at h
        obtain ⟨rfl, rfl⟩ := h
        exact ⟨rfl, stopsFirst_nil (.inr (opensTag_cons_iff.mpr hopen))⟩
      next hopen =>
        simp only [Prod.mk.injEq] at h
        obtain ⟨rfl, rfl⟩ := h
        obtain ⟨heq, hstops⟩ := ih rfl
        refine ⟨by rw [List.cons_append, ← heq], hstops.cons ?_⟩
        rw [List.cons_append, ← heq]
        rintro (hnil | hhere)
        · simp at hnil
        · exact hopen (opensTag_cons_iff.mp hhere)

/-- Where a tag opens there is no text. -/
theorem splitText_of_stops {text : List Char} (h : text = [] ∨ OpensTag text) :
    splitText text = ([], text) := by
  cases text with
  | nil => rfl
  | cons c rest =>
      have hopen : OpensTag (c :: rest) := by simpa using h
      rw [splitText, if_pos (opensTag_cons_iff.mp hopen)]

/-- A word that is told from white space and hyphens by its first character. -/
def BeginsPlainly (word : List Char) : Prop :=
  ∀ c, word.head? = some c → isBlank c = false ∧ c ≠ '-'

theorem endWord_beginsPlainly (opener : Keyword) :
    opener.endWord ≠ [] ∧ BeginsPlainly opener.endWord := by
  cases opener <;>
    exact ⟨by decide, fun c hc => by simp only [Keyword.endWord] at hc; cases hc; decide⟩

/-- The text without a hyphen at its start. -/
def behindHyphen (text : List Char) : List Char :=
  match text with
  | '-' :: rest => rest
  | _ => text

/-- Whether a text starts with the closing delimiter of a logic tag. -/
def closesLogic (text : List Char) : Bool :=
  match text with
  | '%' :: '\x7d' :: _ => true
  | '-' :: '%' :: '\x7d' :: _ => true
  | _ => false

theorem startsEndTag_eq (word rest : List Char) :
    startsEndTag word ('\x7b' :: '%' :: rest) =
      match afterLead? word (trimStart (behindHyphen rest)) with
      | none => false
      | some behind => closesLogic (trimStart behind) := rfl

theorem exists_behindHyphen (text : List Char) :
    ∃ hyphen, text = hyphenText hyphen ++ behindHyphen text := by
  unfold behindHyphen
  split
  next rest => exact ⟨true, rfl⟩
  next => exact ⟨false, rfl⟩

/-- A hyphen is skipped, and only one. -/
theorem behindHyphen_append {hyphen : Bool} {text : List Char} (h : text.head? ≠ some '-') :
    behindHyphen (hyphenText hyphen ++ text) = text := by
  cases hyphen with
  | true => rfl
  | false =>
      unfold behindHyphen
      split
      next rest heq =>
        obtain rfl : text = '-' :: rest := heq
        simp at h
      next => rfl

/-- A logic tag is closed by its delimiter, with a hyphen in front or without. -/
theorem closesLogic_iff {text : List Char} :
    closesLogic text = true ↔ ClosesTag .logic text := by
  constructor
  · intro h
    unfold closesLogic at h
    split at h
    next after => exact ⟨false, after, rfl⟩
    next after => exact ⟨true, after, rfl⟩
    next => simp at h
  · rintro ⟨hyphen, after, rfl⟩
    cases hyphen <;> rfl

/-- A logic tag of a single word, taken apart character by character. -/
theorem startsEndTag_iff {word text : List Char} (hne : word ≠ []) (hword : BeginsPlainly word) :
    startsEndTag word text = true ↔ StartsEndTag word text := by
  constructor
  · intro h
    have hopen : ∃ rest, text = '\x7b' :: '%' :: rest := by
      unfold startsEndTag at h
      split at h
      next rest => exact ⟨rest, rfl⟩
      next => simp at h
    obtain ⟨rest, rfl⟩ := hopen
    rw [startsEndTag_eq] at h
    split at h
    next => simp at h
    next behind hbehind =>
      obtain ⟨hyphen, hrest⟩ := exists_behindHyphen rest
      obtain ⟨gap, hgap, hinner⟩ := exists_append_trimStart (behindHyphen rest)
      obtain ⟨gap', hgap', hbehind'⟩ := exists_append_trimStart behind
      obtain ⟨hyphen', after, hafter⟩ := closesLogic_iff.mp h
      rw [afterLead?_eq_some_iff.mp hbehind] at hinner
      rw [hafter] at hbehind'
      refine ⟨hyphen, hyphen', gap, gap', after, hgap, hgap', ?_⟩
      rw [hrest, hinner, hbehind']
      simp [Delimiter.opening]
  · rintro ⟨hyphen, hyphen', gap, gap', after, hgap, hgap', rfl⟩
    obtain ⟨c, tail, rfl⟩ := List.exists_cons_of_ne_nil hne
    obtain ⟨hcblank, hchyphen⟩ := hword c rfl
    -- White space and hyphens are taken off greedily, so each part has to begin with neither.
    let close := hyphenText hyphen' ++ Delimiter.logic.closing ++ after
    have hclose : trimStart (gap' ++ close) = close := by
      apply trimStart_append hgap'
      intro d hd
      cases hyphen' <;> (cases hd; decide)
    have hinner : behindHyphen (hyphenText hyphen ++ (gap ++ (c :: tail ++ (gap' ++ close)))) =
        gap ++ (c :: tail ++ (gap' ++ close)) := by
      apply behindHyphen_append
      cases gap with
      | nil => simpa using hchyphen
      | cons d gap =>
          rintro ⟨rfl⟩
          exact absurd (hgap '-' (by simp)) (by decide)
    have htext : Delimiter.logic.opening ++ hyphenText hyphen ++ gap ++ c :: tail ++ gap' ++
        hyphenText hyphen' ++ Delimiter.logic.closing ++ after =
        '\x7b' :: '%' :: (hyphenText hyphen ++ (gap ++ (c :: tail ++ (gap' ++ close)))) := by
      simp [close, Delimiter.opening]
    have hlead : trimStart (gap ++ (c :: tail ++ (gap' ++ close))) =
        c :: tail ++ (gap' ++ close) := by
      apply trimStart_append hgap
      intro d hd
      cases hd
      exact hcblank
    rw [htext, startsEndTag_eq, hinner, hlead, afterLead?_eq_some_iff.mpr rfl]
    simp only [hclose]
    exact closesLogic_iff.mpr ⟨hyphen', after, rfl⟩

/-- The body of a verbatim block ends at the first end tag. -/
theorem splitVerbatim?_eq_some {word text run after : List Char}
    (h : splitVerbatim? word text = some (run, after)) :
    text = run ++ after ∧ StopsFirst (fun text => startsEndTag word text = true) run after := by
  induction text generalizing run with
  | nil => simp [splitVerbatim?] at h
  | cons c rest ih =>
      simp only [splitVerbatim?] at h
      split at h
      next hend =>
        simp only [Option.some.injEq, Prod.mk.injEq] at h
        obtain ⟨rfl, rfl⟩ := h
        exact ⟨rfl, stopsFirst_nil hend⟩
      next hend =>
        obtain ⟨⟨run', after'⟩, hsplit, heq⟩ := Option.map_eq_some_iff.mp h
        simp only [Prod.mk.injEq] at heq
        obtain ⟨rfl, rfl⟩ := heq
        obtain ⟨hrest, hstops⟩ := ih hsplit
        refine ⟨by rw [List.cons_append, ← hrest], hstops.cons ?_⟩
        rwa [List.cons_append, ← hrest]

/-- If no end tag was found, none starts anywhere. -/
theorem splitVerbatim?_eq_none {word text : List Char} (h : splitVerbatim? word text = none)
    (front back : List Char) (htext : text = front ++ back) : startsEndTag word back = false := by
  induction text generalizing front with
  | nil =>
      rw [(List.append_eq_nil_iff.mp htext.symm).2]
      rfl
  | cons c rest ih =>
      simp only [splitVerbatim?] at h
      split at h
      next => simp at h
      next hend =>
        cases front with
        | nil =>
            obtain rfl : c :: rest = back := htext
            simpa using hend
        | cons d front =>
            simp only [List.cons_append, List.cons.injEq] at htext
            exact ih (Option.map_eq_none_iff.mp h) front htext.2

/-- Text is trimmed in front of a tag that opens with a hyphen. -/
theorem opensTrimmed_iff {text : List Char} : opensTrimmed text = true ↔ OpensHyphened text := by
  constructor
  · intro h
    unfold opensTrimmed at h
    split at h
    next after => exact ⟨.output, after, rfl⟩
    next after => exact ⟨.logic, after, rfl⟩
    next => simp at h
  · rintro ⟨delimiter, after, rfl⟩
    cases delimiter <;> rfl

/-- What the lexer keeps of a run of text is what the hyphens on either side leave of it. -/
theorem exists_trimming_keptText (trim : Bool) (run after : List Char) :
    ∃ trail, Trimming trim (opensTrimmed after) run
      (if trim then run.takeWhile isBlank else []) (keptText trim run after) trail := by
  have hstart : Trimming trim false run (if trim then run.takeWhile isBlank else [])
      (if trim then trimStart run else run) [] := by
    cases trim with
    | true => exact trimming_start run
    | false => exact trimming_none run
  unfold keptText
  cases opensTrimmed after with
  | true => exact ⟨_, hstart.atEnd⟩
  | false => exact ⟨_, hstart⟩

/-! ## Single steps -/

/-- What a tag has recorded about the tokens read of it. -/
structure Tracks (tag : OpenTag) (delimiter : Delimiter) (opening : Token) (read : List Token) :
    Prop where
  delimiter_eq : tag.delimiter = delimiter
  opened_eq : tag.opened = opening.position
  last?_eq : tag.last? = none ↔ read = []
  verbatim?_eq : tag.verbatim?.map (·, opening.position) =
    verbatimOpener? delimiter (opening :: read)

/-- A lexer in this mode, with `rest` ahead, stands at a place. -/
inductive StandsAt (rest : List Char) : LexerMode → Place → Prop
  | text {trim : Bool} : StandsAt rest (.text trim) (.text trim none)
  | verbatim {trim : Bool} {opener : Keyword} {opened : Position} :
      StandsAt rest (.verbatim opener opened trim) (.text trim (some (opener, opened)))
  | tag (stops : rest = [] ∨ OpensTag rest) : StandsAt rest (.text false) .tag
  | inside {tag : OpenTag} {delimiter : Delimiter} {opening : Token} {read : List Token}
      (tracks : Tracks tag delimiter opening read) :
      StandsAt rest (.inside tag) (.inside delimiter (opening :: read))

/-- The tokens that begin with a given step and go on with at most `fuel` more. -/
def streamOf (fuel : Nat) : LexerStep → TokenStream
  | .finished => ⟨[], none⟩
  | .failed error => ⟨[], some error⟩
  | .token token next => (run fuel next).behind [token]

theorem run_succ (fuel : Nat) (lexer : Lexer) :
    run (fuel + 1) lexer = streamOf fuel lexer.step := by
  rw [run]
  cases lexer.step <;> rfl

/-- Only the first word of a tag opens a verbatim block. -/
theorem push_verbatim?_of_last? {tag : OpenTag} (h : tag.last? ≠ none) (kind : TokenKind) :
    (tag.push kind).verbatim? = tag.verbatim? := by
  cases hlast : tag.last? with
  | none => exact absurd hlast h
  | some last => simp [OpenTag.push, hlast]

/-- A lexer with less than the given length of text ahead yields what it has to. -/
def Continues (fuel length : Nat) : Prop :=
  ∀ (before rest : List Char) (mode : LexerMode) (place : Place), StandsAt rest mode place →
    rest.length < length → Scanned place before rest (run fuel ⟨rest, positionBehind before, mode⟩)

/-- With fuel for some length there is fuel for less. -/
theorem Continues.mono {fuel length length' : Nat} (h : Continues fuel length)
    (hle : length' ≤ length) : Continues fuel length' :=
  fun before rest mode place hstands hlength =>
    h before rest mode place hstands (Nat.lt_of_lt_of_le hlength hle)

/-- A token in the tag is tracked: the word is the first one behind the delimiter. -/
theorem tracks_push {tag : OpenTag} {delimiter : Delimiter} {opening : Token}
    {read : List Token} (h : Tracks tag delimiter opening read) (token : Token) :
    Tracks (tag.push token.kind) delimiter opening (read ++ [token]) where
  delimiter_eq := h.delimiter_eq
  opened_eq := h.opened_eq
  last?_eq := by simp [OpenTag.push]
  verbatim?_eq := by
    -- Only the token behind the opening delimiter can open a verbatim block.
    cases read with
    | nil =>
        have hlast := h.last?_eq.mpr rfl
        have hnone : tag.verbatim? = none := by
          have hopener := h.verbatim?_eq
          cases delimiter <;> simpa [verbatimOpener?] using hopener
        simp only [OpenTag.push, h.delimiter_eq, hlast, hnone, List.nil_append]
        cases delimiter with
        | output => rfl
        | logic =>
            cases hkind : token.kind with
            | keyword word => cases word <;> simp [verbatimOpener?, hkind]
            | _ => simp [verbatimOpener?, hkind]
    | cons first read =>
        have hlast : tag.last? ≠ none := fun hnone => by simpa using h.last?_eq.mp hnone
        rw [push_verbatim?_of_last? hlast, h.verbatim?_eq]
        cases delimiter <;> rfl

/-- Nothing has been read of a tag but its opening delimiter. -/
theorem tracks_start (delimiter : Delimiter) (before : List Char) (text : String) :
    Tracks ⟨delimiter, positionBehind before, none, none⟩ delimiter
      ⟨delimiter.openKind, text, positionBehind before⟩ [] where
  delimiter_eq := rfl
  opened_eq := rfl
  last?_eq := by simp
  verbatim?_eq := by cases delimiter <;> rfl

theorem standsAt_modeAfter {tag : OpenTag} {delimiter : Delimiter} {opening : Token}
    {read : List Token} {rest : List Char} (h : Tracks tag delimiter opening read) (trim : Bool) :
    StandsAt rest (modeAfter tag trim)
      (.text trim (verbatimOpener? delimiter (opening :: read))) := by
  rw [← h.verbatim?_eq, modeAfter, h.opened_eq]
  cases tag.verbatim? with
  | none => exact .text
  | some opener => exact .verbatim

/-- A hyphen belongs to no closing delimiter. -/
theorem infix_of_hyphenText (delimiter : Delimiter) {hyphen : Bool} {after : List Char}
    (h : delimiter.closing <:+: hyphenText hyphen ++ after) : delimiter.closing <:+: after := by
  cases hyphen with
  | false => exact h
  | true =>
      rcases List.infix_cons_iff.mp h with hstart | hrest
      · obtain ⟨more, hmore⟩ := hstart
        cases delimiter <;> simp [Delimiter.closing] at hmore
      · exact hrest

theorem closingAt?_eq_none {delimiter : Delimiter} {text : List Char}
    (h : closingAt? delimiter text = none) : ¬ ClosesTag delimiter text := by
  rintro ⟨hyphen, after, rfl⟩
  have hsome : closingAt? delimiter (hyphenText hyphen ++ delimiter.closing ++ after) =
      some ((hyphenText hyphen ++ delimiter.closing).length, hyphen) := by
    cases hyphen <;> cases delimiter <;> rfl
  cases hsome.symm.trans h

/-- A closing delimiter takes its own characters and its hyphen. -/
theorem closingAt?_eq_some {delimiter : Delimiter} {text : List Char} {width : Nat} {trim : Bool}
    (h : closingAt? delimiter text = some (width, trim)) :
    ∃ after, text = hyphenText trim ++ delimiter.closing ++ after ∧
      width = (hyphenText trim ++ delimiter.closing).length := by
  unfold closingAt? at h
  split at h
  all_goals
    split at h
    next hsome =>
      obtain ⟨after, hafter⟩ := afterLead?_isSome_iff.mp hsome
      simp only [Option.some.injEq, Prod.mk.injEq] at h
      obtain ⟨rfl, rfl⟩ := h
      refine ⟨after, ?_, by cases delimiter <;> rfl⟩
      simp [hyphenText, hafter]
    next => simp at h

/-- The hyphen at the start of a text, if there is one, and what follows it. -/
theorem exists_longest_hyphen (text : List Char) : ∃ hyphen after,
    text = hyphenText hyphen ++ after ∧ (hyphen = false → after.head? ≠ some '-') := by
  by_cases hhead : text.head? = some '-'
  · obtain ⟨after, rfl⟩ := List.head?_eq_some_iff.mp hhead
    exact ⟨true, after, rfl, by simp⟩
  · exact ⟨false, text, rfl, fun _ => hhead⟩

/-- A tag that opens with a hyphen trims, and no other does. -/
theorem opensTrimmed_opening {delimiter : Delimiter} {hyphen : Bool} {after : List Char}
    (hlongest : hyphen = false → after.head? ≠ some '-') :
    opensTrimmed (delimiter.opening ++ (hyphenText hyphen ++ after)) = hyphen := by
  cases hyphen with
  | true => cases delimiter <;> rfl
  | false =>
      rw [← Bool.not_eq_true, opensTrimmed_iff]
      rintro ⟨delimiter', after', heq⟩
      cases delimiter <;> cases delimiter' <;>
        simp [Delimiter.opening, hyphenText] at heq <;> simp [heq] at hlongest

section Step

variable {fuel : Nat} {before : List Char}

/-- An opening delimiter yields its token, or the error that no closing one follows. -/
theorem scanned_openTag {text : List Char} {mode : LexerMode} (hopen : OpensTag text)
    (hnext : Continues fuel text.length) :
    Scanned .tag before text (streamOf fuel (openTag ⟨text, positionBehind before, mode⟩)) := by
  obtain ⟨delimiter, inside, rfl⟩ := hopen
  obtain ⟨hyphen, after, rfl, hlongest⟩ := exists_longest_hyphen inside
  have hdelimiter :
      delimiterOf (delimiter.opening ++ (hyphenText hyphen ++ after)) = delimiter := by
    cases delimiter <;> rfl
  have hwidth :
      (if opensTrimmed (delimiter.opening ++ (hyphenText hyphen ++ after)) then 3 else 2) =
        (delimiter.opening ++ hyphenText hyphen).length := by
    rw [opensTrimmed_opening hlongest]
    cases hyphen <;> cases delimiter <;> rfl
  simp only [openTag, hdelimiter, hwidth]
  split
  next =>
    have htracks := tracks_start delimiter before
      (String.ofList (delimiter.opening ++ hyphenText hyphen))
    rw [← List.append_assoc] at hnext ⊢
    rw [List.take_left, List.drop_left, ← positionBehind_append]
    have hlength : after.length < (delimiter.opening ++ hyphenText hyphen ++ after).length := by
      rw [List.length_append, List.length_append, delimiter.opening_length]
      omega
    have hinside := hnext (before ++ (delimiter.opening ++ hyphenText hyphen)) after _ _
      (.inside htracks) hlength
    cases delimiter <;> exact .opening rfl hlongest rfl hinside
  next hcloses =>
    refine .unterminated fun hoccurs => hcloses ?_
    rw [← List.append_assoc, List.drop_left]
    exact occurs_iff.mpr (infix_of_hyphenText delimiter hoccurs)

/-- The run of text ahead yields what is left of it, or, if nothing is left, the token behind it. -/
theorem scanned_textStep {trim : Bool} {opener? : Option (Keyword × Position)}
    {run after : List Char} (hstops : StopsFirst (RunStops opener?) run after)
    (hafter : after = [] ∨ OpensTag after)
    (hnext : Continues fuel (run ++ after).length) :
    Scanned (.text trim opener?) before (run ++ after)
      (streamOf fuel (textStep (positionBehind before) trim run after)) := by
  obtain ⟨trail, htrim⟩ := exists_trimming_keptText trim run after
  have hscan : ∀ {stream : TokenStream}, Scanned .tag (before ++ run) after stream →
      Scanned (.text trim opener?) before (run ++ after) (stream.behind
        (literalOf (keptText trim run after)
          (positionBehind (before ++ if trim then run.takeWhile isBlank else [])))) :=
    fun hrest => .run hstops opensTrimmed_iff htrim hrest
  have hstart : positionBehind (before ++ if trim then run.takeWhile isBlank else []) =
      if trim then (positionBehind before).advanceBy (run.takeWhile isBlank)
      else positionBehind before := by
    cases trim with
    | true => exact positionBehind_append _ _
    | false => simp
  -- A run of which nothing is left yields no token: the step goes on to the tag behind it.
  unfold textStep
  by_cases hkept : keptText trim run after = []
  · rw [hkept] at hscan
    rw [if_pos (by simpa using hkept)]
    rcases hafter with rfl | hopen
    · exact hscan .finished
    · have hne : after ≠ [] := fun hnil => not_opensTag_nil (hnil ▸ hopen)
      rw [if_neg (by simpa using hne)]
      have htag : Scanned .tag (before ++ run) after (streamOf fuel
          (openTag ⟨after, (positionBehind before).advanceBy run, .text false⟩)) := by
        rw [← positionBehind_append]
        apply scanned_openTag hopen
        apply hnext.mono
        rw [List.length_append]
        exact Nat.le_add_left _ _
      exact hscan htag
  · rw [if_neg (by simpa using hkept), streamOf]
    have hliteral : literalOf (keptText trim run after)
        (positionBehind (before ++ if trim then run.takeWhile isBlank else [])) =
        [⟨.literal, String.ofList (keptText trim run after),
          if trim then (positionBehind before).advanceBy (run.takeWhile isBlank)
          else positionBehind before⟩] := by
      rw [literalOf, if_neg hkept, hstart]
    rw [hliteral] at hscan
    have hrun : run ≠ [] := by
      rintro rfl
      apply hkept
      cases trim <;> simp [keptText, trimStart, trimEnd]
    have hlength : after.length < (run ++ after).length := by
      rw [List.length_append]
      exact Nat.lt_add_of_pos_left (List.length_pos_iff.mpr hrun)
    have hrest := hnext (before ++ run) after _ _ (.tag hafter) hlength
    rw [positionBehind_append] at hrest
    exact hscan hrest

/-- Inside a tag the next token, the closing delimiter or an error comes behind white space. -/
theorem scanned_insideStep {text : List Char} {mode : LexerMode} {tag : OpenTag}
    {delimiter : Delimiter} {opening : Token} {read : List Token}
    (htracks : Tracks tag delimiter opening read) (hnext : Continues fuel text.length) :
    Scanned (.inside delimiter (opening :: read)) before text
      (streamOf fuel (insideStep ⟨text, positionBehind before, mode⟩ tag)) := by
  have hgap : ∀ c ∈ text.takeWhile isBlank, isBlank c = true :=
    fun _ => isBlank_of_mem_takeWhile
  have hvisible : ∀ c, (text.dropWhile isBlank).head? = some c → isBlank c = false :=
    fun _ => not_isBlank_head_trimStart
  have hsplit : text.takeWhile isBlank ++ text.dropWhile isBlank = text :=
    List.takeWhile_append_dropWhile
  unfold insideStep
  dsimp only
  rw [htracks.delimiter_eq, ← positionBehind_append]
  generalize text.takeWhile isBlank = gap at *
  generalize text.dropWhile isBlank = ahead at *
  subst text
  split
  next width hyphen hclosing =>
    obtain ⟨after, rfl, rfl⟩ := closingAt?_eq_some hclosing
    rw [List.take_left, List.drop_left, ← positionBehind_append, ← List.append_assoc]
    have hlength : after.length <
        (gap ++ (hyphenText hyphen ++ delimiter.closing ++ after)).length := by
      simp only [List.length_append, delimiter.closing_length]
      omega
    have hrest := hnext (before ++ gap ++ (hyphenText hyphen ++ delimiter.closing)) after _ _
      (standsAt_modeAfter htracks hyphen) hlength
    cases delimiter <;> exact .closing hgap rfl rfl hrest
  next hstays =>
    have houtcome := Lexeme.outcome_read (tag.last? == some .dot) ahead
    split
    next lexeme hread =>
      obtain ⟨spelling, after, rfl, hspelled⟩ := Lexeme.spelledBy_of_read hread
      rw [hspelled.width_eq, List.take_left, List.drop_left, ← positionBehind_append,
        ← List.append_assoc]
      have hlength : after.length < (gap ++ (spelling ++ after)).length := by
        have hpos := List.length_pos_iff.mpr hspelled.ne_nil
        simp only [List.length_append]
        omega
      have hpushed := tracks_push htracks
        ⟨lexeme.kind, String.ofList lexeme.text, positionBehind (before ++ gap)⟩
      have hrest := hnext (before ++ gap ++ spelling) after _ _ (.inside hpushed) hlength
      exact .inner hgap hspelled.ne_nil hspelled.inner (by simpa using hspelled.spells) rfl hrest
    next c hread =>
      rw [hread] at houtcome
      cases houtcome with
      | strange text_eq starts_none =>
          subst text_eq
          exact .strange hgap (hvisible c rfl) (closingAt?_eq_none hstays) starts_none
    next hread =>
      rw [hread] at houtcome
      cases houtcome with
      | unfinished cut =>
          rw [htracks.opened_eq]
          exact .unfinished hgap cut

end Step

/-! ## Whole sources -/

/-- A verbatim block runs up to the first place where its end tag starts. -/
theorem stopsFirst_of_splitVerbatim? {opener : Keyword} {opened : Position}
    {text run after : List Char} (h : splitVerbatim? opener.endWord text = some (run, after)) :
    text = run ++ after ∧ StopsFirst (RunStops (some (opener, opened))) run after := by
  obtain ⟨heq, hend, hfirst⟩ := splitVerbatim?_eq_some h
  obtain ⟨hne, hplain⟩ := endWord_beginsPlainly opener
  refine ⟨heq, (startsEndTag_iff hne hplain).mp hend, ?_⟩
  intro front back hrun hback hstops
  exact hfirst front back hrun hback ((startsEndTag_iff hne hplain).mpr hstops)

theorem opensTag_of_startsEndTag {word text : List Char} (h : StartsEndTag word text) :
    OpensTag text := by
  obtain ⟨hyphen, hyphen', gap, gap', after, -, -, rfl⟩ := h
  exact ⟨.logic, hyphenText hyphen ++ gap ++ word ++ gap' ++ hyphenText hyphen' ++
    Delimiter.logic.closing ++ after, by simp only [List.append_assoc]⟩

/-- With more steps than characters ahead, the lexer yields what it has to from every place. -/
theorem continues_self (fuel : Nat) : Continues fuel fuel := by
  induction fuel with
  | zero => exact fun _ rest _ _ _ hlength => absurd hlength (Nat.not_lt_zero _)
  | succ fuel ih =>
      intro before rest mode place hstands hlength
      -- A step takes a character or ends, so the places it leads to have one step less to go.
      have hnext : Continues fuel rest.length := ih.mono (Nat.le_of_lt_succ hlength)
      rw [run_succ]
      cases hstands with
      | @text trim =>
          obtain ⟨run, after, hsplit⟩ : ∃ run after, splitText rest = (run, after) := ⟨_, _, rfl⟩
          obtain ⟨rfl, hstops⟩ := splitText_eq hsplit
          simp only [step, hsplit]
          exact scanned_textStep hstops hstops.1 hnext
      | @verbatim trim opener opened =>
          simp only [step]
          split
          next run after hsplit =>
            obtain ⟨rfl, hstops⟩ := stopsFirst_of_splitVerbatim? hsplit
            exact scanned_textStep hstops (.inr (opensTag_of_startsEndTag hstops.1)) hnext
          next hsplit =>
            obtain ⟨hne, hplain⟩ := endWord_beginsPlainly opener
            refine .unclosed ?_
            intro front back hrest hend
            have hnone : startsEndTag opener.endWord back = false :=
              splitVerbatim?_eq_none hsplit front back hrest
            rw [(startsEndTag_iff hne hplain).mpr hend] at hnone
            cases hnone
      | tag hstops =>
          simp only [step, splitText_of_stops hstops]
          rcases hstops with rfl | hopen
          · exact .finished
          · have hne : rest ≠ [] := fun hnil => not_opensTag_nil (hnil ▸ hopen)
            have hstep : textStep (positionBehind before) false [] rest =
                openTag ⟨rest, positionBehind before, .text false⟩ := by
              unfold textStep keptText
              simp [trimEnd, hne, Position.advanceBy]
            rw [hstep]
            exact scanned_openTag hopen hnext
      | inside htracks => exact scanned_insideStep htracks hnext

end Lexer

/-- The tokens of a source account for all of it, up to the first error. -/
theorem scanned_tokenize (source : List Char) :
    Scanned (.text false none) [] source (tokenize source) :=
  Lexer.continues_self (source.length + 1) [] source _ _ .text (Nat.lt_succ_self _)

/-- A cause for which the lexer gives up. -/
def SyntaxCause.isLexical : SyntaxCause → Bool
  | .unterminatedTag _ | .unclosedBlock _ | .unexpectedCharacter _ => true
  | _ => false

/-- The lexer gives no other errors than its own. -/
theorem Scanned.isLexical_failure {place : Place} {before text : List Char} {stream : TokenStream}
    {error : SyntaxError} (h : Scanned place before text stream)
    (hfailure : stream.failure? = some error) : error.cause.isLexical = true := by
  induction h with
  | run stops hyphened trimming rest ih => exact ih hfailure
  | unclosed endless => cases hfailure; rfl
  | finished => cases hfailure
  | opening spelling longest token_eq rest ih => exact ih hfailure
  | unterminated => cases hfailure; rfl
  | inner blank ne_nil inside spells position_eq rest ih => exact ih hfailure
  | closing blank spelling token_eq rest ih => exact ih hfailure
  | strange blank => cases hfailure; rfl
  | unfinished => cases hfailure; rfl

/-- The lexer knows of tags and characters, but not of how they go together. -/
theorem isLexical_of_tokenize {source : List Char} {error : SyntaxError}
    (h : (tokenize source).failure? = some error) : error.cause.isLexical = true :=
  (scanned_tokenize source).isLexical_failure h

end TextTemplate
