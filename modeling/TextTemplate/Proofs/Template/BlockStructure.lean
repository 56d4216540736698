import TextTemplate.Proofs.Parser.BlockAgreement
import TextTemplate.Proofs.Template.Refusal
/-! # Templates and the stack of their blocks

A source that is parsed leads the stack of open blocks from empty to empty. If it is refused because
its blocks do not fit together, the error tells where the stack is stuck or which block is on top of
it at the end.
-/

namespace TextTemplate

open BlockStack

/-- The tags up to some place and in the tokens behind it, from the last one before that place. -/
def Place.tagsWith : Place → List Token → List Tag
  | .text _ (some (opener, opened)), tokens => ⟨opener, opened⟩ :: tagsOf tokens
  | .inside _ read, tokens => tagsOf (read ++ tokens)
  | _, tokens => tagsOf tokens

/-- What has been read of a tag, or the block that it has opened, is as the lexer has it. -/
def Place.IsRead : Place → Prop
  | .text _ (some (opener, _)) => opener.closing?.isSome = true
  | .inside delimiter read => ∃ (opening : Token) (inner : List Token), read = opening :: inner ∧
      opening.kind = delimiter.openKind ∧ ∀ token ∈ inner, token.kind ≠ .tagOpen
  | _ => True

/-- The lexer does not know of blocks but of those whose inside it passes over, and gives up only on
the last one. -/
def LastOpened (tags : List Tag) : SyntaxCause → Position → Prop
  | .mismatchedBlock _ _, _ => False
  | .unclosedBlock word, position =>
    tags.getLast? = some ⟨word, position⟩ ∧ word.closing?.isSome = true
  | _, _ => True

/-- Tags in front do not change which block was opened last. -/
theorem LastOpened.append {tags : List Tag} {cause : SyntaxCause} {position : Position}
    (h : LastOpened tags cause position) (front : List Tag) :
    LastOpened (front ++ tags) cause position := by
  unfold LastOpened at h ⊢
  split at h
  · exact h
  · obtain ⟨hlast, hopens⟩ := h
    refine ⟨?_, hopens⟩
    rw [List.getLast?_append, hlast]
    rfl
  · trivial

/-- The lexer takes a tag for a verbatim block if its first word is one that opens such a block. -/
theorem verbatimOpener?_eq_some {delimiter : Delimiter} {read : List Token} {word : Keyword}
    {position : Position} (h : verbatimOpener? delimiter read = some (word, position)) :
    ∃ opening first more, delimiter = .logic ∧ read = opening :: first :: more ∧
      first.kind = .keyword word ∧ opening.position = position ∧
        word.closing?.isSome = true := by
  unfold verbatimOpener? at h
  split at h
  next opening first more =>
    split at h
    · cases h
      exact ⟨opening, first, more, rfl, rfl, by assumption, rfl, rfl⟩
    · cases h
      exact ⟨opening, first, more, rfl, rfl, by assumption, rfl, rfl⟩
    · cases h
  next => cases h

/-- The verbatim block that a tag opens is among the tags. -/
theorem tagsOf_read {delimiter : Delimiter} {read : List Token} {token : Token}
    (hread : (Place.inside delimiter read).IsRead) (htoken : token.kind ≠ .tagOpen)
    (hyphen : Bool) (rest : List Token) : ∃ front, tagsOf (read ++ token :: rest) =
      front ++ (Place.text hyphen (verbatimOpener? delimiter read)).tagsWith rest := by
  cases hopener : verbatimOpener? delimiter read with
  | none =>
      have hsuffix : rest <:+ read ++ token :: rest :=
        (List.suffix_cons token rest).trans (List.suffix_append _ _)
      obtain ⟨front, hfront⟩ := tagsOf_suffix hsuffix
      exact ⟨front, hfront.symm⟩
  | some opener =>
      obtain ⟨opening, first, more, rfl, rfl, hfirst, hposition, -⟩ :=
        verbatimOpener?_eq_some hopener
      obtain ⟨_, inner, heq, hopening, hinner⟩ := hread
      cases heq
      have htail : tagsOf (more ++ token :: rest) = tagsOf rest := by
        rw [tagsOf_append fun token hmem => hinner token (List.mem_cons_of_mem _ hmem),
          tagsOf_cons htoken]
      refine ⟨[], ?_⟩
      rw [List.cons_append, List.cons_append, tagsOf_tag hopening hfirst, htail, hposition]
      rfl

/-- Where the lexer fails for want of an end tag, the block that it names was the last one
opened. -/
theorem Scanned.lastOpened {place : Place} {before text : List Char} {stream : TokenStream}
    (h : Scanned place before text stream) (hread : place.IsRead) {error : SyntaxError}
    (hfailure : stream.failure? = some error) :
    LastOpened (place.tagsWith stream.tokens) error.cause error.position := by
  induction h with
  | @run _ _ opener? _ _ _ _ _ _ stream stops hyphened trimming rest ih =>
      -- A text is no tag, so the one in front of it is at most the tag that opened it.
      have hrest := ih trivial hfailure
      have htags : ∀ kept position, tagsOf (literalOf kept position ++ stream.tokens) =
          tagsOf stream.tokens := by
        intro kept position
        apply tagsOf_append
        unfold literalOf
        split <;> simp
      cases opener? with
      | none => simpa [Place.tagsWith, TokenStream.behind, htags] using hrest
      | some opener =>
          have hmore := hrest.append [⟨opener.1, opener.2⟩]
          simpa [Place.tagsWith, TokenStream.behind, htags] using hmore
  | unclosed endless =>
      cases hfailure
      exact ⟨rfl, hread⟩
  | finished => cases hfailure
  | opening spelling longest token_eq rest ih =>
      exact ih ⟨_, [], rfl, by rw [token_eq], fun _ hmem => absurd hmem List.not_mem_nil⟩
        hfailure
  | unterminated =>
      cases hfailure
      trivial
  | @inner _ read _ _ _ _ token stream blank ne_nil inside spells position_eq rest ih =>
      obtain ⟨opening, more, rfl, hopening, hinner⟩ := hread
      have htoken : token.kind ≠ .tagOpen := by
        intro hkind
        rw [hkind] at inside
        cases inside
      have hmore : ∀ other ∈ more ++ [token], other.kind ≠ .tagOpen := by
        intro other hother
        rcases List.mem_append.mp hother with hmem | hmem
        · exact hinner other hmem
        · rw [List.mem_singleton.mp hmem]
          exact htoken
      have hrest := ih ⟨opening, more ++ [token], rfl, hopening, hmore⟩ hfailure
      simpa [Place.tagsWith, TokenStream.behind] using hrest
  | @closing delimiter read hyphen _ _ _ _ token stream blank spelling token_eq rest ih =>
      have htoken : token.kind ≠ .tagOpen := by
        rw [token_eq]
        cases delimiter <;> simp [Delimiter.closeKind]
      have hplace : (Place.text hyphen (verbatimOpener? delimiter read)).IsRead := by
        cases hopener : verbatimOpener? delimiter read with
        | none => trivial
        | some opener =>
            obtain ⟨_, _, _, -, -, -, -, hopens⟩ := verbatimOpener?_eq_some hopener
            exact hopens
      obtain ⟨front, hfront⟩ := tagsOf_read hread htoken hyphen stream.tokens
      have hmore := (ih hplace hfailure).append front
      rw [← hfront] at hmore
      exact hmore
  | strange blank =>
      cases hfailure
      trivial
  | unfinished =>
      cases hfailure
      trivial

/-- The stack behind the tags of a source has on top the block that the lexer gives up on. -/
theorem opened_of_lexical {source : List Char} {word : Keyword} {position : Position}
    {reached : BlockStack}
    (hfailure : (tokenize source).failure? = some ⟨.unclosedBlock word, position⟩)
    (hrun : BlockStack.run [] (tagsOf (tokenize source).tokens) = .ok reached) :
    ∃ (frame : BlockFrame) (outer : BlockStack),
      reached = frame :: outer ∧ frame.block = ⟨word, position⟩ := by
  obtain ⟨hlast, hopens⟩ := (scanned_tokenize source).lastOpened trivial hfailure
  obtain ⟨front, hfront⟩ := List.getLast?_eq_some_iff.mp hlast
  have htags : tagsOf (tokenize source).tokens = front ++ [⟨word, position⟩] := hfront
  rw [htags] at hrun
  obtain ⟨before, hstep⟩ := run_concat hrun
  rw [step_opening hopens, Option.some.injEq] at hstep
  exact ⟨_, _, hstep.symm, rfl⟩

/-- The lexer leaves the order of end tags to the parser. -/
theorem not_mismatched_of_lexical {source : List Char} {word : Keyword} {expected : Option Keyword}
    {position : Position} :
    (tokenize source).failure? ≠ some ⟨.mismatchedBlock word expected, position⟩ :=
  fun hfailure => absurd (isLexical_of_tokenize hfailure) nofun

theorem parseNodes_of_malformed {source : String} {options : RenderOptions} {error : SyntaxError}
    (h : parseTemplate source options = .error (.malformed error)) :
    parseNodes source options.maxNestingDepth = .error error := by
  cases hnodes : parseNodes source options.maxNestingDepth with
  | error error' =>
      rw [parseTemplate_of_malformed hnodes] at h
      cases h
      rfl
  | ok nodes =>
      cases hcall : unknownFilterInNodes? nodes with
      | none =>
          rw [parseTemplate_of_known hnodes hcall] at h
          cases h
      | some call =>
          rw [parseTemplate_of_unknown hnodes hcall] at h
          cases h

/-- A source that is parsed leaves no block open. -/
theorem run_of_parseNodes {source : String} {limit : Nat} {nodes : List Node}
    (h : parseNodes source limit = .ok nodes) :
    BlockStack.run [] (tagsOf (tokenize source.toList).tokens) = .ok [] := by
  obtain ⟨next, htemplate⟩ := parseNodes_eq_ok h
  have hnil : next.tokens = [] := (Parser.template_finished htemplate).tokens_eq
  have hfollows := Parser.follows_template limit (Parser.start (tokenize source.toList))
  obtain ⟨reached, -, -, hrun, hreached⟩ := hfollows.ok nodes next htemplate
  rw [hnil, hreached] at hrun
  exact hrun

/-- The stack behind the tags of a source explains why it is refused. -/
theorem explains_of_parseNodes {source : String} {limit : Nat} {error : SyntaxError}
    (h : parseNodes source limit = .error error) :
    Parser.Explains [] (Parser.start (tokenize source.toList)) error := by
  have hfollows := Parser.follows_template limit (Parser.start (tokenize source.toList))
  exact hfollows.error error (parseNodes_eq_error h)

/-- A template that is parsed leads the stack from empty to empty. One with a tag too many points at
the first tag at which the stack is stuck, and names what would close the innermost block there. One
that leaves a block open points at the innermost of those open, and no tag was one too many. -/
theorem parseTemplate_blocks (source : String) (options : RenderOptions) :
    (∀ nodes, parseTemplate source options = .ok nodes →
        BlockStack.run [] (tagsOf (tokenize source.toList).tokens) = .ok []) ∧
      (∀ word expected position,
        parseTemplate source options =
          .error (.malformed ⟨.mismatchedBlock word expected, position⟩) →
        ∃ stack : BlockStack, expected = stack.closing? ∧
          BlockStack.run [] (tagsOf (tokenize source.toList).tokens) =
            .error ⟨⟨word, position⟩, stack⟩) ∧
      ∀ word position,
        parseTemplate source options = .error (.malformed ⟨.unclosedBlock word, position⟩) →
        ∃ (frame : BlockFrame) (outer : BlockStack), frame.block = ⟨word, position⟩ ∧
          BlockStack.run [] (tagsOf (tokenize source.toList).tokens) = .ok (frame :: outer) := by
  refine ⟨?_, ?_, ?_⟩
  · intro nodes hok
    exact run_of_parseNodes (parseTemplate_eq_ok hok).1
  · intro word expected position herror
    have hexplains := explains_of_parseNodes (parseNodes_of_malformed herror)
    cases hexplains with
    | lexical failure run => exact absurd failure not_mismatched_of_lexical
    | mismatched run => exact ⟨_, rfl, run⟩
    | other about => cases about
  · intro word position herror
    have hexplains := explains_of_parseNodes (parseNodes_of_malformed herror)
    cases hexplains with
    | lexical failure run =>
        obtain ⟨frame, outer, rfl, hblock⟩ := opened_of_lexical failure run
        exact ⟨frame, outer, hblock, run⟩
    | unclosed run => exact ⟨_, _, rfl, run⟩
    | other about => cases about

/-- The stack is stuck at the wrong closing tag of a branch. -/
theorem parseTemplate_blocks_branch :
    ∃ stack : BlockStack, some Keyword.endIf = stack.closing? ∧
      BlockStack.run [] (tagsOf (tokenize "{% if x %}{% endfor %}".toList).tokens) =
        .error ⟨⟨.endFor, ⟨1, 11, 10⟩⟩, stack⟩ :=
  (parseTemplate_blocks "{% if x %}{% endfor %}" {}).2.1 .endFor (some .endIf) ⟨1, 11, 10⟩
    (parseTemplate_of_malformed (by decide +kernel))

end TextTemplate
