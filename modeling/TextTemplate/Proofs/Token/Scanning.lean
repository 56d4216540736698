import TextTemplate.Proofs.Token.Spelling
/-! # How a source is cut into tokens

A source is literal text and tags in turn. `Scanned` says, for each place in a source, which tokens
the text from there on has to yield. It goes by whole runs of text and by single tokens inside tags,
and accounts for every character: it belongs to a token, or it is white space between the tokens of
a tag, or white space that a hyphen takes off the end of a run.
-/

namespace TextTemplate

/-- The hyphen that a delimiter may carry. -/
def hyphenText (hyphen : Bool) : List Char := if hyphen then ['-'] else []

/-- The text starts with an opening delimiter. -/
def OpensTag (text : List Char) : Prop := ∃ (delimiter : Delimiter) (after : List Char),
  text = delimiter.opening ++ after

/-- The text starts with an opening delimiter that carries a hyphen. -/
def OpensHyphened (text : List Char) : Prop := ∃ (delimiter : Delimiter) (after : List Char),
  text = delimiter.opening ++ '-' :: after

/-- The text starts with the closing delimiter of a tag, with a hyphen or without. -/
def ClosesTag (delimiter : Delimiter) (text : List Char) : Prop :=
  ∃ (hyphen : Bool) (after : List Char), text = hyphenText hyphen ++ delimiter.closing ++ after

/-- The text starts with a logic tag of the single word `word`, with white space and hyphens as
they may stand in any tag. -/
def StartsEndTag (word text : List Char) : Prop :=
  ∃ (hyphen hyphenBehind : Bool) (gap gapBehind after : List Char),
    (∀ c ∈ gap, Text.isBlank c = true) ∧ (∀ c ∈ gapBehind, Text.isBlank c = true) ∧
      text = Delimiter.logic.opening ++ hyphenText hyphen ++ gap ++ word ++ gapBehind ++
        hyphenText hyphenBehind ++ Delimiter.logic.closing ++ after

/-- The word that ends a verbatim block. -/
def Keyword.endWord (opener : Keyword) : List Char := (opener.closing?.getD opener).word.toList

/-- A place in a source. -/
inductive Place where
  /-- A run of text starts here, behind a delimiter with a hyphen or without. It is the body of a
  verbatim block if the tag before it, at the given position, opens one. -/
  | text (hyphen : Bool) (opener? : Option (Keyword × Position))
  /-- A run of text ends here. -/
  | tag
  /-- The rest of a tag, behind the tokens read of it, of which the delimiter is the first. -/
  | inside (delimiter : Delimiter) (read : List Token)

/-- The verbatim block that a tag opens, and where: the first word of a logic tag says so. -/
def verbatimOpener? : Delimiter → List Token → Option (Keyword × Position)
  | .logic, opening :: first :: _ =>
    match first.kind with
    | .keyword .raw => some (.raw, opening.position)
    | .keyword .comment => some (.comment, opening.position)
    | _ => none
  | _, _ => none

/-- A run of text stops here: at a tag or at the end of the source, or, in a verbatim block, at the
tag that ends it. -/
def RunStops : Option (Keyword × Position) → List Char → Prop
  | none, text => text = [] ∨ OpensTag text
  | some (opener, _), text => StartsEndTag opener.endWord text

/-- The position behind some text. -/
def positionBehind (text : List Char) : Position := Position.start.advanceBy text

/-- The literal that is left of a run of text; nothing if nothing is left. -/
def literalOf (kept : List Char) (position : Position) : List Token :=
  if kept = [] then [] else [⟨.literal, String.ofList kept, position⟩]

/-- The stream with more tokens in front. -/
def TokenStream.behind (tokens : List Token) (stream : TokenStream) : TokenStream :=
  ⟨tokens ++ stream.tokens, stream.failure?⟩

namespace Delimiter

/-- The kind of the token that opens a tag. -/
def openKind : Delimiter → TokenKind
  | .output => .outputOpen
  | .logic => .tagOpen

/-- The kind of the token that closes a tag. -/
def closeKind : Delimiter → TokenKind
  | .output => .outputClose
  | .logic => .tagClose

end Delimiter

/-- The text behind `before` yields the tokens of the stream: `Scanned place before text stream`. -/
inductive Scanned : Place → List Char → List Char → TokenStream → Prop
  /-- A run of text, up to the first place where it may stop, yields what is left of it once the
  hyphens at either side have taken off white space. -/
  | run {hyphen hyphenBehind : Bool} {opener? : Option (Keyword × Position)}
      {before run after lead kept trail : List Char} {stream : TokenStream}
      (stops : Text.StopsFirst (RunStops opener?) run after)
      (hyphened : hyphenBehind = true ↔ OpensHyphened after)
      (trimming : Text.Trimming hyphen hyphenBehind run lead kept trail)
      (rest : Scanned .tag (before ++ run) after stream) :
      Scanned (.text hyphen opener?) before (run ++ after)
        (stream.behind (literalOf kept (positionBehind (before ++ lead))))
  /-- A verbatim block without an end tag. -/
  | unclosed {hyphen : Bool} {opener : Keyword} {opened : Position} {before text : List Char}
      (endless : ∀ front back, text = front ++ back → ¬ StartsEndTag opener.endWord back) :
      Scanned (.text hyphen (some (opener, opened))) before text
        ⟨[], some ⟨.unclosedBlock opener, opened⟩⟩
  /-- The end of the source. -/
  | finished {before : List Char} : Scanned .tag before [] ⟨[], none⟩
  /-- An opening delimiter. -/
  | opening {delimiter : Delimiter} {hyphen : Bool} {before after : List Char} {token : Token}
      {stream : TokenStream} {text : List Char}
      (spelling : text = delimiter.opening ++ hyphenText hyphen)
      (longest : hyphen = false → after.head? ≠ some '-')
      (token_eq : token = ⟨delimiter.openKind, String.ofList text, positionBehind before⟩)
      (rest : Scanned (.inside delimiter [token]) (before ++ text) after stream) :
      Scanned .tag before (text ++ after) (stream.behind [token])
  /-- An opening delimiter without a closing one anywhere behind it. -/
  | unterminated {delimiter : Delimiter} {before after : List Char}
      (endless : ¬ delimiter.closing <:+: after) :
      Scanned .tag before (delimiter.opening ++ after)
        ⟨[], some ⟨.unterminatedTag delimiter, positionBehind before⟩⟩
  /-- A token inside a tag, behind white space. -/
  | inner {delimiter : Delimiter} {read : List Token} {before gap text after : List Char}
      {token : Token} {stream : TokenStream}
      (blank : ∀ c ∈ gap, Text.isBlank c = true)
      (ne_nil : text ≠ [])
      (inside : token.kind.isInner = true)
      (spells : token.kind.Spells token.text.toList text)
      (position_eq : token.position = positionBehind (before ++ gap))
      (rest : Scanned (.inside delimiter (read ++ [token])) (before ++ gap ++ text) after stream) :
      Scanned (.inside delimiter read) before (gap ++ text ++ after) (stream.behind [token])
  /-- A closing delimiter, behind white space. -/
  | closing {delimiter : Delimiter} {read : List Token} {hyphen : Bool}
      {before gap text after : List Char} {token : Token} {stream : TokenStream}
      (blank : ∀ c ∈ gap, Text.isBlank c = true)
      (spelling : text = hyphenText hyphen ++ delimiter.closing)
      (token_eq : token =
        ⟨delimiter.closeKind, String.ofList text, positionBehind (before ++ gap)⟩)
      (rest : Scanned (.text hyphen (verbatimOpener? delimiter read)) (before ++ gap ++ text) after
        stream) :
      Scanned (.inside delimiter read) before (gap ++ text ++ after) (stream.behind [token])
  /-- A character that starts no token, is no white space and does not close the tag. -/
  | strange {delimiter : Delimiter} {read : List Token} {before gap after : List Char} {c : Char}
      (blank : ∀ c ∈ gap, Text.isBlank c = true)
      (visible : Text.isBlank c = false)
      (stays : ¬ ClosesTag delimiter (c :: after))
      (starts_none : ¬ Lexeme.StartsToken (c :: after)) :
      Scanned (.inside delimiter read) before (gap ++ c :: after)
        ⟨[], some ⟨.unexpectedCharacter c, positionBehind (before ++ gap)⟩⟩
  /-- A tag that ends with the source, or a string in it that does. -/
  | unfinished {delimiter : Delimiter} {opening : Token} {read : List Token}
      {before gap text : List Char}
      (blank : ∀ c ∈ gap, Text.isBlank c = true)
      (cut : Lexeme.IsCutOff text) :
      Scanned (.inside delimiter (opening :: read)) before (gap ++ text)
        ⟨[], some ⟨.unterminatedTag delimiter, opening.position⟩⟩

end TextTemplate
