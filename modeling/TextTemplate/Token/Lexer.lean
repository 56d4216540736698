import TextTemplate.Error
import TextTemplate.Number.Numeral
import TextTemplate.Text.Blank
import TextTemplate.Text.Search
/-! # From source text to tokens

The lexer is in one of three places: in literal text, inside a tag, or in the body of a `raw` or
`comment` block, which it passes over without looking for tags. A hyphen at a delimiter trims the
literal text next to it. Each step yields one token, the end of the source, or an error; the tokens
of a source are those of the steps before the first that yields none.
-/

namespace TextTemplate

/-- A tag whose closing delimiter has not been reached. -/
structure OpenTag where
  delimiter : Delimiter
  opened : Position
  /-- The token before the next one in this tag. -/
  last? : Option TokenKind
  /-- The `raw` or `comment` that the tag starts with. -/
  verbatim? : Option Keyword
deriving DecidableEq, Repr

/-- Where the lexer is. In text and in a verbatim body it knows whether the text is to be trimmed
at its start. -/
inductive LexerMode where
  | text (trim : Bool)
  | inside (tag : OpenTag)
  | verbatim (opener : Keyword) (opened : Position) (trim : Bool)
deriving DecidableEq, Repr

/-- A source read up to some place. -/
structure Lexer where
  rest : List Char
  position : Position
  mode : LexerMode
deriving DecidableEq, Repr

/-- What a step of the lexer yields. -/
inductive LexerStep where
  | finished
  | failed (error : SyntaxError)
  | token (token : Token) (next : Lexer)
deriving DecidableEq, Repr

/-- The tokens of a source, up to its end or to the first error. -/
structure TokenStream where
  tokens : List Token
  failure? : Option SyntaxError
deriving DecidableEq, Repr

/-- The piece of source that makes up the next token inside a tag: its kind, its text, and the
number of characters it takes, quotes included. -/
structure Lexeme where
  kind : TokenKind
  text : List Char
  width : Nat
deriving DecidableEq, Repr

/-- Why there is no lexeme at some place. -/
inductive LexemeFault where
  | unfinished
  | unexpected (c : Char)
deriving DecidableEq, Repr

namespace Lexeme

/-- A lexeme that is its own text. -/
def plain (kind : TokenKind) (text : List Char) : Lexeme := ⟨kind, text, text.length⟩

/-- Letters of ASCII, digits and the underscore. -/
def isWordChar (c : Char) : Bool := c.isAlphanum || c == '_'

/-- Characters that may start a word. -/
def isWordStart (c : Char) : Bool := c.isAlpha || c == '_'

/-- The part of a word behind its first character. A hyphen belongs to it if a word character
follows. -/
def wordTail : List Char → List Char
  | [] => []
  | c :: rest =>
    if isWordChar c then c :: wordTail rest
    else if c = '-' then
      match rest with
      | [] => []
      | next :: _ => if isWordChar next then c :: wordTail rest else []
    else []

/-- A run of digits, with a fraction behind it if one is allowed and there is one. -/
def numberText (fraction : Bool) (text : List Char) : List Char :=
  let whole := text.takeWhile Numeral.isDigit
  match text.dropWhile Numeral.isDigit with
  | '.' :: c :: rest =>
    if fraction && Numeral.isDigit c then
      whole ++ '.' :: (c :: rest).takeWhile Numeral.isDigit
    else whole
  | _ => whole

/-- The lexeme of a word. Directly behind a dot a reserved word is an ordinary name. -/
def ofWord (afterDot : Bool) (text : List Char) : Lexeme :=
  match Keyword.ofWord? (String.ofList text) with
  | some keyword => if afterDot then plain .identifier text else plain (.keyword keyword) text
  | none => plain .identifier text

/-- The lexeme at the start of a text that starts with neither white space nor the closing
delimiter of its tag. Directly behind a dot numbers have no fraction. -/
def read (afterDot : Bool) : List Char → Except LexemeFault Lexeme
  | [] => .error .unfinished
  | c :: rest =>
    if isWordStart c then .ok (ofWord afterDot (c :: wordTail rest))
    else if Numeral.isDigit c then .ok (plain .number (numberText (!afterDot) (c :: rest)))
    else if c = '-' && (rest.head?.any Numeral.isDigit) then
      .ok (plain .number ('-' :: numberText (!afterDot) rest))
    else if c = '"' || c = '\'' then
      match Text.splitFirst? [c] rest with
      | some (content, _) => .ok ⟨.string, content, content.length + 2⟩
      | none => .error .unfinished
    else
      match c, rest.head? with
      | '=', some '=' => .ok (plain .operator ['=', '='])
      | '=', _ => .ok (plain .assign ['='])
      | '!', some '=' => .ok (plain .operator ['!', '='])
      | '<', some '=' => .ok (plain .operator ['<', '='])
      | '<', some '>' => .ok (plain .operator ['<', '>'])
      | '<', _ => .ok (plain .operator ['<'])
      | '>', some '=' => .ok (plain .operator ['>', '='])
      | '>', _ => .ok (plain .operator ['>'])
      | '|', _ => .ok (plain .pipe ['|'])
      | ':', _ => .ok (plain .colon [':'])
      | ',', _ => .ok (plain .comma [','])
      | '.', some '.' => .ok (plain .dotDot ['.', '.'])
      | '.', _ => .ok (plain .dot ['.'])
      | '[', _ => .ok (plain .leftBracket ['['])
      | ']', _ => .ok (plain .rightBracket [']'])
      | '(', _ => .ok (plain .leftParen ['('])
      | ')', _ => .ok (plain .rightParen [')'])
      | _, _ => .error (.unexpected c)

end Lexeme

/-- The tag with one more token in it. A logic tag whose first token is `raw` or `comment` starts a
verbatim block. -/
def OpenTag.push (tag : OpenTag) (kind : TokenKind) : OpenTag :=
  let verbatim? :=
    match tag.delimiter, tag.last?, kind with
    | .logic, none, .keyword .raw => some Keyword.raw
    | .logic, none, .keyword .comment => some Keyword.comment
    | _, _, _ => tag.verbatim?
  { tag with last? := some kind, verbatim? := verbatim? }

namespace Lexer

/-- The lexer at the start of a source. -/
def ofSource (source : List Char) : Lexer := ⟨source, Position.start, .text false⟩

/-- The literal text up to the next opening delimiter, and what follows it. -/
def splitText : List Char → List Char × List Char
  | [] => ([], [])
  | c :: rest =>
    if c = '\x7b' && (rest.head? == some '\x7b' || rest.head? == some '%') then ([], c :: rest)
    else
      let (run, after) := splitText rest
      (c :: run, after)

/-- Whether a text starts with the logic tag of the single word `closing`. -/
def startsEndTag (closing : List Char) (text : List Char) : Bool :=
  match text with
  | '\x7b' :: '%' :: rest =>
    let inner :=
      match rest with
      | '-' :: inner => inner
      | _ => rest
    match Text.afterLead? closing (Text.trimStart inner) with
    | none => false
    | some after =>
      match Text.trimStart after with
      | '%' :: '\x7d' :: _ => true
      | '-' :: '%' :: '\x7d' :: _ => true
      | _ => false
  | _ => false

/-- The body of a verbatim block up to its end tag, and the text from that tag on. -/
def splitVerbatim? (closing : List Char) : List Char → Option (List Char × List Char)
  | [] => none
  | c :: rest =>
    if startsEndTag closing (c :: rest) then some ([], c :: rest)
    else (splitVerbatim? closing rest).map fun (run, after) => (c :: run, after)

/-- Whether a text starts with an opening delimiter that has a hyphen. -/
def opensTrimmed : List Char → Bool
  | '\x7b' :: '\x7b' :: '-' :: _ => true
  | '\x7b' :: '%' :: '-' :: _ => true
  | _ => false

/-- The part of a run of text that is kept: without the white space at its start if that is to be
trimmed, and without the white space at its end if the tag after it has a hyphen. -/
def keptText (trim : Bool) (run after : List Char) : List Char :=
  let front := if trim then Text.trimStart run else run
  if opensTrimmed after then Text.trimEnd front else front

/-- The delimiter of the tag that a text starts with. -/
def delimiterOf (text : List Char) : Delimiter :=
  if text.drop 1 |>.head? |>.any (· == '\x7b') then .output else .logic

/-- The opening delimiter at the place of the lexer. A tag that is closed nowhere after it is
refused here. -/
def openTag (lexer : Lexer) : LexerStep :=
  let delimiter := delimiterOf lexer.rest
  let width := if opensTrimmed lexer.rest then 3 else 2
  let text := lexer.rest.take width
  let after := lexer.rest.drop width
  if Text.occurs delimiter.closing after then
    let kind :=
      match delimiter with
      | .output => TokenKind.outputOpen
      | .logic => TokenKind.tagOpen
    .token ⟨kind, String.ofList text, lexer.position⟩
      ⟨after, lexer.position.advanceBy text, .inside ⟨delimiter, lexer.position, none, none⟩⟩
  else .failed ⟨.unterminatedTag delimiter, lexer.position⟩

/-- The next token when the literal text ahead is `run` and `after` follows it: the part of the text
that is kept, or, if that is empty, the tag behind it. -/
def textStep (position : Position) (trim : Bool) (run after : List Char) : LexerStep :=
  let kept := keptText trim run after
  let behind : Lexer := ⟨after, position.advanceBy run, .text false⟩
  if kept.isEmpty then
    if after.isEmpty then .finished else openTag behind
  else
    let start := if trim then position.advanceBy (run.takeWhile Text.isBlank) else position
    .token ⟨.literal, String.ofList kept, start⟩ behind

/-- The width of the closing delimiter that a text starts with, and whether it has a hyphen. -/
def closingAt? (delimiter : Delimiter) (text : List Char) : Option (Nat × Bool) :=
  match text with
  | '-' :: rest =>
    if (Text.afterLead? delimiter.closing rest).isSome then some (3, true) else none
  | _ => if (Text.afterLead? delimiter.closing text).isSome then some (2, false) else none

/-- Where the lexer is behind the closing delimiter of a tag. -/
def modeAfter (tag : OpenTag) (trim : Bool) : LexerMode :=
  match tag.verbatim? with
  | some opener => .verbatim opener tag.opened trim
  | none => .text trim

/-- The next token inside a tag, behind any white space. -/
def insideStep (lexer : Lexer) (tag : OpenTag) : LexerStep :=
  let blank := lexer.rest.takeWhile Text.isBlank
  let text := lexer.rest.dropWhile Text.isBlank
  let position := lexer.position.advanceBy blank
  match closingAt? tag.delimiter text with
  | some (width, trim) =>
    let kind :=
      match tag.delimiter with
      | .output => TokenKind.outputClose
      | .logic => TokenKind.tagClose
    .token ⟨kind, String.ofList (text.take width), position⟩
      ⟨text.drop width, position.advanceBy (text.take width), modeAfter tag trim⟩
  | none =>
    match Lexeme.read (tag.last? == some .dot) text with
    | .ok lexeme =>
      .token ⟨lexeme.kind, String.ofList lexeme.text, position⟩
        ⟨text.drop lexeme.width, position.advanceBy (text.take lexeme.width),
          .inside (tag.push lexeme.kind)⟩
    | .error (.unexpected c) => .failed ⟨.unexpectedCharacter c, position⟩
    | .error .unfinished => .failed ⟨.unterminatedTag tag.delimiter, tag.opened⟩

/-- The next token. -/
def step (lexer : Lexer) : LexerStep :=
  match lexer.mode with
  | .text trim =>
    let (run, after) := splitText lexer.rest
    textStep lexer.position trim run after
  | .inside tag => insideStep lexer tag
  | .verbatim opener opened trim =>
    let closing := (opener.closing?.getD opener).word.toList
    match splitVerbatim? closing lexer.rest with
    | some (run, after) => textStep lexer.position trim run after
    | none => .failed ⟨.unclosedBlock opener, opened⟩

/-- The tokens of at most `fuel` steps. -/
def run : Nat → Lexer → TokenStream
  | 0, _ => ⟨[], none⟩
  | fuel + 1, lexer =>
    match lexer.step with
    | .finished => ⟨[], none⟩
    | .failed error => ⟨[], some error⟩
    | .token token next =>
      let stream := run fuel next
      ⟨token :: stream.tokens, stream.failure?⟩

end Lexer

/-- The tokens of a source. Every token takes at least one character, so there are no more steps
than characters, and one at the end. -/
def tokenize (source : List Char) : TokenStream :=
  Lexer.run (source.length + 1) (Lexer.ofSource source)

end TextTemplate
