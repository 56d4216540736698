import TextTemplate.Parser.Block
import TextTemplate.Proofs.Parser.Survey
/-! # The tokens of blocks

Which tokens stand for which nodes, and what becomes of the filter names in them. A `Layout` for the
nodes of some depth is put together from the readings of the next deeper level, as the parsers are.
Three kinds of tokens get into no node: those of a parameter that a loop repeats later on, those in
front of the first arm of a `case` and, where it has no arm, of its subject, and those of a comment.
-/

namespace TextTemplate.Grammar

open TextTemplate.Parser (EndTag OpenBlock)

/-- A relation between tokens, the nodes they stand for and the survey of their filter names. -/
abbrev Layout := List Token → List Node → Survey → Prop

/-- The first two tokens of a tag that divides or ends a block. -/
inductive TagStart (tag : EndTag) : List Token → Prop
  | intro {opening name : Token} (kind : opening.kind = .tagOpen)
      (position : opening.position = tag.position) (word : name.kind = .keyword tag.keyword) :
      TagStart tag [opening, name]

/-- The last token of a tag. -/
inductive TagEnd : List Token → Prop
  | intro {closing : Token} (kind : closing.kind = .tagClose) : TagEnd [closing]

/-- A tag that ends a block. -/
inductive ClosingTag (word : Keyword) : List Token → Prop
  | intro {start close : List Token} {position : Position} (tag : TagStart ⟨word, position⟩ start)
      (close_end : TagEnd close) : ClosingTag word (start ++ close)

/-- The parameters of a loop that count. -/
structure Settings where
  reversed : Bool
  limit? : Option Expr
  offset? : Option Expr

/-- The header of a loop with other settings. -/
def Settings.applyTo (settings : Settings) (header : LoopHeader) : LoopHeader :=
  { header with
    reversed := header.reversed || settings.reversed
    limit? := settings.limit?.or header.limit?
    offset? := settings.offset?.or header.offset? }

/-- The first two tokens of a parameter with a value. -/
inductive Named (name : String) : List Token → Prop
  | intro {word colon : Token} (kind : word.kind = .identifier) (text : word.text = name)
      (colon_kind : colon.kind = .colon) : Named name [word, colon]

/-- The parameters of a loop, up to the end of its tag. A parameter counts unless it is repeated
behind. Whatever their order in the source, the limit is searched before the offset. -/
inductive Parameters (primary : Reading Expr) : List Token → Settings → Survey → Prop
  | done {close : List Token} (close_end : TagEnd close) :
      Parameters primary close ⟨false, none, none⟩ .empty
  | reversed {word : Token} {rest : List Token} {settings : Settings} {survey : Survey}
      (kind : word.kind = .identifier) (text : word.text = "reversed")
      (more : Parameters primary rest settings survey) :
      Parameters primary (word :: rest) { settings with reversed := true } survey
  | limit {start tokens rest : List Token} {limit : Expr} {settings : Settings} {survey : Survey}
      (named : Named "limit" start) (here : primary tokens limit)
      (more : Parameters primary rest settings survey) (last : settings.limit? = none) :
      Parameters primary (start ++ (tokens ++ rest)) { settings with limit? := some limit }
        (.reading tokens ++ survey)
  | offset {start tokens rest : List Token} {offset : Expr} {settings : Settings} {survey : Survey}
      (named : Named "offset" start) (here : primary tokens offset)
      (more : Parameters primary rest settings survey) (last : settings.offset? = none) :
      Parameters primary (start ++ (tokens ++ rest)) { settings with offset? := some offset }
        ((Survey.reading tokens).overtake survey)
  | overridden {name : String} {start tokens rest : List Token} {value : Expr} {settings : Settings}
      {survey : Survey} (named : Named name start) (here : primary tokens value)
      (more : Parameters primary rest settings survey)
      (again : name = "limit" ∧ settings.limit?.isSome ∨
        name = "offset" ∧ settings.offset?.isSome) :
      Parameters primary (start ++ (tokens ++ rest)) settings
        ((Survey.reading tokens).discard ++ survey)

/-- The tag of a loop, behind its first word. -/
inductive Header (primary : Reading Expr) (position : Position) :
    List Token → LoopHeader → Survey → Prop
  | intro {name word : Token} {tokens rest : List Token} {iterable : Expr} {settings : Settings}
      {survey : Survey} (kind : name.kind = .identifier) (word_kind : word.kind = .keyword .inWord)
      (here : primary tokens iterable) (parameters : Parameters primary rest settings survey) :
      Header primary position (name :: word :: (tokens ++ rest))
        (settings.applyTo ⟨name.text, iterable, false, none, none, position⟩)
        (.reading tokens ++ survey)

/-- The condition of a `when` tag with the given subject. -/
inductive When (primary : Reading Expr) (subject : Expr) : Reading Expr
  | intro {tokens rest : List Token} {first guard : Expr} {others : List Expr}
      (here : primary tokens first)
      (more : Items (Behind [.comma, .keyword .or] primary) rest others)
      (tree : Balanced .or ((first :: others).map (.binary .eq subject)) guard) :
      When primary subject (tokens ++ rest) guard

/-- The arms of a block, each behind a tag with the given word. -/
inductive Arms (word : Keyword) (condition : Reading Expr) (body : Layout) :
    List Token → List Arm → Survey → Prop
  | nil : Arms word condition body [] [] .empty
  | cons {start head close tokens rest : List Token} {position : Position} {guard : Expr}
      {nodes : List Node} {arms : List Arm} {survey survey' : Survey}
      (tag : TagStart ⟨word, position⟩ start) (here : condition head guard)
      (close_end : TagEnd close) (inside : body tokens nodes survey)
      (more : Arms word condition body rest arms survey') :
      Arms word condition body (start ++ (head ++ (close ++ (tokens ++ rest))))
        (⟨guard, nodes, position⟩ :: arms) (.reading head ++ (survey ++ survey'))

/-- The rest of a block from the tag on that begins its `else` part or, where it has none, from its
closing tag on. -/
inductive Closing (word : Keyword) (body : Layout) : Layout
  | plain {tokens : List Token} (tag : ClosingTag word tokens) : Closing word body tokens [] .empty
  | otherwise {start close tokens rest : List Token} {position : Position} {nodes : List Node}
      {survey : Survey} (tag : TagStart ⟨.elseTag, position⟩ start) (close_end : TagEnd close)
      (inside : body tokens nodes survey) (closing : ClosingTag word rest) :
      Closing word body (start ++ (close ++ (tokens ++ rest))) nodes survey

/-- A branch up to its closing tag, behind its first word. -/
inductive Branch (primary : Reading Expr) (body : Layout) (word : Keyword) (negate : Bool)
    (position : Position) : Layout
  | intro {head close tokens more rest : List Token} {condition : Expr}
      {nodes otherwise : List Node} {arms : List Arm} {survey survey' survey'' : Survey}
      (here : Expression primary head condition) (close_end : TagEnd close)
      (inside : body tokens nodes survey)
      (others : Arms .elsif (Expression primary) body more arms survey')
      (closing : Closing word body rest otherwise survey'') :
      Branch primary body word negate position (head ++ (close ++ (tokens ++ (more ++ rest))))
        [.branch (if negate then .not condition else condition) nodes arms otherwise position]
        (.reading head ++ (survey ++ (survey' ++ survey'')))

/-- The relations of the next deeper level. -/
structure Level where
  primary : Reading Expr
  body : Layout

/-- A block, behind the first word of its opening tag. -/
inductive Block (inner : Level) : OpenBlock → Layout
  | forTag {position : Position} {head tokens rest : List Token} {header : LoopHeader}
      {nodes otherwise : List Node} {survey survey' survey'' : Survey}
      (here : Header inner.primary position head header survey)
      (inside : inner.body tokens nodes survey')
      (closing : Closing .endFor inner.body rest otherwise survey'') :
      Block inner ⟨.forTag, position⟩ (head ++ (tokens ++ rest)) [.loop header nodes otherwise]
        (survey ++ (survey' ++ survey''))
  | ifTag {position : Position} {tokens : List Token} {nodes : List Node} {survey : Survey}
      (branch : Branch inner.primary inner.body .endIf false position tokens nodes survey) :
      Block inner ⟨.ifTag, position⟩ tokens nodes survey
  | unlessTag {position : Position} {tokens : List Token} {nodes : List Node} {survey : Survey}
      (branch : Branch inner.primary inner.body .endUnless true position tokens nodes survey) :
      Block inner ⟨.unlessTag, position⟩ tokens nodes survey
  | caseTag {position : Position} {head close tokens more rest : List Token} {subject : Expr}
      {arm : Arm} {arms : List Arm} {dropped otherwise : List Node}
      {survey survey' survey'' : Survey}
      (here : Expression inner.primary head subject) (close_end : TagEnd close)
      (inside : inner.body tokens dropped survey)
      (others : Arms .whenTag (When inner.primary subject) inner.body more (arm :: arms) survey')
      (closing : Closing .endCase inner.body rest otherwise survey'') :
      Block inner ⟨.caseTag, position⟩ (head ++ (close ++ (tokens ++ (more ++ rest))))
        [.branch arm.condition arm.body arms otherwise arm.position]
        (.reading head ++ (survey.discard ++ (survey' ++ survey'')))
  | armless {position : Position} {head close tokens rest : List Token} {subject : Expr}
      {dropped otherwise : List Node} {survey survey' : Survey}
      (here : Expression inner.primary head subject) (close_end : TagEnd close)
      (inside : inner.body tokens dropped survey)
      (closing : Closing .endCase inner.body rest otherwise survey') :
      Block inner ⟨.caseTag, position⟩ (head ++ (close ++ (tokens ++ rest))) otherwise
        ((Survey.reading head).discard ++ (survey.discard ++ survey'))
  | capture {position : Position} {name : Token} {close tokens rest : List Token}
      {nodes : List Node} {survey : Survey} (kind : name.kind = .identifier)
      (close_end : TagEnd close) (inside : inner.body tokens nodes survey)
      (closing : ClosingTag .endCapture rest) :
      Block inner ⟨.capture, position⟩ (name :: (close ++ (tokens ++ rest)))
        [.capture name.text nodes position] survey
  | comment {position : Position} {close tokens rest : List Token} {dropped : List Node}
      {survey : Survey} (close_end : TagEnd close) (inside : inner.body tokens dropped survey)
      (closing : ClosingTag .endComment rest) :
      Block inner ⟨.comment, position⟩ (close ++ (tokens ++ rest)) [] survey.discard
  | raw {position : Position} {close tokens rest : List Token} {nodes : List Node}
      {survey : Survey} (close_end : TagEnd close) (inside : inner.body tokens nodes survey)
      (closing : ClosingTag .endRaw rest) :
      Block inner ⟨.raw, position⟩ (close ++ (tokens ++ rest)) nodes survey

/-- Text, an output, an assignment, or a block of the next deeper level. -/
inductive Piece (primary : Reading Expr) (inner? : Option Level) : Layout
  | text {token : Token} (kind : token.kind = .literal) :
      Piece primary inner? [token] [.text token.text] .empty
  | output {opening closing : Token} {tokens : List Token} {expr : Expr}
      (kind : opening.kind = .outputOpen) (here : Expression primary tokens expr)
      (closes : closing.kind = .outputClose) :
      Piece primary inner? (opening :: (tokens ++ [closing])) [.output expr opening.position]
        (.reading tokens)
  | assign {position : Position} {name sign : Token} {start tokens close : List Token} {expr : Expr}
      (tag : TagStart ⟨.assign, position⟩ start) (kind : name.kind = .identifier)
      (sign_kind : sign.kind = .assign) (here : Expression primary tokens expr)
      (close_end : TagEnd close) :
      Piece primary inner? (start ++ name :: sign :: (tokens ++ close))
        [.assign name.text expr position] (.reading tokens)
  | block {inner : Level} {block : OpenBlock} {start tokens : List Token} {nodes : List Node}
      {survey : Survey} (inner?_eq : inner? = some inner)
      (tag : TagStart ⟨block.tag, block.position⟩ start)
      (here : Block inner block tokens nodes survey) :
      Piece primary inner? (start ++ tokens) nodes survey

/-- There is no piece without a token. -/
theorem Piece.ne_nil {primary : Reading Expr} {inner? : Option Level} {tokens : List Token}
    {nodes : List Node} {survey : Survey} (h : Piece primary inner? tokens nodes survey) :
    tokens ≠ [] := by
  cases h with
  | text kind => simp
  | output kind here closes => simp
  | assign tag kind sign_kind here close_end => simp
  | block inner?_eq tag here =>
      obtain ⟨hopening, -, -⟩ := tag
      simp

/-- Pieces one behind the other. -/
inductive Pieces (primary : Reading Expr) (inner? : Option Level) : Layout
  | nil : Pieces primary inner? [] [] .empty
  | cons {tokens rest : List Token} {nodes nodes' : List Node} {survey survey' : Survey}
      (first : Piece primary inner? tokens nodes survey)
      (more : Pieces primary inner? rest nodes' survey') :
      Pieces primary inner? (tokens ++ rest) (nodes ++ nodes') (survey ++ survey')

/-- Nodes in which blocks are nested at most `depth` levels deep. -/
def Nodes : Nat → Layout
  | 0 => Pieces (Primary 0) none
  | depth + 1 => Pieces (Primary (depth + 1)) (some ⟨Primary depth, Nodes depth⟩)

/-- The relations one level below a level of the given depth. -/
def level? : Nat → Option Level
  | 0 => none
  | depth + 1 => some ⟨Primary depth, Nodes depth⟩

theorem nodes_eq (depth : Nat) : Nodes depth = Pieces (Primary depth) (level? depth) := by
  cases depth <;> rfl

end TextTemplate.Grammar
