import TextTemplate.Node
import TextTemplate.Parser.Expression
/-! # The grammar of tags and blocks

A block is parsed up to a tag that its opening tag accepts. The body of a block, the expressions in
its tags, and the blocks in it are one level deeper than the block itself. Each kind of block is a
parser over `Inner`, the parsers of that level; the number of levels left is the argument on which
`Parser.body` recurs.
-/

namespace TextTemplate.Parser

/-- A block that has been opened, and the place of its opening tag. -/
structure OpenBlock where
  tag : Keyword
  position : Position
deriving DecidableEq, Repr

/-- The tag that ended a part of a block, up to its first word. -/
structure EndTag where
  keyword : Keyword
  position : Position
deriving DecidableEq, Repr

/-- The parsers of the next deeper level. -/
structure Inner where
  primary : Parser Expr
  body : OpenBlock → List Keyword → Parser (List Node × EndTag)

/-- The closing delimiter of a logic tag. -/
def closeTag : Parser Unit := do
  let _ ← expect .tagClose .tagClose
  pure ()

/-- An assignment, behind its first word. -/
def assignTag (primary : Parser Expr) (position : Position) : Parser Node := do
  let name ← expect .identifier .variableName
  let _ ← expect .assign .assignSign
  let expr ← expression primary
  closeTag
  pure (.assign name.text expr position)

/-- The parameters of a loop, in any order and any number, up to the end of its tag. Of repeated
ones the last counts. -/
def loopParameters (primary : Parser Expr) : Nat → LoopHeader → Parser LoopHeader
  | 0, header => pure header
  | fuel + 1, header => do
    let token ← take .tagClose
    if token.kind = .tagClose then pure header
    else if token.kind = .identifier ∧ token.text = "reversed" then
      loopParameters primary fuel { header with reversed := true }
    else if token.kind = .identifier ∧ token.text = "limit" then do
      let _ ← expect .colon .colon
      let limit ← primary
      loopParameters primary fuel { header with limit? := some limit }
    else if token.kind = .identifier ∧ token.text = "offset" then do
      let _ ← expect .colon .colon
      let offset ← primary
      loopParameters primary fuel { header with offset? := some offset }
    else unexpected token .tagClose

/-- The rest of a block from the tag `ending` on: the part behind `else`, if that is what the tag
says, and the closing tag `closing`. -/
def elsePart (inner : Inner) (block : OpenBlock) (closing : Keyword) (ending : EndTag) :
    Parser (List Node) := do
  if ending.keyword = .elseTag then
    closeTag
    let (otherwise, _) ← inner.body block [closing]
    closeTag
    pure otherwise
  else
    closeTag
    pure []

/-- The tag of a loop, behind its first word. -/
def loopHeader (primary : Parser Expr) (position : Position) : Parser LoopHeader := do
  let name ← expect .identifier .loopVariable
  let _ ← expect (.keyword .inWord) .inWord
  let iterable ← primary
  loopParameters primary ((← remaining) + 1) ⟨name.text, iterable, false, none, none, position⟩

/-- A loop, with what is rendered where there is nothing to run over. -/
def loopBlock (inner : Inner) (block : OpenBlock) : Parser Node := do
  let header ← loopHeader inner.primary block.position
  let (nodes, ending) ← inner.body block [.elseTag, .endFor]
  let otherwise ← elsePart inner block .endFor ending
  pure (.loop header nodes otherwise)

/-- The arms of a block, each behind a tag `word` with a condition, up to another tag. -/
def arms (inner : Inner) (block : OpenBlock) (word : Keyword) (condition : Parser Expr)
    (accepts : List Keyword) : Nat → EndTag → Parser (List Arm × EndTag)
  | 0, ending => pure ([], ending)
  | fuel + 1, ending =>
    if ending.keyword = word then do
      let condition' ← condition
      closeTag
      let (nodes, next) ← inner.body block accepts
      let (rest, last) ← arms inner block word condition accepts fuel next
      pure (⟨condition', nodes, ending.position⟩ :: rest, last)
    else pure ([], ending)

/-- A branch up to its closing word, on a condition that `negate` turns around. -/
def branchBlock (inner : Inner) (block : OpenBlock) (closing : Keyword) (negate : Bool) :
    Parser Node := do
  let condition ← expression inner.primary
  let accepts := [.elsif, .elseTag, closing]
  closeTag
  let (nodes, ending) ← inner.body block accepts
  let (arms, last) ← arms inner block .elsif (expression inner.primary) accepts
    ((← remaining) + 1) ending
  let otherwise ← elsePart inner block closing last
  pure (.branch (if negate then .not condition else condition) nodes arms otherwise block.position)

/-- The condition of a `when` tag: the subject equals one of the values. -/
def whenCondition (primary : Parser Expr) (subject : Expr) : Parser Expr := do
  let first ← primary
  let rest ← many do
    if ← eatEither .comma (.keyword .or) then
      let value ← primary
      pure (some value)
    else pure none
  joined .or ((first :: rest).map (.binary .eq subject))

/-- The nodes of a `case` block with given arms: a branch on the first arm, or, without arms, what
stands behind `else`. -/
def caseNodes (arms : List Arm) (otherwise : List Node) : List Node :=
  match arms with
  | [] => otherwise
  | first :: rest => [.branch first.condition first.body rest otherwise first.position]

/-- A `case` block. What stands before its first arm is dropped. -/
def caseBlock (inner : Inner) (block : OpenBlock) : Parser (List Node) := do
  let subject ← expression inner.primary
  let accepts := [.whenTag, .elseTag, .endCase]
  closeTag
  let (_, ending) ← inner.body block accepts
  let (arms, last) ← arms inner block .whenTag (whenCondition inner.primary subject) accepts
    ((← remaining) + 1) ending
  let otherwise ← elsePart inner block .endCase last
  pure (caseNodes arms otherwise)

/-- A block whose output becomes the value of a variable. -/
def captureBlock (inner : Inner) (block : OpenBlock) : Parser Node := do
  let name ← expect .identifier .variableName
  closeTag
  let (nodes, _) ← inner.body block [.endCapture]
  closeTag
  pure (.capture name.text nodes block.position)

/-- The body of a `raw` or `comment` block, which is literal text. -/
def verbatimBlock (inner : Inner) (block : OpenBlock) (closing : Keyword) :
    Parser (List Node) := do
  closeTag
  let (nodes, _) ← inner.body block [closing]
  closeTag
  pure nodes

/-- The nodes of a block, behind the first word of its opening tag; nothing if that word opens no
block. -/
def block? (block : OpenBlock) : Option (Inner → Parser (List Node)) :=
  match block.tag with
  | .forTag => some fun inner => do
    let node ← loopBlock inner block
    pure [node]
  | .ifTag => some fun inner => do
    let node ← branchBlock inner block .endIf false
    pure [node]
  | .unlessTag => some fun inner => do
    let node ← branchBlock inner block .endUnless true
    pure [node]
  | .caseTag => some fun inner => caseBlock inner block
  | .capture => some fun inner => do
    let node ← captureBlock inner block
    pure [node]
  | .comment => some fun inner => do
    let _ ← verbatimBlock inner block .endComment
    pure []
  | .raw => some fun inner => verbatimBlock inner block .endRaw
  | _ => none

/-- The nodes of a tag, behind its first word `name`. -/
def tag (limit : Nat) (primary : Parser Expr) (inner? : Option Inner) (word : Keyword)
    (name : String) (position : Position) : Parser (List Node) :=
  if word = .assign then do
    let node ← assignTag primary position
    pure [node]
  else
    match block? ⟨word, position⟩ with
    | none => fail (.unknownTag name) position
    | some parse => nested limit inner? position parse

/-- What one round of parsing nodes comes upon. -/
inductive Item where
  | nodes (nodes : List Node)
  | ending (tag : EndTag)
  | finished

/-- The next text, output or tag, inside a block or outside of all. A tag that ends or divides a
block has to be one that this block accepts. -/
def item (limit : Nat) (primary : Parser Expr) (inner? : Option Inner) (block? : Option OpenBlock)
    (accepts : List Keyword) : Parser Item := do
  match ← advance? with
  | none => pure .finished
  | some token =>
    match token.kind with
    | .literal => pure (.nodes [.text token.text])
    | .outputOpen =>
      let expr ← expression primary
      let _ ← expect .outputClose .outputClose
      pure (.nodes [.output expr token.position])
    | .tagOpen =>
      let name ← take .tagName
      match name.kind with
      | .keyword word =>
        if word.dividesBlock then
          if accepts.contains word then pure (.ending ⟨word, token.position⟩)
          else
            fail (.mismatchedBlock word (block?.bind fun block => block.tag.closing?))
              token.position
        else
          let nodes ← tag limit primary inner? word name.text token.position
          pure (.nodes nodes)
      | .identifier => fail (.unknownTag name.text) token.position
      | _ => unexpected name .tagName
    | _ => unexpected token .textOrTag

/-- The nodes of at most `fuel` rounds, and the tag that ended them if it was not the end of the
source. -/
def nodesUpTo (round : Parser Item) : Nat → Parser (List Node × Option EndTag)
  | 0 => pure ([], none)
  | fuel + 1 => do
    match ← round with
    | .finished => pure ([], none)
    | .ending tag => pure ([], some tag)
    | .nodes nodes =>
      let (rest, ending) ← nodesUpTo round fuel
      pure (nodes ++ rest, ending)

/-- The nodes up to the end of the source, or to a tag that the block accepts. -/
def nodes (limit : Nat) (primary : Parser Expr) (inner? : Option Inner)
    (block? : Option OpenBlock) (accepts : List Keyword) :
    Parser (List Node × Option EndTag) := do
  nodesUpTo (item limit primary inner? block? accepts) ((← remaining) + 1)

/-- A part of a block, which ends in a tag that the block accepts. -/
def bodyWith (limit : Nat) (primary : Parser Expr) (inner? : Option Inner) (block : OpenBlock)
    (accepts : List Keyword) : Parser (List Node × EndTag) := do
  match ← nodes limit primary inner? (some block) accepts with
  | (nodes, some tag) => pure (nodes, tag)
  | (_, none) => fail (.unclosedBlock block.tag) block.position

/-- A part of a block in which blocks may be nested `budget` levels deep. -/
def body (limit : Nat) : Nat → OpenBlock → List Keyword → Cursor →
    Except SyntaxError ((List Node × EndTag) × Cursor)
  | 0, block, accepts, cursor => bodyWith limit (primary limit 0) none block accepts cursor
  | budget + 1, block, accepts, cursor =>
    bodyWith limit (primary limit (budget + 1))
      (some ⟨primary limit budget, body limit budget⟩) block accepts cursor

/-- The parsers one level below a level with `budget` levels left. -/
def inner? (limit : Nat) : Nat → Option Inner
  | 0 => none
  | budget + 1 => some ⟨primary limit budget, body limit budget⟩

/-- The nodes of a whole source in which blocks may be nested `limit` levels deep. -/
def template (limit : Nat) : Parser (List Node) := do
  let (nodes, _) ← nodes limit (primary limit limit) (inner? limit limit) none []
  pure nodes

end TextTemplate.Parser
