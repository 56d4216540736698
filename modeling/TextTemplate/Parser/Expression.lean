import TextTemplate.Expr
import TextTemplate.Parser.Cursor
/-! # The grammar of expressions

```
expression := conjunction ("or" conjunction)*
conjunction := comparison ("and" comparison)*
comparison := filtered ((operator | "contains") filtered)?
filtered := primary ("|" name (":" primary ("," primary)*)?)*
primary := string | number | "true" | "false" | "nil" | "(" primary ".." primary ")" | name step*
step := "." (name | keyword | integer) | "[" expression "]"
```

The levels above `primary` take the parser of primaries as an argument. A range and a bracket lead
one level deeper, and the number of levels left is the argument on which `Parser.primary` recurs.
-/

namespace TextTemplate.Parser

/-- The value of a number token: an integer of 64 bits, or else a finite floating-point value. -/
def numberValue? (text : String) : Option Value :=
  match Numeral.readInt64? text.toList with
  | some n => some (Value.ofInt n)
  | none =>
    match Numeral.readBinary64? text.toList with
    | some (.finite x) => some (.number (.float x))
    | _ => none

/-- The arguments of a filter, behind its name. -/
def arguments (primary : Parser Expr) : Parser (List Expr) := do
  if ← eat .colon then
    let first ← primary
    let rest ← many do
      if ← eat .comma then
        let arg ← primary
        pure (some arg)
      else pure none
    pure (first :: rest)
  else pure []

/-- A filter with its arguments, if there is one. -/
def filterCall? (primary : Parser Expr) : Parser (Option FilterCall) := do
  if ← eat .pipe then
    let name ← expect .identifier .filterName
    let args ← arguments primary
    pure (some ⟨name.text, args, name.position⟩)
  else pure none

/-- A primary expression and the filters behind it. -/
def filtered (primary : Parser Expr) : Parser Expr := do
  let base ← primary
  let calls ← many (filterCall? primary)
  if calls.isEmpty then pure base else pure (.filtered base calls)

/-- The operator of a comparison, if there is one. -/
def comparisonOp? : Parser (Option BinaryOp) := do
  match ← peek? with
  | none => pure none
  | some token =>
    if token.kind = .keyword .contains then do
      let _ ← advance?
      pure (some .contains)
    else if token.kind = .operator then do
      let _ ← advance?
      match BinaryOp.ofSigns? token.text with
      | some op => pure (some op)
      | none => unexpected token .comparison
    else pure none

/-- One operand, or a comparison of two. -/
def comparison (primary : Parser Expr) : Parser Expr := do
  let left ← filtered primary
  match ← comparisonOp? with
  | none => pure left
  | some op =>
    let right ← filtered primary
    pure (.binary op left right)

/-- Operands joined by an operator. Without any there is no expression. -/
def joined (op : BinaryOp) : List Expr → Parser Expr
  | [] => do fail (.unexpectedToken .nothing .expression) (← get).last
  | first :: rest => pure (Expr.balanced op first rest)

/-- Operands with a reserved word between neighbours, joined by the operator of that word. -/
def chain (word : Keyword) (op : BinaryOp) (operand : Parser Expr) : Parser Expr := do
  let first ← operand
  let rest ← many do
    if ← eat (.keyword word) then
      let next ← operand
      pure (some next)
    else pure none
  joined op (first :: rest)

/-- Comparisons joined by `and`. -/
def conjunction (primary : Parser Expr) : Parser Expr := chain .and .and (comparison primary)

/-- A whole expression. -/
def expression (primary : Parser Expr) : Parser Expr := chain .or .or (conjunction primary)

/-- Parse one level deeper, with the parser of primaries of that level; without it the nesting has
reached its limit. -/
def nested {α β : Type} (limit : Nat) (inner? : Option β) (position : Position)
    (parse : β → Parser α) : Parser α :=
  match inner? with
  | none => fail (.nestingTooDeep limit) position
  | some inner => parse inner

/-- The path segment behind a dot. -/
def dotSegment : Parser Segment := do
  let token ← take .fieldName
  match token.kind with
  | .identifier => pure (.field token.text)
  | .keyword _ => pure (.field token.text)
  | .number =>
    match Numeral.readInt64? token.text.toList with
    | some i => pure (.index i)
    | none => unexpected token .fieldName
  | _ => unexpected token .fieldName

/-- The path segment of an expression in brackets. A literal name or index needs no lookup. -/
def bracketSegment : Expr → Segment
  | .literal (.string name) => .field name
  | .literal (.number (.int i)) => .index i
  | key => .lookup key

/-- The next segment of a path, if there is one. -/
def segment? (limit : Nat) (inner? : Option (Parser Expr)) : Parser (Option Segment) := do
  if ← eat .dot then
    let segment ← dotSegment
    pure (some segment)
  else
    match ← peek? with
    | none => pure none
    | some token =>
      if token.kind = .leftBracket then do
        let _ ← advance?
        nested limit inner? token.position fun primary => do
          let key ← expression primary
          let _ ← expect .rightBracket .rightBracket
          pure (some (bracketSegment key))
      else pure none

/-- A range, behind its opening parenthesis at `position`. -/
def rangeBody (position : Position) (primary : Parser Expr) : Parser Expr := do
  let first ← primary
  let _ ← expect .dotDot .rangeDots
  let last ← primary
  let _ ← expect .rightParen .rightParen
  pure (.range first last position)

/-- A primary expression, given the parser of primaries one level deeper. -/
def primaryWith (limit : Nat) (inner? : Option (Parser Expr)) : Parser Expr := do
  let token ← take .expression
  match token.kind with
  | .string => pure (.literal (.string token.text))
  | .number =>
    match numberValue? token.text with
    | some value => pure (.literal value)
    | none => unexpected token .number
  | .keyword .true => pure (.literal (.bool true))
  | .keyword .false => pure (.literal (.bool false))
  | .keyword .nil => pure (.literal .null)
  | .leftParen => nested limit inner? token.position (rangeBody token.position)
  | .identifier =>
    let rest ← many (segment? limit inner?)
    pure (.path (.field token.text :: rest))
  | _ => unexpected token .expression

/-- A primary expression that may lead `budget` levels deeper. -/
def primary (limit : Nat) : Nat → Cursor → Except SyntaxError (Expr × Cursor)
  | 0, cursor => primaryWith limit none cursor
  | budget + 1, cursor => primaryWith limit (some (primary limit budget)) cursor

end TextTemplate.Parser
