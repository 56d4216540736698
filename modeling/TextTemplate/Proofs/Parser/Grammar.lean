import TextTemplate.Proofs.Parser.Denotation
import TextTemplate.Proofs.Parser.Reading
/-! # The tokens of expressions

Which tokens stand for which expression, rule by rule and without the parser. `Primary depth` is
the relation for primary expressions that lead at most `depth` levels deeper through brackets and
parentheses; the levels above it take it as an argument, and `Expression (Primary depth)` is the
relation for whole expressions.
-/

namespace TextTemplate.Grammar

/-- The arguments of a filter, behind its name. -/
inductive Arguments (primary : Reading Expr) : Reading (List Expr)
  | absent : Arguments primary [] []
  | present {colon : Token} {tokens rest : List Token} {arg : Expr} {args : List Expr}
      (kind : colon.kind = .colon) (first : primary tokens arg)
      (more : Items (Behind [.comma] primary) rest args) :
      Arguments primary (colon :: (tokens ++ rest)) (arg :: args)

/-- A filter with its arguments, behind the bar. -/
inductive Call (primary : Reading Expr) : Reading FilterCall
  | intro {name : Token} {tokens : List Token} {args : List Expr} (kind : name.kind = .identifier)
      (arguments : Arguments primary tokens args) :
      Call primary (name :: tokens) ⟨name.text, args, name.position⟩

/-- A primary expression and the filters behind it. -/
inductive Filtered (primary : Reading Expr) : Reading Expr
  | bare {tokens : List Token} {base : Expr} (here : primary tokens base) :
      Filtered primary tokens base
  | chain {tokens rest : List Token} {base : Expr} {calls : List FilterCall}
      (here : primary tokens base) (filters : Items (Behind [.pipe] (Call primary)) rest calls)
      (ne_nil : calls ≠ []) : Filtered primary (tokens ++ rest) (.filtered base calls)

/-- The operator of a comparison. -/
inductive Comparator : Reading BinaryOp
  | contains {token : Token} (kind : token.kind = .keyword .contains) :
      Comparator [token] .contains
  | sign {token : Token} {op : BinaryOp} (kind : token.kind = .operator)
      (written : Sign token.text op) : Comparator [token] op

/-- One operand, or a comparison of two. -/
inductive Comparison (primary : Reading Expr) : Reading Expr
  | operand {tokens : List Token} {operand : Expr} (here : Filtered primary tokens operand) :
      Comparison primary tokens operand
  | compared {tokens sign rest : List Token} {op : BinaryOp} {left right : Expr}
      (first : Filtered primary tokens left) (between : Comparator sign op)
      (second : Filtered primary rest right) :
      Comparison primary (tokens ++ (sign ++ rest)) (.binary op left right)

/-- Operands with a reserved word between neighbours, joined into a balanced tree. -/
inductive Chain (word : Keyword) (op : BinaryOp) (operand : Reading Expr) : Reading Expr
  | intro {tokens rest : List Token} {first joined : Expr} {others : List Expr}
      (here : operand tokens first) (more : Items (Behind [.keyword word] operand) rest others)
      (tree : Balanced op (first :: others) joined) : Chain word op operand (tokens ++ rest) joined

/-- Comparisons joined by `and`. -/
def Conjunction (primary : Reading Expr) : Reading Expr := Chain .and .and (Comparison primary)

/-- Conjunctions joined by `or`. -/
def Expression (primary : Reading Expr) : Reading Expr := Chain .or .or (Conjunction primary)

/-- A step of a path: a name or an index behind a dot, or an expression in brackets. -/
inductive Step (inner? : Option (Reading Expr)) : Reading Segment
  | field {dot name : Token} (kind : dot.kind = .dot)
      (word : name.kind = .identifier ∨ ∃ word, name.kind = .keyword word) :
      Step inner? [dot, name] (.field name.text)
  | index {dot number : Token} {i : Int} (kind : dot.kind = .dot)
      (digits : number.kind = .number) (written : WritesInt64 number.text.toList i) :
      Step inner? [dot, number] (.index i)
  | bracket {opening closing : Token} {tokens : List Token} {key : Expr} {segment : Segment}
      {primary : Reading Expr} (inner?_eq : inner? = some primary)
      (kind : opening.kind = .leftBracket) (here : Expression primary tokens key)
      (closes : closing.kind = .rightBracket) (denotes : DenotesStep key segment) :
      Step inner? (opening :: (tokens ++ [closing])) segment

/-- A primary expression, given the relation for primary expressions one level deeper. -/
inductive PrimaryWith (inner? : Option (Reading Expr)) : Reading Expr
  | string {token : Token} (kind : token.kind = .string) :
      PrimaryWith inner? [token] (.literal (.string token.text))
  | number {token : Token} {number : Number} (kind : token.kind = .number)
      (denotes : DenotesNumber token.text.toList number) :
      PrimaryWith inner? [token] (.literal (.number number))
  | true {token : Token} (kind : token.kind = .keyword .true) :
      PrimaryWith inner? [token] (.literal (.bool true))
  | false {token : Token} (kind : token.kind = .keyword .false) :
      PrimaryWith inner? [token] (.literal (.bool false))
  | nil {token : Token} (kind : token.kind = .keyword .nil) :
      PrimaryWith inner? [token] (.literal .null)
  | range {opening dots closing : Token} {tokens rest : List Token} {first last : Expr}
      {primary : Reading Expr} (inner?_eq : inner? = some primary)
      (kind : opening.kind = .leftParen) (lower : primary tokens first)
      (between : dots.kind = .dotDot) (upper : primary rest last)
      (closes : closing.kind = .rightParen) :
      PrimaryWith inner? (opening :: (tokens ++ dots :: (rest ++ [closing])))
        (.range first last opening.position)
  | path {root : Token} {tokens : List Token} {steps : List Segment}
      (kind : root.kind = .identifier) (more : Items (Step inner?) tokens steps) :
      PrimaryWith inner? (root :: tokens) (.path (.field root.text :: steps))

/-- A primary expression that leads at most `depth` levels deeper. -/
def Primary : Nat → Reading Expr
  | 0 => PrimaryWith none
  | depth + 1 => PrimaryWith (some (Primary depth))

/-- One operand needs no operator. -/
theorem Chain.single {word : Keyword} {op : BinaryOp} {operand : Reading Expr} {tokens : List Token}
    {expr : Expr} (h : operand tokens expr) : Chain word op operand tokens expr := by
  have hchain : Chain word op operand (tokens ++ []) expr := .intro h .nil (.operand expr)
  rwa [List.append_nil] at hchain

theorem expression_of_primary {primary : Reading Expr} {tokens : List Token} {expr : Expr}
    (h : primary tokens expr) : Expression primary tokens expr :=
  Chain.single (Chain.single (.operand (.bare h)))

end TextTemplate.Grammar
