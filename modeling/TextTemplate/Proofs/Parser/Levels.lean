import TextTemplate.Proofs.Parser.BlockStack
/-! # Levels of nesting

Blocks, brackets and parentheses open levels, and the tags and signs that end them close them again.
So the number of levels that some tokens leave open can be told from the tokens alone. It is a
difference, and may be negative where tokens end what others have begun.
-/

namespace TextTemplate

/-- Whether a word ends a block. -/
def Keyword.endsBlock : Keyword → Bool
  | .endFor | .endIf | .endUnless | .endCase | .endCapture | .endComment | .endRaw => Bool.true
  | _ => Bool.false

/-- The levels that a tag with this first word leaves open. -/
def Keyword.levelChange (word : Keyword) : Int :=
  if word.closing?.isSome then 1 else if word.endsBlock then -1 else 0

/-- The levels that a token leaves open. The opening delimiter of a tag counts for the tag. -/
def levelChange (token : Token) (rest : List Token) : Int :=
  match token.kind with
  | .leftBracket | .leftParen => 1
  | .rightBracket | .rightParen => -1
  | .tagOpen =>
    match rest.head?.map Token.kind with
    | some (.keyword word) => word.levelChange
    | _ => 0
  | _ => 0

/-- The levels that the tokens `front` leave open where `back` follows them. -/
def levelsOpen : List Token → List Token → Int
  | [], _ => 0
  | token :: front, back => levelChange token (front ++ back) + levelsOpen front back

@[simp]
theorem levelsOpen_nil (back : List Token) : levelsOpen [] back = 0 := rfl

@[simp]
theorem levelsOpen_singleton (token : Token) (back : List Token) :
    levelsOpen [token] back = levelChange token back := by
  simp [levelsOpen]

/-- Levels that tokens leave open add up. -/
theorem levelsOpen_append (front front' back : List Token) :
    levelsOpen (front ++ front') back =
      levelsOpen front (front' ++ back) + levelsOpen front' back := by
  induction front with
  | nil => simp
  | cons token front ih =>
      rw [List.cons_append, levelsOpen, levelsOpen, ih, List.append_assoc]
      omega

/-- A kind of token that neither opens a level nor closes one. -/
def TokenKind.isFlat : TokenKind → Bool
  | .leftBracket | .leftParen | .rightBracket | .rightParen | .tagOpen => false
  | _ => true

theorem levelChange_of_isFlat {token : Token} (h : token.kind.isFlat = true) (rest : List Token) :
    levelChange token rest = 0 := by
  unfold levelChange
  split <;> simp_all [TokenKind.isFlat]

theorem levelChange_of_opening {token : Token}
    (h : token.kind = .leftBracket ∨ token.kind = .leftParen) (rest : List Token) :
    levelChange token rest = 1 := by
  rcases h with h | h <;> simp [levelChange, h]

theorem levelChange_of_closing {token : Token}
    (h : token.kind = .rightBracket ∨ token.kind = .rightParen) (rest : List Token) :
    levelChange token rest = -1 := by
  rcases h with h | h <;> simp [levelChange, h]

/-- A tag counts once, for its first word. -/
theorem levelsOpen_tag {opening name : Token} {word : Keyword} (hopening : opening.kind = .tagOpen)
    (hname : name.kind = .keyword word) (back : List Token) :
    levelsOpen [opening, name] back = word.levelChange := by
  simp [levelsOpen, levelChange, hopening, hname]

end TextTemplate
