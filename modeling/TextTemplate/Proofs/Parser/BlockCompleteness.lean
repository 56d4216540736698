import TextTemplate.Proofs.Parser.BlockSoundness
import TextTemplate.Proofs.Parser.Completeness
/-! # Layouts are parsed

Tokens that stand for nodes by the layout are taken as these nodes. A tag is taken up to its closing
delimiter, and a part of a block up to the first word of the tag that ends it, so nothing that comes
behind is looked at. With what the parsers make of their tokens this shows that a source is a
template exactly if its tokens have a layout.
-/

namespace TextTemplate.Parser

open Grammar

variable {α β : Type} {tokens rest : List Token} {token : Token}

/-- A parser that is given the number of tokens left. -/
theorem TakesAs.remaining_bind {f : Nat → Parser α} {item : α}
    (h : ∀ left, tokens.length ≤ left → TakesAs (f left) rest tokens item) :
    TakesAs (remaining >>= f) rest tokens item := by
  intro cursor hcursor
  have hleft : tokens.length ≤ cursor.left := by
    rw [cursor.left_eq, hcursor, List.length_append]
    exact Nat.le_add_right _ _
  obtain ⟨next, hok, hnext⟩ := h cursor.left hleft cursor hcursor
  exact ⟨next, hok, hnext⟩

theorem takesAs_closeTag {close : List Token} (h : TagEnd close) :
    TakesAs closeTag rest close () := by
  obtain ⟨hkind⟩ := h
  exact (takesAs_expect hkind).map fun _ => ()

theorem TagEnd.stopsBefore {close : List Token} (h : TagEnd close) {kinds : List TokenKind}
    (hkinds : .tagClose ∉ kinds) : StopsBefore kinds close := by
  obtain ⟨hkind⟩ := h
  exact stopsBefore_cons (by rwa [hkind])

theorem takesAs_eatEither {kind other : TokenKind} (h : token.kind ∈ [kind, other]) :
    TakesAs (eatEither kind other) rest [token] true := by
  by_cases hkind : token.kind = kind
  · exact (takesAs_eat hkind).bind_nothing (takesAs_pure true)
  · have hother : token.kind = other := by simpa [hkind] using h
    have hnothing : TakesAs (eat kind) ([token] ++ rest) [] false :=
      takesAs_eat_nothing (stopsBefore_cons (by simpa using hkind))
    exact hnothing.bind (takesAs_eat hother)

theorem takesAs_eatEither_nothing {kind other : TokenKind} (h : StopsBefore [kind, other] rest) :
    TakesAs (eatEither kind other) rest [] false := by
  apply (takesAs_eat_nothing (h.mono (by simp))).bind_nothing
  exact takesAs_eat_nothing (h.mono (by simp))

section Loop

variable {primary : Parser Expr} {P : Reading Expr}

/-- In front of a parameter stands its name, so no path is continued there. -/
theorem Parameters.stopsBefore {settings : Settings} {survey : Survey}
    (h : Parameters P tokens settings survey) : StopsBefore pathSigns (tokens ++ rest) := by
  have hnamed : ∀ {name : String} {start more : List Token}, Named name start →
      StopsBefore pathSigns ((start ++ more) ++ rest) := by
    rintro name _ more ⟨kind, -, -⟩
    exact stopsBefore_cons (by rw [kind]; decide)
  cases h with
  | done close_end => exact (TagEnd.stopsBefore close_end (by decide)).append
  | reversed kind text more => exact stopsBefore_cons (by rw [kind]; decide)
  | limit named here more last => exact hnamed named
  | offset named here more last => exact hnamed named
  | overridden named here more again => exact hnamed named

/-- A parameter with a value and what follows it. -/
theorem Parses.namedValue (h : Parses primary pathSigns P) {name : String}
    {start behind : List Token} {value : Expr} {result : LoopHeader} (hnamed : Named name start)
    (hvalue : P tokens value) (hstops : StopsBefore pathSigns (behind ++ rest))
    {f : Expr → Parser LoopHeader} (hf : TakesAs (f value) rest behind result)
    {k : Token → Parser LoopHeader} (hk : ∀ word : Token, word.kind = .identifier →
      word.text = name → k word = do
        let _ ← expect .colon .colon
        let value ← primary
        f value) :
    TakesAs (take .tagClose >>= k) rest (start ++ (tokens ++ behind)) result := by
  obtain ⟨kind, text, colon_kind⟩ := hnamed
  apply TakesAs.bind_cons takesAs_take
  rw [hk _ kind text]
  apply TakesAs.bind_cons (takesAs_expect colon_kind)
  exact (h _ _ _ hvalue hstops).bind hf

/-- A limit is taken up to the next parameter, which goes on with the header that has it. -/
theorem Parses.limitParameter (h : Parses primary pathSigns P) {start behind : List Token}
    {limit : Expr} {result header : LoopHeader} (hnamed : Named "limit" start)
    (hlimit : P tokens limit) (hstops : StopsBefore pathSigns (behind ++ rest)) {fuel : Nat}
    (hrest : TakesAs (loopParameters primary fuel { header with limit? := some limit }) rest behind
      result) :
    TakesAs (loopParameters primary (fuel + 1) header) rest (start ++ (tokens ++ behind))
      result := by
  apply h.namedValue hnamed hlimit hstops
    (f := fun limit => loopParameters primary fuel { header with limit? := some limit }) hrest
  intro word hkind htext
  simp [hkind, htext]

/-- An offset is taken up to the next parameter, which goes on with the header that has it. -/
theorem Parses.offsetParameter (h : Parses primary pathSigns P) {start behind : List Token}
    {offset : Expr} {result header : LoopHeader} (hnamed : Named "offset" start)
    (hoffset : P tokens offset) (hstops : StopsBefore pathSigns (behind ++ rest)) {fuel : Nat}
    (hrest : TakesAs (loopParameters primary fuel { header with offset? := some offset }) rest
      behind result) :
    TakesAs (loopParameters primary (fuel + 1) header) rest (start ++ (tokens ++ behind))
      result := by
  apply h.namedValue hnamed hoffset hstops
    (f := fun offset => loopParameters primary fuel { header with offset? := some offset }) hrest
  intro word hkind htext
  simp [hkind, htext]

theorem Named.length_lt {name : String} {start behind : List Token} (h : Named name start)
    {fuel : Nat} (hfuel : (start ++ (tokens ++ behind)).length < fuel + 1) :
    behind.length < fuel := by
  obtain ⟨-, -, -⟩ := h
  simp only [List.length_append, List.length_cons] at hfuel
  omega

/-- The rounds of parameters are more than the parameters. -/
theorem Parses.loopParameters (h : Parses primary pathSigns P) {settings : Settings}
    {survey : Survey} (hparameters : Parameters P tokens settings survey) {fuel : Nat}
    (hfuel : tokens.length < fuel) (header : LoopHeader) :
    TakesAs (loopParameters primary fuel header) rest tokens (settings.applyTo header) := by
  induction hparameters generalizing fuel header with
  | done close_end =>
      obtain ⟨hkind⟩ := close_end
      obtain ⟨fuel, rfl⟩ := Nat.exists_eq_succ_of_ne_zero (Nat.ne_zero_of_lt hfuel)
      have hheader : (⟨false, none, none⟩ : Settings).applyTo header = header := by
        simp [Settings.applyTo]
      apply takesAs_take.bind_nothing
      rw [if_pos hkind, hheader]
      exact takesAs_pure header
  | @reversed word tokens settings survey kind text more ih =>
      obtain ⟨fuel, rfl⟩ := Nat.exists_eq_succ_of_ne_zero (Nat.ne_zero_of_lt hfuel)
      have hheader : ({ settings with reversed := true } : Settings).applyTo header =
          settings.applyTo { header with reversed := true } := by simp [Settings.applyTo]
      apply TakesAs.bind_cons takesAs_take
      rw [if_neg (by simp [kind]), if_pos ⟨kind, text⟩, hheader]
      exact ih (Nat.lt_of_succ_lt_succ hfuel) _
  | @limit start tokens behind limit settings survey named here more last ih =>
      obtain ⟨fuel, rfl⟩ := Nat.exists_eq_succ_of_ne_zero (Nat.ne_zero_of_lt hfuel)
      have hheader : ({ settings with limit? := some limit } : Settings).applyTo header =
          settings.applyTo { header with limit? := some limit } := by
        simp [Settings.applyTo, last]
      have hrest := ih (Named.length_lt named hfuel) { header with limit? := some limit }
      rw [hheader]
      exact h.limitParameter named here (Parameters.stopsBefore more) hrest
  | @offset start tokens behind offset settings survey named here more last ih =>
      obtain ⟨fuel, rfl⟩ := Nat.exists_eq_succ_of_ne_zero (Nat.ne_zero_of_lt hfuel)
      have hheader : ({ settings with offset? := some offset } : Settings).applyTo header =
          settings.applyTo { header with offset? := some offset } := by
        simp [Settings.applyTo, last]
      have hrest := ih (Named.length_lt named hfuel) { header with offset? := some offset }
      rw [hheader]
      exact h.offsetParameter named here (Parameters.stopsBefore more) hrest
  | @overridden name start tokens behind value settings survey named here more again ih =>
      obtain ⟨fuel, rfl⟩ := Nat.exists_eq_succ_of_ne_zero (Nat.ne_zero_of_lt hfuel)
      rcases again with ⟨rfl, hagain⟩ | ⟨rfl, hagain⟩
      · obtain ⟨last, hlast⟩ := Option.isSome_iff_exists.mp hagain
        have hheader : settings.applyTo header =
            settings.applyTo { header with limit? := some value } := by
          simp [Settings.applyTo, hlast]
        have hrest := ih (Named.length_lt named hfuel) { header with limit? := some value }
        rw [hheader]
        exact h.limitParameter named here (Parameters.stopsBefore more) hrest
      · obtain ⟨last, hlast⟩ := Option.isSome_iff_exists.mp hagain
        have hheader : settings.applyTo header =
            settings.applyTo { header with offset? := some value } := by
          simp [Settings.applyTo, hlast]
        have hrest := ih (Named.length_lt named hfuel) { header with offset? := some value }
        rw [hheader]
        exact h.offsetParameter named here (Parameters.stopsBefore more) hrest

/-- The header of a loop is parsed from the tokens that stand for it. -/
theorem Parses.loopHeader (h : Parses primary pathSigns P) {position : Position}
    {header : LoopHeader} {survey : Survey} (hheader : Header P position tokens header survey) :
    TakesAs (loopHeader primary position) rest tokens header := by
  obtain ⟨kind, word_kind, here, parameters⟩ := hheader
  apply TakesAs.bind_cons (takesAs_expect kind)
  apply TakesAs.bind_cons (takesAs_expect word_kind)
  apply (h _ _ _ here (Parameters.stopsBefore parameters)).bind
  apply TakesAs.remaining_bind
  intro left hleft
  exact h.loopParameters parameters (Nat.lt_succ_of_le hleft) _

end Loop

section Block

/-- What a level has by its relations, its parsers take. -/
structure TakesLevel (inner : Inner) (level : Level) : Prop where
  primary : Parses inner.primary pathSigns level.primary
  body : ∀ {block : OpenBlock} {accepts : List Keyword} {tokens start : List Token}
    {nodes : List Node} {survey : Survey} {ending : EndTag} {rest : List Token},
    level.body tokens nodes survey → TagStart ending start → ending.keyword ∈ accepts →
      ending.keyword.dividesBlock = true →
      TakesAs (inner.body block accepts) rest (tokens ++ start) (nodes, ending)

variable {inner : Inner} {level : Level} {block : OpenBlock} {closing : Keyword}

/-- A body and the closing tag behind it are taken together. -/
theorem TakesLevel.closed (h : TakesLevel inner level) (hdivides : closing.dividesBlock = true)
    {behind : List Token} {nodes : List Node} {survey : Survey}
    (hinside : level.body tokens nodes survey) (hclosing : ClosingTag closing behind)
    (f : List Node → α) :
    TakesAs (do
      let (nodes, _) ← inner.body block [closing]
      closeTag
      pure (f nodes)) rest (tokens ++ behind) (f nodes) := by
  obtain ⟨tag, close_end⟩ := hclosing
  rw [← List.append_assoc]
  apply (h.body hinside tag (List.mem_singleton.mpr rfl) hdivides).bind
  exact (takesAs_closeTag close_end).map fun _ => f nodes

/-- The rest of a block from the tag on that ends its last part. -/
theorem TakesLevel.elsePart (h : TakesLevel inner level) (block : OpenBlock)
    (hdivides : closing.dividesBlock = true) (helse : closing ≠ .elseTag)
    {otherwise : List Node} {survey : Survey}
    (hclosing : Closing closing level.body tokens otherwise survey) :
    ∃ ending start behind, tokens = start ++ behind ∧ TagStart ending start ∧
      (ending.keyword = .elseTag ∨ ending.keyword = closing) ∧
      ∀ rest, TakesAs (Parser.elsePart inner block closing ending) rest behind otherwise := by
  cases hclosing with
  | plain tag =>
      obtain ⟨tag, close_end⟩ := tag
      refine ⟨_, _, _, rfl, tag, .inr rfl, ?_⟩
      intro rest
      unfold Parser.elsePart
      rw [if_neg helse]
      exact (takesAs_closeTag close_end).map fun _ => []
  | otherwise tag close_end inside closing =>
      refine ⟨_, _, _, rfl, tag, .inl rfl, ?_⟩
      intro rest
      unfold Parser.elsePart
      rw [if_pos rfl]
      exact (takesAs_closeTag close_end).bind (h.closed hdivides inside closing id)

/-- The arms of a block from the first word of the first one on, up to that of the tag behind. The
rounds are more than the arms, since each takes a token. -/
theorem TakesLevel.arms (h : TakesLevel inner level) (block : OpenBlock) {word : Keyword}
    {condition : Parser Expr} {C : Reading Expr} {kinds : List TokenKind}
    (hcondition : Parses condition kinds C)
    (hkinds : .tagClose ∉ kinds) {accepts : List Keyword} (hword : word ∈ accepts)
    (hdivides : word.dividesBlock = true) {arms : List Arm} {survey : Survey}
    (harms : Arms word C level.body tokens arms survey) {last : EndTag} {behind : List Token}
    (hlast : TagStart last behind) (hother : last.keyword ≠ word)
    (haccepted : last.keyword ∈ accepts) (hlast' : last.keyword.dividesBlock = true) :
    ∃ ending start more, tokens ++ behind = start ++ more ∧ TagStart ending start ∧
      ending.keyword ∈ accepts ∧ ending.keyword.dividesBlock = true ∧
      ∀ rest fuel, more.length < fuel →
        TakesAs (Parser.arms inner block word condition accepts fuel ending) rest more
          (arms, last) := by
  induction harms with
  | nil =>
      refine ⟨last, behind, [], (List.append_nil behind).symm, hlast, haccepted, hlast', ?_⟩
      intro rest fuel hfuel
      obtain ⟨fuel, rfl⟩ := Nat.exists_eq_succ_of_ne_zero (Nat.ne_zero_of_lt hfuel)
      rw [Parser.arms, if_neg hother]
      exact takesAs_pure ([], last)
  | @cons start head close inside rest position guard nodes arms survey survey' tag here close_end
      body more ih =>
      obtain ⟨ending, start', more', hsplit, hstart, haccepts, hdivides', htakes⟩ := ih
      refine ⟨⟨word, position⟩, start, head ++ (close ++ ((inside ++ start') ++ more')), ?_, tag,
        hword, hdivides, ?_⟩
      · simp only [List.append_assoc, hsplit]
      intro rest fuel hfuel
      obtain ⟨fuel, rfl⟩ := Nat.exists_eq_succ_of_ne_zero (Nat.ne_zero_of_lt hfuel)
      have hlength : more'.length < fuel := by
        obtain ⟨-⟩ := close_end
        simp only [List.length_append, List.length_cons] at hfuel
        omega
      rw [Parser.arms, if_pos rfl]
      apply (hcondition _ _ _ here (TagEnd.stopsBefore close_end hkinds).append.append).bind
      apply (takesAs_closeTag close_end).bind
      apply (h.body body hstart haccepts hdivides').bind
      exact (htakes _ fuel hlength).map fun result =>
        (⟨guard, nodes, position⟩ :: result.1, result.2)

/-- The arms of a block and what follows them, from the first word of the tag on that comes
first. -/
theorem TakesLevel.armsThen (h : TakesLevel inner level) (block : OpenBlock) {word : Keyword}
    {condition : Parser Expr} {C : Reading Expr} {kinds : List TokenKind}
    (hcondition : Parses condition kinds C) (hkinds : .tagClose ∉ kinds)
    (hword : word.dividesBlock = true) (hdivides : closing.dividesBlock = true)
    (hother : closing ≠ .elseTag ∧ .elseTag ≠ word ∧ closing ≠ word)
    {behind : List Token} {arms : List Arm} {otherwise : List Node} {survey survey' : Survey}
    (harms : Arms word C level.body tokens arms survey)
    (hclosing : Closing closing level.body behind otherwise survey')
    (f : List Arm → List Node → α) :
    ∃ ending start more, tokens ++ behind = start ++ more ∧ TagStart ending start ∧
      ending.keyword ∈ [word, .elseTag, closing] ∧ ending.keyword.dividesBlock = true ∧
      ∀ rest, TakesAs (do
        let (arms, last) ← Parser.arms inner block word condition [word, .elseTag, closing]
          ((← remaining) + 1) ending
        let otherwise ← Parser.elsePart inner block closing last
        pure (f arms otherwise)) rest more (f arms otherwise) := by
  obtain ⟨last, start, more, rfl, hlast, hkeyword, htakes⟩ :=
    h.elsePart block hdivides hother.1 hclosing
  have hlast' : last.keyword ≠ word ∧ last.keyword ∈ [word, .elseTag, closing] ∧
      last.keyword.dividesBlock = true := by
    rcases hkeyword with hkeyword | hkeyword <;> rw [hkeyword]
    · exact ⟨hother.2.1, by simp, rfl⟩
    · exact ⟨hother.2.2, by simp, hdivides⟩
  obtain ⟨ending, start', more', hsplit, hstart, haccepted, hdivides', harms'⟩ :=
    h.arms block hcondition hkinds List.mem_cons_self hword harms hlast hlast'.1 hlast'.2.1
      hlast'.2.2
  refine ⟨ending, start', more' ++ more, ?_, hstart, haccepted, hdivides', ?_⟩
  · rw [← List.append_assoc, hsplit, List.append_assoc]
  intro rest
  apply TakesAs.remaining_bind
  intro left hleft
  rw [List.length_append] at hleft
  apply (harms' (more ++ rest) (left + 1) (by omega)).bind
  exact (htakes rest).map fun otherwise => f arms otherwise

/-- A branch with its arms and its `else` is parsed from the tokens that stand for it. -/
theorem TakesLevel.branchBlock (h : TakesLevel inner level) {negate : Bool} {nodes : List Node}
    {survey : Survey} (hdivides : closing.dividesBlock = true)
    (hother : closing ≠ .elseTag ∧ closing ≠ .elsif)
    (hbranch : Branch level.primary level.body closing negate block.position tokens nodes survey) :
    TakesAs (do
      let node ← branchBlock inner block closing negate
      pure [node]) rest tokens nodes := by
  obtain ⟨here, close_end, inside, others, closes⟩ := hbranch
  rename_i head close tokens more behind condition nodes otherwise arms survey survey' survey''
  obtain ⟨ending, start, more', hsplit, hstart, haccepted, hdivides', htakes⟩ :=
    h.armsThen block h.primary.expression (by decide) (by decide) hdivides
      ⟨hother.1, by decide, hother.2⟩ others closes fun arms otherwise =>
        Node.branch (if negate then .not condition else condition) nodes arms otherwise
          block.position
  rw [hsplit, ← List.append_assoc tokens]
  refine TakesAs.map ?_ fun node => [node]
  have hstops : StopsBefore expressionSigns close := TagEnd.stopsBefore close_end (by decide)
  apply (h.primary.expression _ _ _ here hstops.append.append).bind
  apply (takesAs_closeTag close_end).bind
  exact (h.body inside hstart haccepted hdivides').bind (htakes rest)

/-- The condition of a `when` tag. -/
theorem Parses.whenCondition {primary : Parser Expr} {P : Reading Expr}
    (h : Parses primary pathSigns P) (subject : Expr) :
    Parses (whenCondition primary subject) (.comma :: .keyword .or :: pathSigns)
      (When P subject) := by
  intro tokens expr rest hexpr hrest
  obtain ⟨here, more, tree⟩ := hexpr
  obtain rfl := Expr.balanced_eq_iff.mpr tree
  have hstart : ∀ tokens item, Behind [.comma, .keyword .or] P tokens item →
      StopsBefore pathSigns tokens := by
    rintro _ item ⟨hseparator, -⟩
    apply stopsBefore_cons
    simp only [List.mem_cons, List.not_mem_nil, or_false] at hseparator
    rcases hseparator with hkind | hkind <;> (rw [hkind]; decide)
  have hmany : Parses
      (Parser.many do
        if ← eatEither .comma (.keyword .or) then
          let value ← primary
          pure (some value)
        else pure none)
      (.comma :: .keyword .or :: pathSigns) (Items (Behind [.comma, .keyword .or] P)) := by
    apply Parses.many pathSigns _ hstart
    · intro rest hrest
      have hstops : StopsBefore [.comma, .keyword .or] rest := hrest.mono (by simp)
      exact (takesAs_eatEither_nothing hstops).bind_nothing (takesAs_pure none)
    · intro kind hkind
      simp [hkind]
    · rintro _ item rest ⟨hseparator, hitem⟩ hrest
      exact (takesAs_eatEither hseparator).bind ((h _ _ _ hitem hrest).map some)
  have hbehind := Items.stopsBefore more hstart (hrest.mono fun kind hkind => by simp [hkind])
  apply (h _ _ _ here hbehind).bind
  exact (hmany _ _ _ more hrest).map fun others =>
    Expr.balanced .or (.binary .eq subject _) (others.map (.binary .eq subject))

/-- A `case` block, with arms or without. -/
theorem TakesLevel.caseBlock (h : TakesLevel inner level)
    {head close inside more behind : List Token} {subject : Expr} {arms : List Arm}
    {dropped otherwise : List Node} {survey survey' survey'' : Survey}
    (hhead : Expression level.primary head subject) (hclose : TagEnd close)
    (hinside : level.body inside dropped survey)
    (harms : Arms .whenTag (When level.primary subject) level.body more arms survey')
    (hclosing : Closing .endCase level.body behind otherwise survey'') :
    TakesAs (caseBlock inner block) rest (head ++ (close ++ (inside ++ (more ++ behind))))
      (caseNodes arms otherwise) := by
  obtain ⟨ending, start, more', hsplit, hstart, haccepted, hdivides, htakes⟩ :=
    h.armsThen block (h.primary.whenCondition subject) (by decide) (by decide) (by decide)
      (by decide) harms hclosing caseNodes
  rw [hsplit, ← List.append_assoc inside]
  have hstops : StopsBefore expressionSigns close := TagEnd.stopsBefore hclose (by decide)
  apply (h.primary.expression _ _ _ hhead hstops.append.append).bind
  apply (takesAs_closeTag hclose).bind
  exact (h.body hinside hstart haccepted hdivides).bind (htakes rest)

/-- A loop is parsed from its header, its body and what may stand behind `else`. -/
theorem TakesLevel.loopBlock (h : TakesLevel inner level) {head inside behind : List Token}
    {header : LoopHeader} {nodes otherwise : List Node} {survey survey' survey'' : Survey}
    (hhead : Header level.primary block.position head header survey)
    (hinside : level.body inside nodes survey')
    (hclosing : Closing .endFor level.body behind otherwise survey'') :
    TakesAs (loopBlock inner block) rest (head ++ (inside ++ behind))
      (.loop header nodes otherwise) := by
  obtain ⟨ending, start, more, rfl, hstart, hkeyword, htakes⟩ :=
    h.elsePart block (by decide) (by decide) hclosing
  have hdivides : ending.keyword.dividesBlock = true := by
    rcases hkeyword with hkeyword | hkeyword <;> (rw [hkeyword]; rfl)
  rw [← List.append_assoc inside]
  apply (h.primary.loopHeader hhead).bind
  apply (h.body hinside hstart (by simpa using hkeyword) hdivides).bind
  exact (htakes rest).map (Node.loop header nodes)

theorem TakesLevel.verbatimBlock (h : TakesLevel inner level)
    (hdivides : closing.dividesBlock = true) {close inside behind : List Token}
    {nodes : List Node} {survey : Survey} (hclose : TagEnd close)
    (hinside : level.body inside nodes survey) (hclosing : ClosingTag closing behind) :
    TakesAs (verbatimBlock inner block closing) rest (close ++ (inside ++ behind)) nodes :=
  (takesAs_closeTag hclose).bind (h.closed hdivides hinside hclosing id)

/-- What the layout has for a block is taken by the parser of that block. -/
theorem TakesLevel.openedBlock (h : TakesLevel inner level) {nodes : List Node} {survey : Survey}
    (hblock : Block level block tokens nodes survey) :
    ∃ parse, block? block = some parse ∧
      ∀ rest, TakesAs (parse inner) rest tokens nodes := by
  cases hblock with
  | forTag here inside closing =>
      exact ⟨_, rfl, fun rest => (h.loopBlock here inside closing).map fun node => [node]⟩
  | ifTag branch => exact ⟨_, rfl, fun rest => h.branchBlock rfl ⟨nofun, nofun⟩ branch⟩
  | unlessTag branch => exact ⟨_, rfl, fun rest => h.branchBlock rfl ⟨nofun, nofun⟩ branch⟩
  | caseTag here close_end inside others closing =>
      exact ⟨_, rfl, fun rest => h.caseBlock here close_end inside others closing⟩
  | armless here close_end inside closing =>
      exact ⟨_, rfl, fun rest => h.caseBlock here close_end inside .nil closing⟩
  | @capture position name close tokens behind nodes survey kind close_end inside closing =>
      refine ⟨_, rfl, fun rest => ?_⟩
      refine TakesAs.map ?_ fun node => [node]
      apply TakesAs.bind_cons (takesAs_expect kind)
      apply (takesAs_closeTag close_end).bind
      exact h.closed rfl inside closing fun nodes => Node.capture name.text nodes position
  | comment close_end inside closing =>
      refine ⟨_, rfl, fun rest => ?_⟩
      exact (h.verbatimBlock rfl close_end inside closing).map fun _ => []
  | raw close_end inside closing =>
      exact ⟨_, rfl, fun rest => h.verbatimBlock rfl close_end inside closing⟩

end Block

section Nodes

variable {limit : Nat} {primary : Parser Expr} {P : Reading Expr} {parser? : Option Inner}
  {level? : Option Level} {block? : Option OpenBlock} {accepts : List Keyword}
  {nodes : List Node} {survey : Survey}

/-- What the next deeper level has, if there is one, its parsers take. -/
def TakesLevels (parser? : Option Inner) (level? : Option Level) : Prop :=
  ∀ level, level? = some level → ∃ inner, parser? = some inner ∧ TakesLevel inner level

/-- A tag that does not divide a block is told from its first two tokens. -/
theorem takesAs_item_tag {start : List Token} {opening : EndTag} (hstart : TagStart opening start)
    (hdivides : opening.keyword.dividesBlock = false)
    (htag : ∀ name, TakesAs (Parser.tag limit primary parser? opening.keyword name opening.position)
      rest tokens nodes) :
    TakesAs (item limit primary parser? block? accepts) rest (start ++ tokens) (.nodes nodes) := by
  obtain ⟨kind, position, word⟩ := hstart
  apply TakesAs.bind_cons takesAs_advance
  simp only [kind]
  apply TakesAs.bind_cons takesAs_take
  simp only [word, hdivides, Bool.false_eq_true, ↓reduceIte, position]
  exact (htag _).map Item.nodes

/-- Every piece is taken in one round. -/
theorem takesAs_item (h : Parses primary pathSigns P) (hlevels : TakesLevels parser? level?)
    (hpiece : Piece P level? tokens nodes survey) :
    TakesAs (item limit primary parser? block? accepts) rest tokens (.nodes nodes) := by
  cases hpiece with
  | text kind =>
      apply takesAs_advance.bind_nothing
      simp only [kind]
      exact takesAs_pure _
  | @output opening closing tokens expr kind here closes =>
      apply TakesAs.bind_cons takesAs_advance
      simp only [kind]
      have hstops : StopsBefore expressionSigns ([closing] ++ rest) :=
        stopsBefore_cons (by rw [closes]; decide)
      apply (h.expression _ _ _ here hstops).bind
      exact (takesAs_expect closes).map fun _ => Item.nodes [.output expr opening.position]
  | @assign position name sign start tokens close expr tag kind sign_kind here close_end =>
      apply takesAs_item_tag tag rfl
      intro word
      have hstops : StopsBefore expressionSigns close := TagEnd.stopsBefore close_end (by decide)
      rw [Parser.tag, if_pos rfl]
      refine TakesAs.map ?_ fun node => [node]
      apply TakesAs.bind_cons (takesAs_expect kind)
      apply TakesAs.bind_cons (takesAs_expect sign_kind)
      apply (h.expression _ _ _ here hstops.append).bind
      exact (takesAs_closeTag close_end).map fun _ => Node.assign name.text expr position
  | @block level block start tokens nodes survey inner?_eq tag here =>
      obtain ⟨inner, rfl, hlevel⟩ := hlevels level inner?_eq
      obtain ⟨parse, hparse, htakes⟩ := hlevel.openedBlock here
      have hword : block.tag.dividesBlock = false ∧ block.tag ≠ .assign := by
        cases here <;> exact ⟨rfl, nofun⟩
      apply takesAs_item_tag tag hword.1
      intro name
      rw [Parser.tag, if_neg hword.2, hparse]
      exact htakes rest

/-- An accepted tag ends the items, and is itself taken. -/
theorem takesAs_item_ending {start : List Token} {ending : EndTag} (hstart : TagStart ending start)
    (haccepted : ending.keyword ∈ accepts) (hdivides : ending.keyword.dividesBlock = true) :
    TakesAs (item limit primary parser? block? accepts) rest start (.ending ending) := by
  obtain ⟨kind, position, word⟩ := hstart
  apply TakesAs.bind_cons takesAs_advance
  simp only [kind]
  apply takesAs_take.bind_nothing
  simp only [word, hdivides, ↓reduceIte, position, List.contains_iff_mem.mpr haccepted]
  exact takesAs_pure _

/-- Behind the rounds that take some pieces, the rounds left are still more than the tokens left. -/
theorem nodesUpTo_pieces {round : Parser Item} (hround : ∀ {tokens rest nodes survey},
      Piece P level? tokens nodes survey → TakesAs round rest tokens (.nodes nodes))
    (hreads : Reads round (ItemRead P level? accepts))
    (hpieces : Pieces P level? tokens nodes survey) {cursor : Cursor} {fuel : Nat}
    (hcursor : cursor.tokens = tokens ++ rest) (hfuel : cursor.tokens.length < fuel) :
    ∃ fuel' next, next.tokens = rest ∧ next.failure? = cursor.failure? ∧ rest.length < fuel' ∧
      ∀ others ending? last, nodesUpTo round fuel' next = .ok ((others, ending?), last) →
        nodesUpTo round fuel cursor = .ok ((nodes ++ others, ending?), last) := by
  induction hpieces generalizing cursor fuel with
  | nil =>
      rw [hcursor] at hfuel
      exact ⟨fuel, cursor, hcursor, rfl, hfuel, fun others ending? last hok => hok⟩
  | @cons tokens tokens' nodes nodes' survey survey' first more ih =>
      obtain ⟨fuel, rfl⟩ := Nat.exists_eq_succ_of_ne_zero (Nat.ne_zero_of_lt hfuel)
      rw [List.append_assoc] at hcursor
      obtain ⟨middle, hitem, hmiddle⟩ := hround first cursor hcursor
      obtain ⟨-, -, hfailure, -⟩ := hreads cursor _ middle hitem
      have hlength : middle.tokens.length < fuel := by
        have hpos := List.length_pos_iff.mpr first.ne_nil
        rw [hcursor, List.length_append] at hfuel
        rw [hmiddle]
        omega
      obtain ⟨fuel', next, hnext, hfailure', hfuel', hrest⟩ := ih hmiddle hlength
      refine ⟨fuel', next, hnext, hfailure'.trans hfailure, hfuel', ?_⟩
      intro others ending? last hok
      refine bind_eq_ok.mpr ⟨_, middle, hitem, ?_⟩
      refine bind_eq_ok.mpr ⟨_, last, hrest others ending? last hok, ?_⟩
      rw [List.append_assoc]
      rfl

/-- A source that is all pieces is parsed as the nodes they stand for. -/
theorem nodes_pieces (h : Parses primary pathSigns P) (hlevels : TakesLevels parser? level?)
    (hread : Reads primary P) (hreads : ReadsLevels parser? level?)
    (hpieces : Pieces P level? tokens nodes survey) {cursor : Cursor}
    (hcursor : cursor.tokens = tokens ++ rest) :
    ∃ fuel next, next.tokens = rest ∧ next.failure? = cursor.failure? ∧ rest.length < fuel ∧
      ∀ others ending? last,
        nodesUpTo (item limit primary parser? block? accepts) fuel next =
          .ok ((others, ending?), last) →
        Parser.nodes limit primary parser? block? accepts cursor =
          .ok ((nodes ++ others, ending?), last) :=
  nodesUpTo_pieces (takesAs_item h hlevels) (hread.item hreads) hpieces hcursor
    (length_lt_fuel cursor)

/-- The body of a block is parsed as the nodes of its pieces, up to the accepted tag behind them. -/
theorem takesAs_bodyWith (h : Parses primary pathSigns P) (hlevels : TakesLevels parser? level?)
    (hread : Reads primary P) (hreads : ReadsLevels parser? level?)
    (hpieces : Pieces P level? tokens nodes survey) {start : List Token} {ending : EndTag}
    (hstart : TagStart ending start) (haccepted : ending.keyword ∈ accepts)
    (hdivides : ending.keyword.dividesBlock = true) (block : OpenBlock) :
    TakesAs (bodyWith limit primary parser? block accepts) rest (tokens ++ start)
      (nodes, ending) := by
  intro cursor hcursor
  rw [List.append_assoc] at hcursor
  obtain ⟨fuel, middle, hmiddle, -, hfuel, hrest⟩ :=
    nodes_pieces h hlevels hread hreads hpieces hcursor
  obtain ⟨last, hending, hlast⟩ := takesAs_item_ending hstart haccepted hdivides middle hmiddle
  obtain ⟨fuel, rfl⟩ := Nat.exists_eq_succ_of_ne_zero (Nat.ne_zero_of_lt hfuel)
  have hnodes := hrest [] (some ending) last (bind_eq_ok.mpr ⟨_, last, hending, rfl⟩)
  rw [List.append_nil] at hnodes
  exact ⟨last, bind_eq_ok.mpr ⟨_, last, hnodes, rfl⟩, hlast⟩

end Nodes

/-- The insides of blocks are taken by their layout, however deep they may be nested. -/
theorem takesLevels_inner? (limit budget : Nat) :
    TakesLevels (inner? limit budget) (level? budget) := by
  induction budget with
  | zero =>
      intro level hnone
      cases hnone
  | succ budget ih =>
      intro level hsome
      cases hsome
      refine ⟨_, rfl, parses_primary limit budget, ?_⟩
      intro block accepts tokens start nodes survey ending rest hnodes hstart haccepted hdivides
      rw [nodes_eq] at hnodes
      have hbody : TakesAs
          (bodyWith limit (primary limit budget) (inner? limit budget) block accepts) rest
          (tokens ++ start) (nodes, ending) :=
        takesAs_bodyWith (parses_primary limit budget) ih (reads_primary limit budget)
          (readsLevels_inner? limit budget) hnodes hstart haccepted hdivides block
      cases budget with
      | zero => exact hbody
      | succ budget => exact hbody

/-- At the end of the source the rounds end. -/
theorem nodesUpTo_of_atEnd {limit : Nat} {primary : Parser Expr} {parser? : Option Inner}
    {block? : Option OpenBlock} {accepts : List Keyword} {cursor : Cursor} (h : AtEnd cursor)
    (fuel : Nat) :
    nodesUpTo (item limit primary parser? block? accepts) (fuel + 1) cursor =
      .ok (([], none), cursor) := by
  have hadvance : advance? cursor = .ok (none, cursor) := by
    unfold advance?
    split
    next token rest htokens => cases h.tokens_eq.symm.trans htokens
    next => rw [h.failure?_eq]
  have hitem : item limit primary parser? block? accepts cursor = .ok (.finished, cursor) :=
    bind_eq_ok.mpr ⟨none, cursor, hadvance, rfl⟩
  exact bind_eq_ok.mpr ⟨_, cursor, hitem, rfl⟩

/-- What the layout has for a whole source is parsed. -/
theorem template_of_nodes {limit : Nat} {all : List Node} {survey : Survey} {cursor : Cursor}
    (h : Nodes limit cursor.tokens all survey) (hfailure : cursor.failure? = none) :
    ∃ next, template limit cursor = .ok (all, next) := by
  rw [nodes_eq] at h
  obtain ⟨fuel, last, hlast, hfailure', hfuel, hrest⟩ :=
    nodes_pieces (parses_primary limit limit) (takesLevels_inner? limit limit)
      (reads_primary limit limit) (readsLevels_inner? limit limit) h (List.append_nil _).symm
  obtain ⟨fuel, rfl⟩ := Nat.exists_eq_succ_of_ne_zero (Nat.ne_zero_of_lt hfuel)
  have hend : AtEnd last := ⟨hlast, hfailure'.trans hfailure⟩
  have hnodes : nodes limit (primary limit limit) (inner? limit limit) none [] cursor =
      .ok ((all ++ [], none), last) := hrest [] none last (nodesUpTo_of_atEnd hend fuel)
  rw [List.append_nil] at hnodes
  exact ⟨last, bind_eq_ok.mpr ⟨_, last, hnodes, rfl⟩⟩

/-- A stream is parsed as some nodes exactly if the layout has these for its tokens and there is no
lexical error. -/
theorem template_eq_ok_iff {limit : Nat} {all : List Node} {cursor : Cursor} :
    (∃ next, template limit cursor = .ok (all, next)) ↔
      cursor.failure? = none ∧ ∃ survey, Nodes limit cursor.tokens all survey := by
  constructor
  · rintro ⟨next, hok⟩
    obtain ⟨tokens, htokens, hfailure, survey, hnodes⟩ := reads_template limit cursor all next hok
    have hend := template_finished hok
    rw [hend.tokens_eq, List.append_nil] at htokens
    exact ⟨hfailure.symm.trans hend.failure?_eq, survey, htokens ▸ hnodes⟩
  · rintro ⟨hfailure, survey, hnodes⟩
    exact template_of_nodes hnodes hfailure

end TextTemplate.Parser
