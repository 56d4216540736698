import TextTemplate.Proofs.Render.Locality
import TextTemplate.Proofs.Value.Integer
/-! # What a loop renders

A loop renders its body once for each of its elements. Each round can be rendered on its own, in a
frame that binds the element and what the loop tells about the round; what the loop writes and
counts is what the rounds write and count.
-/

namespace TextTemplate.Render

/-- What a loop tells its body about a round, in integers. -/
def roundInfo (index length : Int) : Value :=
  .object
    [("index", .ofInt (index + 1)),
     ("index0", .ofInt index),
     ("rindex", .ofInt (length - index)),
     ("rindex0", .ofInt (length - index - 1)),
     ("first", .bool (index = 0)),
     ("last", .bool (index = length - 1)),
     ("length", .ofInt length)]

/-- In a round that exists, the renderer tells of it what there is to tell: its place from both
ends, and whether it is the first or the last. -/
theorem loopInfo_eq {index length : Nat} (h : index < length) :
    loopInfo index length = roundInfo index length := by
  have hrindex : ((length - index : Nat) : Int) = length - index := by omega
  have hrindex0 : ((length - index - 1 : Nat) : Int) = length - index - 1 := by omega
  have hfirst : (index == 0) = decide ((index : Int) = 0) := by
    rw [Bool.eq_iff_iff]
    simp
  have hlast : (index + 1 == length) = decide ((index : Int) = length - 1) := by
    rw [Bool.eq_iff_iff]
    simp
    omega
  simp only [loopInfo, roundInfo, Value.ofNat, Value.ofInt, hrindex, hrindex0, hfirst, hlast]
  rfl

/-- The scope in which a round starts: a new frame inside that of the loop. -/
def roundScope (scope : Scope) (name : String) (item : Value) (index length : Nat) : Scope :=
  ⟨scope.root, [(name, item), ("forloop", roundInfo index length)], scope.inner :: scope.outer⟩

/-- In the scope of a round the name is the element, `forloop` tells of the round, and the rest is
as outside. -/
theorem get?_roundScope (scope : Scope) (name : String) (item : Value) (index length : Nat)
    (other : String) :
    (roundScope scope name item index length).get? other =
      if other = name then some item
      else if other = "forloop" then some (roundInfo index length)
      else scope.get? other := by
  by_cases hname : other = name
  · simp [Scope.get?, Scope.binding?, roundScope, hname]
  · have hitem : (other == name) = false := beq_eq_false_iff_ne.mpr hname
    by_cases hloop : other = "forloop"
    · subst hloop
      simp [Scope.get?, Scope.binding?, roundScope, List.lookup_cons, hname, hitem]
    · have hinfo : (other == "forloop") = false := beq_eq_false_iff_ne.mpr hloop
      simp [Scope.get?, Scope.binding?, roundScope, List.lookup_cons, hname, hloop, hitem, hinfo]

/-- A round of a loop, rendered on its own. -/
def roundAlone (limit : Nat) (header : LoopHeader) (body : List Node) (scope : Scope)
    (length : Nat) (round : Value × Nat) : Except Stopped RenderState :=
  nodes limit body (.alone (roundScope scope header.name round.1 round.2 length))

section Rounds

variable {limit : Nat} {header : LoopHeader} {body : List Node} {state : RenderState}
  {length index : Nat}

theorem endedAs_congr {change change' : RenderState → RenderState}
    {result : Except Stopped RenderState} (h : change (ended result) = change' (ended result)) :
    endedAs change result = endedAs change' result := by
  cases result with
  | ok left => exact congrArg Except.ok h
  | error stopped => exact congrArg (fun left => Except.error (Stopped.mk stopped.error left)) h

/-- What has been rendered so far, with what rounds in frames of their own have added. -/
def addRound (state added : RenderState) : RenderState :=
  ⟨state.scope, state.output ++ added.output, state.iterations + added.iterations⟩

/-- A body in its frame does what it does on its own in the scope of the round, with its text behind
the output so far and its count added. -/
theorem inFrame_eq_alone (h : index < length) (item : Value)
    (hcount : state.iterations +
      (ended (roundAlone limit header body state.scope length (item, index))).iterations ≤ limit) :
    inFrame (nodes limit body) header.name item (loopInfo index length) state =
      endedAs (addRound state) (roundAlone limit header body state.scope length (item, index)) := by
  have hentered : (state.scope.push.set "forloop" (loopInfo index length)).set header.name item =
      roundScope state.scope header.name item index length := by
    rw [loopInfo_eq h]
    rfl
  have hlocal := local_nodes limit body
  have haround := hlocal.around (.alone (roundScope state.scope header.name item index length))
  rw [inFrame_eq, enter, hentered, hlocal.eq_alone _ hcount, endedAs_endedAs]
  apply endedAs_congr
  have hpop : (ended (roundAlone limit header body state.scope length (item, index))).scope.pop =
      state.scope := haround.pop rfl rfl
  exact congrArg (fun scope => RenderState.mk scope _ _) hpop

/-- Rounds that end well are added one after the other. -/
theorem rounds_append {front : List Value} {ends : List RenderState} (rest : List Value)
    (hends : List.Forall₂
      (fun round last => roundAlone limit header body state.scope length round = .ok last)
      (front.zipIdx index) ends)
    (hlength : index + front.length ≤ length)
    (hcount : state.iterations + (front.length + (ends.map RenderState.iterations).sum) ≤ limit) :
    rounds limit header.position header.name length (nodes limit body) index (front ++ rest) state =
      rounds limit header.position header.name length (nodes limit body) (index + front.length) rest
        ⟨state.scope, state.output ++ String.join (ends.map RenderState.output),
          state.iterations + (front.length + (ends.map RenderState.iterations).sum)⟩ := by
  induction front generalizing index ends state with
  | nil =>
      cases hends
      simp [String.join]
  | cons item front ih =>
      rw [List.zipIdx_cons] at hends
      cases hends with
      | @cons _ first _ ends hfirst hrest =>
          simp only [List.length_cons, List.map_cons, List.sum_cons] at hlength hcount ⊢
          -- The frame is closed behind the round: the next starts in the scope of the loop again.
          let entered : RenderState := { state with iterations := state.iterations + 1 }
          have hcounted : counted limit header.position state = .ok entered :=
            counted_of_le (by omega)
          have hround :
              inFrame (nodes limit body) header.name item (loopInfo index length) entered =
                .ok (addRound entered first) := by
            rw [inFrame_eq_alone (by omega) item]
            · simp only [entered, hfirst, endedAs]
            · simp only [entered, hfirst, ended]
              omega
          have hleft : (addRound entered first).iterations +
              (front.length + (ends.map RenderState.iterations).sum) ≤ limit := by
            simp only [addRound, entered]
            omega
          calc rounds limit header.position header.name length (nodes limit body) index
                (item :: front ++ rest) state
            _ = rounds limit header.position header.name length (nodes limit body) (index + 1)
                (front ++ rest) (addRound entered first) := by
              rw [List.cons_append, rounds_cons, hcounted]
              exact congrArg (· >>= _) hround
            _ = rounds limit header.position header.name length (nodes limit body)
                (index + 1 + front.length) rest
                ⟨state.scope,
                  state.output ++ first.output ++ String.join (ends.map RenderState.output),
                  (addRound entered first).iterations +
                    (front.length + (ends.map RenderState.iterations).sum)⟩ :=
              ih hrest (by omega) hleft
            _ = _ := by
              rw [String.join_cons, String.append_assoc, Nat.add_right_comm index 1, Nat.add_assoc
                index]
              congr 2
              simp only [addRound, entered]
              omega

/-- A round that does not end well ends the loop. -/
theorem rounds_stopped {item : Value} {stopped : Stopped} (rest : List Value)
    (hround : roundAlone limit header body state.scope length (item, index) = .error stopped)
    (hlength : index < length)
    (hcount : state.iterations + (1 + stopped.state.iterations) ≤ limit) :
    rounds limit header.position header.name length (nodes limit body) index (item :: rest) state =
      .error ⟨stopped.error, state.scope, state.output ++ stopped.state.output,
        state.iterations + (1 + stopped.state.iterations)⟩ := by
  let entered : RenderState := { state with iterations := state.iterations + 1 }
  have hcounted : counted limit header.position state = .ok entered := counted_of_le (by omega)
  have hframe : inFrame (nodes limit body) header.name item (loopInfo index length) entered =
      .error ⟨stopped.error, addRound entered stopped.state⟩ := by
    rw [inFrame_eq_alone hlength item]
    · simp only [entered, hround, endedAs]
    · simp only [entered, hround, ended]
      omega
  rw [rounds_cons, hcounted]
  refine (congrArg (· >>= _) hframe).trans ?_
  simp only [addRound, entered, Nat.add_assoc]
  rfl

end Rounds

section Chosen

variable {context : Context} {header : LoopHeader} {value : Value} {offset? limit? : Option Value}

/-- A parameter counts as many elements as its value stands for. -/
theorem count?_eq {expr? : Option Expr} {value? : Option Value}
    (h : expr?.mapM context.evaluate = .ok value?) :
    count? context expr? = .ok (value?.map count) := by
  cases expr? with
  | none =>
      cases h
      rfl
  | some expr =>
      rw [Option.mapM_some] at h
      rw [count?]
      cases hexpr : context.evaluate expr with
      | error error =>
          rw [hexpr] at h
          cases h
      | ok value =>
          rw [hexpr] at h
          cases h
          rfl

/-- A loop runs over the elements of its value that the parameters leave, in the order that they ask
for. -/
theorem loopItems_eq (hvalue : context.evaluate header.iterable = .ok value)
    (hoffset : header.offset?.mapM context.evaluate = .ok offset?)
    (hlimit : header.limit?.mapM context.evaluate = .ok limit?) :
    loopItems context header = .ok
      (selected header.reversed (offset?.map count) (limit?.map count) (elements value)) := by
  rw [loopItems, hvalue, count?_eq hoffset, count?_eq hlimit]
  rfl

end Chosen

/-! ## The elements of a loop -/

/-- What a value has for a loop to run over: the elements of an array, for each member of an object
in turn an object with its name and its value, and nothing in any other value. -/
inductive HasElements : Value → List Value → Prop
  | array (items : List Value) : HasElements (.array items) items
  | object (members : List (String × Value)) :
      HasElements (.object members)
        (members.map fun member => .object [("name", .string member.1), ("value", member.2)])
  | other {value : Value} (not_array : ∀ items, value ≠ .array items)
      (not_object : ∀ members, value ≠ .object members) : HasElements value []

/-- The number of elements that a loop parameter stands for: the integer that it counts as, or zero
where that is negative or it counts as none. -/
inductive StandsForCount : Value → Nat → Prop
  | integer {value : Value} {n : Nat} (counts : value.CountsAs n) : StandsForCount value n
  | negative {value : Value} {n : Int} (counts : value.CountsAs n) (neg : n < 0) :
      StandsForCount value 0
  | missing {value : Value} (not_counts : ∀ n, ¬ value.CountsAs n) : StandsForCount value 0

/-- The elements behind those that an offset leaves out. One that is absent leaves out none. -/
inductive LeftBy : Option Value → List Value → List Value → Prop
  | absent (items : List Value) : LeftBy none items items
  | present {offset : Value} {n : Nat} (count : StandsForCount offset n) (items : List Value) :
      LeftBy (some offset) items (items.drop n)

/-- The elements within a limit. One that is absent does not cut. -/
inductive KeptBy : Option Value → List Value → List Value → Prop
  | absent (items : List Value) : KeptBy none items items
  | present {limit : Value} {n : Nat} (count : StandsForCount limit n) (items : List Value) :
      KeptBy (some limit) items (items.take n)

/-- The elements that a loop runs over in their order: those of its value from the offset on, within
the limit, and of these the last one first if they are reversed. -/
inductive Chosen (value : Value) (offset? limit? : Option Value) : Bool → List Value → Prop
  | forward {items left kept : List Value} (elements : HasElements value items)
      (offset : LeftBy offset? items left) (limit : KeptBy limit? left kept) :
      Chosen value offset? limit? false kept
  | backward {items left kept : List Value} (elements : HasElements value items)
      (offset : LeftBy offset? items left) (limit : KeptBy limit? left kept) :
      Chosen value offset? limit? true kept.reverse

/-- The renderer takes the elements of a value that it has. -/
theorem elements_eq_iff {value : Value} {items : List Value} :
    elements value = items ↔ HasElements value items := by
  constructor
  · rintro rfl
    cases value with
    | array items => exact .array items
    | object members => exact .object members
    | _ => exact .other nofun nofun
  · intro h
    cases h with
    | array items => rfl
    | object members => rfl
    | other not_array not_object =>
        cases value with
        | array items => exact absurd rfl (not_array items)
        | object members => exact absurd rfl (not_object members)
        | _ => rfl

/-- The renderer takes a count for what its value stands for. -/
theorem count_eq_iff {value : Value} {n : Nat} : count value = n ↔ StandsForCount value n := by
  constructor
  · rintro rfl
    unfold count
    cases hint : value.toInt64? with
    | none =>
        refine .missing fun n hn => ?_
        cases hint.symm.trans (Value.toInt64?_eq_some_iff.mpr hn)
    | some n =>
        have hcounts := Value.toInt64?_eq_some_iff.mp hint
        cases n with
        | ofNat n => exact .integer hcounts
        | negSucc n => exact .negative hcounts (Int.negSucc_lt_zero n)
  · intro h
    cases h with
    | integer counts =>
        rw [count, Value.toInt64?_eq_some_iff.mpr counts]
        rfl
    | negative counts neg =>
        rw [count, Value.toInt64?_eq_some_iff.mpr counts]
        exact Int.toNat_of_nonpos neg.le
    | missing not_counts =>
        have hnone : value.toInt64? = none :=
          Option.eq_none_iff_forall_ne_some.mpr fun n hn =>
            not_counts n (Value.toInt64?_eq_some_iff.mp hn)
        rw [count, hnone]
        rfl

/-- Dropping as many elements as the offset stands for leaves the others. -/
theorem leftBy_iff {offset? : Option Value} {items left : List Value} :
    LeftBy offset? items left ↔ items.drop ((offset?.map count).getD 0) = left := by
  constructor
  · intro h
    cases h with
    | absent => rfl
    | present hcount =>
        obtain rfl := count_eq_iff.mpr hcount
        rfl
  · rintro rfl
    cases offset? with
    | none => exact .absent items
    | some offset => exact .present (count_eq_iff.mp rfl) items

/-- Taking as many elements as the limit stands for keeps those, and no limit keeps all. -/
theorem keptBy_iff {limit? : Option Value} {items kept : List Value} :
    KeptBy limit? items kept ↔
      (match limit?.map count with
        | some limit => items.take limit
        | none => items) = kept := by
  constructor
  · intro h
    cases h with
    | absent => rfl
    | present hcount =>
        obtain rfl := count_eq_iff.mpr hcount
        rfl
  · rintro rfl
    cases limit? with
    | none => exact .absent items
    | some limit => exact .present (count_eq_iff.mp rfl) items

/-- The renderer selects the elements that the parameters choose, and these are the only ones. -/
theorem selected_eq_iff {value : Value} {offset? limit? : Option Value} {reversed : Bool}
    {chosen : List Value} :
    selected reversed (offset?.map count) (limit?.map count) (elements value) = chosen ↔
      Chosen value offset? limit? reversed chosen := by
  constructor
  · rintro rfl
    have helements := elements_eq_iff.mp (rfl : elements value = _)
    cases reversed with
    | false => exact .forward helements (leftBy_iff.mpr rfl) (keptBy_iff.mpr rfl)
    | true => exact .backward helements (leftBy_iff.mpr rfl) (keptBy_iff.mpr rfl)
  · intro h
    cases h with
    | forward helements hleft hkept | backward helements hleft hkept =>
        obtain rfl := elements_eq_iff.mpr helements
        obtain rfl := leftBy_iff.mp hleft
        obtain rfl := keptBy_iff.mp hkept
        rfl

/-! ## The loop -/

/-- A loop takes its elements from its value as its parameters say. With none left it renders what
stands for the empty loop; else its body once for each, in a frame of its own, up to the first round
that does not end well. -/
theorem node_loop (limit : Nat) (header : LoopHeader) (body otherwise : List Node)
    (state : RenderState) {value : Value} {offset? limit? : Option Value}
    (hvalue : (state.context limit).evaluate header.iterable = .ok value)
    (hoffset : header.offset?.mapM (state.context limit).evaluate = .ok offset?)
    (hlimit : header.limit?.mapM (state.context limit).evaluate = .ok limit?) :
    (∃ chosen, Chosen value offset? limit? header.reversed chosen) ∧
    ∀ chosen, Chosen value offset? limit? header.reversed chosen →
      let round := roundAlone limit header body state.scope chosen.length
      (∀ (item : Value) (index : Nat) (name : String),
          (roundScope state.scope header.name item index chosen.length).get? name =
            if name = header.name then some item
            else if name = "forloop" then some (roundInfo index chosen.length)
            else state.scope.get? name) ∧
        (chosen = [] →
          node limit (.loop header body otherwise) state = nodes limit otherwise state) ∧
        (∀ ends : List RenderState, chosen ≠ [] →
          List.Forall₂ (fun item last => round item = .ok last) chosen.zipIdx ends →
          state.iterations + (chosen.length + (ends.map RenderState.iterations).sum) ≤ limit →
          node limit (.loop header body otherwise) state =
            .ok ⟨state.scope, state.output ++ String.join (ends.map RenderState.output),
              state.iterations + (chosen.length + (ends.map RenderState.iterations).sum)⟩) ∧
        ∀ (front : List Value) (item : Value) (rest : List Value) (ends : List RenderState)
          (stopped : Stopped), chosen = front ++ item :: rest →
          List.Forall₂ (fun item last => round item = .ok last) front.zipIdx ends →
          round (item, front.length) = .error stopped →
          state.iterations + (front.length + (ends.map RenderState.iterations).sum) +
            (1 + stopped.state.iterations) ≤ limit →
          node limit (.loop header body otherwise) state =
            .error ⟨stopped.error, state.scope,
              state.output ++ String.join (ends.map RenderState.output) ++ stopped.state.output,
              state.iterations + (front.length + (ends.map RenderState.iterations).sum) +
                (1 + stopped.state.iterations)⟩ := by
  refine ⟨⟨_, selected_eq_iff.mp rfl⟩, ?_⟩
  intro chosen hchosen round
  have hitems : loopItems (state.context limit) header = .ok chosen := by
    rw [loopItems_eq hvalue hoffset hlimit, selected_eq_iff.mpr hchosen]
  have hnode := node_loop_of_items body otherwise hitems
  refine ⟨?scope, ?empty, ?all, ?stopped⟩
  case scope =>
    intro item index name
    exact get?_roundScope state.scope header.name item index chosen.length name
  case empty =>
    intro hempty
    rw [hnode, if_pos hempty]
  case all =>
    intro ends hnonempty hends hcount
    have hrounds := rounds_append [] hends (Nat.le_of_eq (Nat.zero_add _)) hcount
    rw [List.append_nil] at hrounds
    rw [hnode, if_neg hnonempty, hrounds, rounds]
  case stopped =>
    intro front item rest ends stopped hchosen hends hround hcount
    have hlength : front.length < chosen.length := by
      rw [hchosen, List.length_append, List.length_cons]
      omega
    have hfront := rounds_append (item :: rest) hends (by omega) (by omega)
    rw [← hchosen, Nat.zero_add] at hfront
    rw [hnode, if_neg (List.ne_nil_of_length_pos (by omega)), hfront]
    exact rounds_stopped rest hround hlength hcount

/-- Of an array all but the first and then two elements, the last one first; of an object all
members, since a negative offset leaves out none. The limit of rounds is just reached, and what the
rounds bind is gone behind the loop. -/
theorem node_loop_chosen :
    let document : Expr := .path [.field "model"]
    let two : LoopHeader := ⟨"x", document, true, some (.literal (.ofInt 2)),
      some (.literal (.string "1")), ⟨1, 1, 0⟩⟩
    let all : LoopHeader := ⟨"x", document, false, none, some (.literal (.ofInt (-1))), ⟨1, 1, 0⟩⟩
    let letters : Value := .array [.string "p", .string "q", .string "r", .string "s"]
    let members : Value := .object [("a", .string "p"), ("b", .string "q")]
    let copied : List Node :=
      [.assign "y" (.path [.field "x"]) ⟨1, 2, 1⟩,
        .output (.path [.field "forloop", .field "rindex0"]) ⟨1, 3, 2⟩,
        .output (.path [.field "y"]) ⟨1, 4, 3⟩]
    let member : List Node :=
      [.output (.path [.field "x", .field "name"]) ⟨1, 2, 1⟩,
        .output (.path [.field "x", .field "value"]) ⟨1, 3, 2⟩]
    Chosen letters (some (.string "1")) (some (.ofInt 2)) true [.string "r", .string "q"] ∧
      node 6 (.loop two copied []) ⟨Scope.ofDocument letters, "<", 4⟩ =
        .ok ⟨Scope.ofDocument letters, "<1r0q", 6⟩ ∧
      node 2 (.loop all member []) ⟨Scope.ofDocument members, "<", 0⟩ =
        .ok ⟨Scope.ofDocument members, "<apbq", 2⟩ := by
  intro document two all letters members copied member
  have hone : StandsForCount (.string "1") 1 :=
    .integer (Value.toInt64?_eq_some_iff.mp (by decide))
  have htwo : StandsForCount (.ofInt 2) 2 := .integer (.exact (.number (by decide)))
  have hzero : StandsForCount (.ofInt (-1)) 0 :=
    .negative (.exact (.number (by decide))) (by decide)
  have hletters : Chosen letters (some (.string "1")) (some (.ofInt 2)) true
      [.string "r", .string "q"] :=
    .backward (.array _) (.present hone _) (.present htwo _)
  refine ⟨hletters, ?array, ?object⟩
  case array =>
    let scope := roundScope (Scope.ofDocument letters) "x"
    have hfirst : roundAlone 6 two copied (Scope.ofDocument letters) 2 (.string "r", 0) =
        .ok ⟨(scope (.string "r") 0 2).set "y" (.string "r"), "1r", 0⟩ := by decide +kernel
    have hsecond : roundAlone 6 two copied (Scope.ofDocument letters) 2 (.string "q", 1) =
        .ok ⟨(scope (.string "q") 1 2).set "y" (.string "q"), "0q", 0⟩ := by decide +kernel
    have hloop := (node_loop 6 two copied [] ⟨Scope.ofDocument letters, "<", 4⟩ rfl rfl rfl).2 _
      hletters
    exact hloop.2.2.1 _ (List.cons_ne_nil _ _) (.cons hfirst (.cons hsecond .nil)) (by decide)
  case object =>
    let pair (name value : String) : Value :=
      .object [("name", .string name), ("value", .string value)]
    let scope := roundScope (Scope.ofDocument members) "x"
    have hmembers : Chosen members (some (.ofInt (-1))) none false [pair "a" "p", pair "b" "q"] :=
      .forward (.object _) (.present hzero _) (.absent _)
    have hfirst : roundAlone 2 all member (Scope.ofDocument members) 2 (pair "a" "p", 0) =
        .ok ⟨scope (pair "a" "p") 0 2, "ap", 0⟩ := by decide +kernel
    have hsecond : roundAlone 2 all member (Scope.ofDocument members) 2 (pair "b" "q", 1) =
        .ok ⟨scope (pair "b" "q") 1 2, "bq", 0⟩ := by decide +kernel
    have hloop := (node_loop 2 all member [] ⟨Scope.ofDocument members, "<", 0⟩ rfl rfl rfl).2 _
      hmembers
    exact hloop.2.2.1 _ (List.cons_ne_nil _ _) (.cons hfirst (.cons hsecond .nil)) (by decide)

end TextTemplate.Render
