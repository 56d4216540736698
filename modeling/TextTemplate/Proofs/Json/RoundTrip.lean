import TextTemplate.Proofs.Json.Number
import TextTemplate.Proofs.Json.Yield
import TextTemplate.Value.Print
/-! # Values are read back from their JSON text

The compact JSON text of a value of the data model is read as that value, with its members in their
order, if there is no floating-point number in it. Main statement: an object that was read from some
text and holds no such number is read back from what a template prints for it.
-/

namespace TextTemplate

namespace Value

mutual

/-- Whether a value holds no floating-point number at any depth. -/
def isFloatFree : Value → Bool
  | .number (.float _) => false
  | .array items => areFloatFree items
  | .object members => membersAreFloatFree members
  | _ => true

/-- Whether no element holds a floating-point number. -/
def areFloatFree : List Value → Bool
  | [] => true
  | item :: rest => isFloatFree item && areFloatFree rest

/-- Whether no member holds a floating-point number. -/
def membersAreFloatFree : List (String × Value) → Bool
  | [] => true
  | (_, value) :: rest => isFloatFree value && membersAreFloatFree rest

end

/-- A list of values is free of floats if each value is. -/
theorem areFloatFree_iff {items : List Value} :
    areFloatFree items = true ↔ ∀ item ∈ items, item.isFloatFree = true := by
  induction items with
  | nil => simp [areFloatFree]
  | cons item rest ih => simp [areFloatFree, ih]

/-- The members of an object are free of floats if each value is. -/
theorem membersAreFloatFree_iff {members : List (String × Value)} :
    membersAreFloatFree members = true ↔ ∀ member ∈ members, member.2.isFloatFree = true := by
  induction members with
  | nil => simp [membersAreFloatFree]
  | cons member rest ih => simp [membersAreFloatFree, ih]

end Value

namespace Json

open Numeral (digits isDigit ne_of_isDigit exists_digits_eq_cons)
open Value

/-- Whether a value may end in front of a text: at the end, or before a comma or a closing
bracket. -/
def EndsValue (rest : List Char) : Prop := ∀ c ∈ rest.head?, c = ',' ∨ c = ']' ∨ c = '\x7d'

theorem EndsValue.endsNumber {rest : List Char} (h : EndsValue rest) : EndsNumber rest := by
  intro c hc
  rcases h c hc with rfl | rfl | rfl <;> decide

theorem endsValue_nil : EndsValue [] := fun _ hc => nomatch hc

theorem endsValue_cons {c : Char} {rest : List Char} (h : c = ',' ∨ c = ']' ∨ c = '\x7d') :
    EndsValue (c :: rest) := by
  rintro _ ⟨⟩
  exact h

/-! ## Numbers -/

theorem not_isBlank_of_isDigit {c : Char} (h : isDigit c = true) : isBlank c = false := by
  have hne : ∀ {d : Char}, isDigit d = false → c ≠ d := ne_of_isDigit h
  simp [isBlank, hne (d := ' ') rfl, hne (d := '\n') rfl, hne (d := '\t') rfl,
    hne (d := '\r') rfl]

/-- An integer that fits is read back from its sign and its size. -/
theorem ofWhole_natAbs {n : Int} (h : (Number.int n).Fits) :
    ofWhole (decide (n < 0)) n.natAbs = .int n ∧ n.natAbs ≤ greatestSignificand := by
  obtain ⟨hlow, hhigh⟩ := h
  have hgreatest : greatestSignificand = 18446744073709551615 := rfl
  have hhalf : Nat.pow 2 63 = 9223372036854775808 := rfl
  refine ⟨?_, by omega⟩
  unfold ofWhole
  by_cases hneg : n < 0
  · have hne : n.natAbs ≠ 0 := by omega
    have hle : n.natAbs ≤ Nat.pow 2 63 := by omega
    have hvalue : -(n.natAbs : Int) = n := by omega
    rw [decide_eq_true hneg, if_neg (by decide), if_neg hne, if_pos hle, hvalue]
  · have hvalue : (n.natAbs : Int) = n := by omega
    rw [decide_eq_false hneg, if_pos (by decide), hvalue]

variable {rest : List Char} {element? : Option (Reader Value)}

/-- An integer is read back from its digits, the sign of a negative one in front. -/
theorem takes_readValueWith_int {n : Int} (hfits : (Number.int n).Fits) (hrest : EndsNumber rest) :
    Takes (readValueWith element?) (Numeral.ofInt n) (.number (.int n)) rest := by
  obtain ⟨hwhole, hle⟩ := ofWhole_natAbs hfits
  have hnumber : Takes (readNumber (decide (n < 0))) (digits n.natAbs)
      (ofWhole (decide (n < 0)) n.natAbs) rest := takes_readNumber hle hrest
  rw [hwhole] at hnumber
  unfold Numeral.ofInt
  by_cases hneg : n < 0
  · rw [if_pos hneg]
    refine takes_peekPastBlank?_bind (by decide) ?_
    simp only [Char.reduceEq, ↓reduceIte]
    rw [decide_eq_true hneg] at hnumber
    exact takes_skip_bind hnumber.bind_pure
  · rw [if_neg hneg]
    rw [decide_eq_false hneg] at hnumber
    obtain ⟨c, more, hdigits, hc, -⟩ := exists_digits_eq_cons n.natAbs
    rw [hdigits] at hnumber ⊢
    refine takes_peekPastBlank?_bind (not_isBlank_of_isDigit hc) ?_
    have hne : ∀ {d : Char}, isDigit d = false → c ≠ d := ne_of_isDigit hc
    simp only [hne (d := 'n') rfl, hne (d := 't') rfl, hne (d := 'f') rfl, hne (d := '-') rfl, hc,
      ↓reduceIte]
    exact hnumber.bind_pure

theorem takes_readValueWith_string (s : String) :
    Takes (readValueWith element?) (quote s) (.string s) rest := by
  refine takes_peekPastBlank?_bind (by decide) ?_
  have hdigit : isDigit '"' = false := by decide
  simp only [Char.reduceEq, hdigit, Bool.false_eq_true, ↓reduceIte]
  exact takes_skip_bind (takes_readString s rest).bind_pure

theorem takes_readValueWith_null :
    Takes (readValueWith element?) ['n', 'u', 'l', 'l'] .null rest := by
  refine takes_peekPastBlank?_bind (by decide) ?_
  simp only [↓reduceIte]
  exact takes_skip_bind (takes_readWord _ _).bind_pure

theorem takes_readValueWith_bool (b : Bool) :
    Takes (readValueWith element?) (json (.bool b)) (.bool b) rest := by
  cases b
  · refine takes_peekPastBlank?_bind (by decide) ?_
    simp only [Char.reduceEq, ↓reduceIte]
    exact takes_skip_bind (takes_readWord _ _).bind_pure
  · refine takes_peekPastBlank?_bind (by decide) ?_
    simp only [Char.reduceEq, ↓reduceIte]
    exact takes_skip_bind (takes_readWord _ _).bind_pure

/-! ## Arrays -/

/-- How the text of a value starts: not with white space and not with the end of an array. -/
def StartsValue (text : List Char) : Prop :=
  ∃ c more, text = c :: more ∧ isBlank c = false ∧ c ≠ ']'

/-- The text of a value without floats starts with the first character of a value, not with a blank
or the end of a list. -/
theorem startsValue_json {value : Value} (h : value.isFloatFree = true) :
    StartsValue value.json := by
  have hstarts : ∀ c more, isBlank c = false → c ≠ ']' → StartsValue (c :: more) :=
    fun c more hblank hne => ⟨c, more, rfl, hblank, hne⟩
  cases value with
  | null => exact hstarts _ _ (by decide) (by decide)
  | bool b => cases b <;> exact hstarts _ _ (by decide) (by decide)
  | string s => exact hstarts _ _ (by decide) (by decide)
  | array items => exact hstarts _ _ (by decide) (by decide)
  | object members => exact hstarts _ _ (by decide) (by decide)
  | number n =>
      cases n with
      | float x => cases h
      | int n =>
          obtain ⟨c, more, hdigits, hc, -⟩ := exists_digits_eq_cons n.natAbs
          simp only [Value.json, Number.json, Numeral.ofInt, hdigits]
          split
          next => exact hstarts _ _ (by decide) (by decide)
          next => exact hstarts c more (not_isBlank_of_isDigit hc) (ne_of_isDigit hc rfl)

theorem StartsValue.append {text : List Char} (h : StartsValue text) :
    StartsValue (text ++ rest) := by
  obtain ⟨c, more, rfl, hc⟩ := h
  exact ⟨c, more ++ rest, rfl, hc⟩

theorem takes_startsList_false : Takes startsList [']'] false rest := by
  refine takes_peekPastBlank?_bind (by decide) ?_
  simp only [↓reduceIte]
  exact takes_skip_bind (takes_pure false)

theorem takes_startsList_true (h : StartsValue rest) : Takes startsList [] true rest := by
  obtain ⟨c, more, rfl, hblank, hne⟩ := h
  refine Takes.bind_of_empty (takes_peekPastBlank? ?_) ?_
  · rintro _ ⟨⟩
    exact hblank
  · simp only [List.nil_append, List.head?_cons, hne, ↓reduceIte]
    exact takes_pure true

theorem takes_continuesList_false : Takes continuesList [']'] false rest := by
  refine takes_peekPastBlank?_bind (by decide) ?_
  simp only [↓reduceIte]
  exact takes_skip_bind (takes_pure false)

theorem takes_continuesList_true (h : StartsValue rest) : Takes continuesList [','] true rest := by
  obtain ⟨c, more, rfl, hblank, hne⟩ := h
  refine takes_peekPastBlank?_bind (by decide) ?_
  simp only [Char.reduceEq, ↓reduceIte]
  refine takes_skip_bind (Takes.bind_of_empty (takes_peekPastBlank? ?_) ?_)
  · rintro _ ⟨⟩
    exact hblank
  · simp only [List.nil_append, List.head?_cons, hne, ↓reduceIte]
    exact takes_pure true

section Items

variable {element : Reader Value} {items : List Value}

/-- The element reader takes the text of each of some values, wherever a value may end. -/
def TakesAll (element : Reader Value) (values : List Value) : Prop :=
  ∀ value ∈ values, StartsValue value.json ∧
    ∀ rest, EndsValue rest → Takes element value.json value rest

/-- Behind an item of a list stands a comma or the bracket that ends the list. -/
theorem endsValue_jsonMoreItems (items : List Value) : EndsValue (jsonMoreItems items ++ rest) := by
  cases items with
  | nil => exact endsValue_cons (.inr (.inl rfl))
  | cons item items => exact endsValue_cons (.inl rfl)

theorem length_lt_jsonMoreItems (items : List Value) :
    items.length < (jsonMoreItems items).length := by
  induction items with
  | nil => simp [jsonMoreItems]
  | cons item items ih =>
      simp only [jsonMoreItems, List.length_cons, List.cons_append, List.length_append]
      omega

/-- More items of a list are read back, each behind its comma, as long as the fuel lasts for one
round an item. -/
theorem takes_readMoreItems (h : TakesAll element items) {fuel : List Char}
    (hfuel : items.length < fuel.length) :
    Takes (readMoreItems element fuel) (jsonMoreItems items) items rest := by
  induction items generalizing fuel with
  | nil =>
      obtain ⟨_, fuel, rfl⟩ := List.exists_cons_of_length_pos hfuel
      refine takes_continuesList_false.bind_of_rest ?_
      exact takes_pure []
  | cons item items ih =>
      obtain ⟨_, fuel, rfl⟩ := List.exists_cons_of_length_pos (Nat.zero_lt_of_lt hfuel)
      obtain ⟨⟨hstarts, hitem⟩, hitems⟩ := List.forall_mem_cons.mp h
      have hshorter : items.length < fuel.length := by simpa using hfuel
      have hmore := ih hitems hshorter
      change Takes _ ([','] ++ (item.json ++ jsonMoreItems items)) _ _
      refine Takes.bind (takes_continuesList_true (hstarts.append.append)) ?_
      simp only [↓reduceIte]
      exact (hitem _ (endsValue_jsonMoreItems items)).bind hmore.bind_pure

/-- The items of a list are read back up to the bracket that ends it. -/
theorem takes_readItems (h : TakesAll element items) :
    Takes (readItems element) (jsonItems items) items rest := by
  cases items with
  | nil =>
      refine takes_startsList_false.bind_of_rest ?_
      exact takes_pure []
  | cons item items =>
      obtain ⟨⟨hstarts, hitem⟩, hitems⟩ := List.forall_mem_cons.mp h
      have hmore : Takes (readMoreItems element (jsonMoreItems items ++ rest))
          (jsonMoreItems items) items rest :=
        takes_readMoreItems hitems (by
          have := length_lt_jsonMoreItems items
          rw [List.length_append]
          omega)
      have hstart : Takes startsList [] true (jsonItems (item :: items) ++ rest) :=
        takes_startsList_true hstarts.append.append
      refine Takes.bind_of_empty hstart ?_
      simp only [↓reduceIte]
      refine (hitem _ (endsValue_jsonMoreItems items)).bind ?_
      exact takes_unread_bind hmore.bind_pure

end Items

/-! ## Objects -/

theorem takes_continuesObject_false : Takes continuesObject ['\x7d'] false rest := by
  refine takes_peekPastBlank?_bind (by decide) ?_
  simp only [↓reduceIte]
  exact takes_skip_bind (takes_pure false)

theorem takes_continuesObject_true : Takes continuesObject [','] true ('"' :: rest) := by
  refine takes_peekPastBlank?_bind (by decide) ?_
  simp only [Char.reduceEq, ↓reduceIte]
  refine takes_skip_bind (Takes.bind_of_empty (takes_peekPastBlank? ?_) ?_)
  · rintro _ ⟨⟩
    decide
  · simp only [List.nil_append, List.head?_cons, ↓reduceIte]
    exact takes_pure true

theorem takes_startsObject_true : Takes startsObject [] true ('"' :: rest) := by
  refine Takes.bind_of_empty (takes_peekPastBlank? ?_) ?_
  · rintro _ ⟨⟩
    decide
  · simp only [List.nil_append, List.head?_cons, ↓reduceIte]
    exact takes_pure true

theorem takes_startsObject_false : Takes startsObject ['\x7d'] false rest := by
  refine takes_peekPastBlank?_bind (by decide) ?_
  simp only [Char.reduceEq, ↓reduceIte]
  exact takes_skip_bind (takes_pure false)

theorem takes_readColon : Takes readColon [':'] () rest := by
  refine takes_peekPastBlank?_bind (by decide) ?_
  simp only [↓reduceIte]
  exact takes_skip ':'

section Members

variable {element : Reader Value} {members : List (String × Value)}

/-- A member is read back from its key, a colon and the text of its value. -/
theorem takes_readMember {key : String} {value : Value}
    (h : Takes element value.json value rest) :
    Takes (readMember element) (quote key ++ ':' :: value.json) (key, value) rest := by
  change Takes _ ('"' :: ((key.toList.flatMap escapeChar ++ ['"']) ++ ([':'] ++ value.json))) _ _
  exact takes_skip_bind ((takes_readString key _).bind (takes_readColon.bind h.bind_pure))

theorem jsonMoreMembers_cons (member : String × Value) (members : List (String × Value)) :
    jsonMoreMembers (member :: members) = [','] ++ jsonMembers (member :: members) := rfl

/-- Behind a member of an object stands a comma or the brace that ends the object. -/
theorem endsValue_jsonMoreMembers (members : List (String × Value)) :
    EndsValue (jsonMoreMembers members ++ rest) := by
  cases members with
  | nil => exact endsValue_cons (.inr (.inr rfl))
  | cons member members => exact endsValue_cons (.inl rfl)

theorem length_lt_jsonMoreMembers (members : List (String × Value)) :
    members.length < (jsonMoreMembers members).length := by
  induction members with
  | nil => simp [jsonMoreMembers]
  | cons member members ih =>
      simp only [jsonMoreMembers, List.length_cons, List.cons_append, List.length_append]
      omega

/-- The members of an object are read back, each behind its comma. -/
theorem takes_readMembers {member : String × Value}
    (h : TakesAll element ((member :: members).map Prod.snd)) {fuel : List Char}
    (hfuel : members.length < fuel.length) :
    Takes (readMembers element fuel) (jsonMembers (member :: members)) (member :: members)
      rest := by
  induction members generalizing member fuel with
  | nil =>
      obtain ⟨_, fuel, rfl⟩ := List.exists_cons_of_length_pos hfuel
      have hvalue := (h member.2 (by simp)).2 (['\x7d'] ++ rest) (endsValue_cons (.inr (.inr rfl)))
      refine (takes_readMember hvalue).bind ?_
      refine takes_continuesObject_false.bind_of_rest ?_
      exact takes_pure [member]
  | cons next members ih =>
      obtain ⟨_, fuel, rfl⟩ := List.exists_cons_of_length_pos (Nat.zero_lt_of_lt hfuel)
      have hvalue := (h member.2 (by simp)).2 (jsonMoreMembers (next :: members) ++ rest)
        (endsValue_jsonMoreMembers _)
      have hshorter : members.length < fuel.length := by simpa using hfuel
      have hnext := ih (fun value hmem => h value (List.mem_cons_of_mem _ hmem)) hshorter
      refine (takes_readMember hvalue).bind ?_
      rw [jsonMoreMembers_cons]
      refine takes_continuesObject_true.bind ?_
      simp only [↓reduceIte]
      exact hnext.bind_pure

theorem takes_readEntries (h : TakesAll element (members.map Prod.snd)) :
    Takes (readEntries element) (jsonMembers members) members rest := by
  cases members with
  | nil =>
      refine takes_startsObject_false.bind_of_rest ?_
      exact takes_pure []
  | cons member members =>
      refine Takes.bind_of_empty takes_startsObject_true (takes_unread_bind ?_)
      refine takes_readMembers h ?_
      have hlength := length_lt_jsonMoreMembers members
      simp only [jsonMembers, List.length_append, List.length_cons]
      omega

/-- Keys that are apart stay where they are. -/
theorem takes_readObject (h : TakesAll element (members.map Prod.snd))
    (hkeys : (keys members).Nodup) :
    Takes (readObject element) (jsonMembers members) members rest := by
  have hread : Takes (readObject element) (jsonMembers members) (ofEntries members) rest :=
    (takes_readEntries h).bind_pure
  rwa [ofEntries_of_nodup hkeys] at hread

end Members

/-! ## Values -/

/-- A list is read back if its items are. -/
theorem takes_readValueWith_array {element : Reader Value} {items : List Value}
    (h : TakesAll element items) :
    Takes (readValueWith (some element)) (json (.array items)) (.array items) rest := by
  refine takes_peekPastBlank?_bind (by decide) ?_
  have hdigit : isDigit '[' = false := by decide
  simp only [Char.reduceEq, hdigit, Bool.false_eq_true, ↓reduceIte]
  exact takes_skip_bind (takes_readItems h).bind_pure

/-- An object is read back if its values are. Its keys are distinct, so no member replaces an
earlier one. -/
theorem takes_readValueWith_object {element : Reader Value} {members : List (String × Value)}
    (h : TakesAll element (members.map Prod.snd)) (hkeys : (keys members).Nodup) :
    Takes (readValueWith (some element)) (json (.object members)) (.object members) rest := by
  refine takes_peekPastBlank?_bind (by decide) ?_
  have hdigit : isDigit '\x7b' = false := by decide
  simp only [Char.reduceEq, hdigit, Bool.false_eq_true, ↓reduceIte]
  exact takes_skip_bind (takes_readObject h hkeys).bind_pure

/-- The text of a value without floating-point numbers is taken if the texts of its parts are. -/
theorem takes_readValueWith {depth : Nat} {value : Value} (hproper : value.ProperWithin depth)
    (hfree : value.isFloatFree = true) (hrest : EndsValue rest)
    (hparts : ∀ inner, depth = inner + 1 → ∃ element, element? = some element ∧
      ∀ parts : List Value, (∀ part ∈ parts, part.ProperWithin inner ∧ part.isFloatFree = true) →
        TakesAll element parts) :
    Takes (readValueWith element?) value.json value rest := by
  cases value with
  | null => exact takes_readValueWith_null
  | bool b => exact takes_readValueWith_bool b
  | string s => exact takes_readValueWith_string s
  | number n =>
      cases n with
      | int n => exact takes_readValueWith_int (properWithin_number.mp hproper) hrest.endsNumber
      | float x => cases hfree
  | array items =>
      cases depth with
      | zero => exact hproper.elim
      | succ inner =>
          obtain ⟨element, rfl, htakes⟩ := hparts inner rfl
          refine takes_readValueWith_array (htakes items fun item hmem => ?_)
          exact ⟨hproper item hmem, areFloatFree_iff.mp hfree item hmem⟩
  | object members =>
      cases depth with
      | zero => exact hproper.elim
      | succ inner =>
          obtain ⟨element, rfl, htakes⟩ := hparts inner rfl
          refine takes_readValueWith_object (htakes _ fun part hmem => ?_) hproper.1
          obtain ⟨member, hmember, rfl⟩ := List.mem_map.mp hmem
          exact ⟨hproper.2 member hmember, membersAreFloatFree_iff.mp hfree member hmember⟩

/-- Values without floats are read back at any depth that they fit in. -/
theorem takes_readValue {depth : Nat} {value : Value} (hproper : value.ProperWithin depth)
    (hfree : value.isFloatFree = true) (hrest : EndsValue rest) :
    Takes (readValue depth) value.json value rest := by
  induction depth generalizing value rest with
  | zero => exact takes_readValueWith hproper hfree hrest fun _ h => nomatch h
  | succ depth ih =>
      refine takes_readValueWith hproper hfree hrest ?_
      rintro _ ⟨⟩
      refine ⟨readValue depth, rfl, fun parts hparts part hmem => ?_⟩
      obtain ⟨hproper, hfree⟩ := hparts part hmem
      exact ⟨startsValue_json hfree, fun _ hrest => ih hproper hfree hrest⟩

theorem takes_readEnd : Takes readEnd [] () [] := fun offset => ⟨offset, rfl⟩

/-- The text of a value of the data model without floating-point numbers stands for that value. -/
theorem read_json {value : Value} (hproper : value.ProperWithin greatestDepth)
    (hfree : value.isFloatFree = true) : read value.json = .ok value := by
  have hvalue := takes_readValue hproper hfree endsValue_nil
  exact run'_of_takes (hvalue.bind_of_rest takes_readEnd.bind_pure)

end Json

/-- An object that was read from some text, and holds no floating-point number, is read back from
what a template prints for it: the same members in the same order, at every depth. -/
theorem readDocument_toText {text : String} {members : List (String × Value)}
    (hread : readDocument text = .ok (.object members))
    (hfree : (Value.object members).isFloatFree = true) :
    readDocument (Value.object members).toText = .ok (.object members) := by
  have hjson := Json.read_json (properWithin_of_readDocument hread) hfree
  have htext : (Value.object members).toText.toList = (Value.object members).json :=
    String.toList_ofList
  rw [readDocument, htext, hjson]

/-- A text with white space, a key that is repeated, a surrogate pair and an escape that is printed
in another way. -/
theorem readDocument_toText_repeated_key :
    let text :=
      "\x7b\"b\":null, \"a\":\x7b\"\\u0001\":\"\\ud83d\\ude00\\\"\"\x7d,\n \"b\":[0,true]\x7d"
    let value := Value.object
      [("b", .array [.number (.int 0), .bool true]),
        ("a", .object [("\u0001", .string "😀\"")])]
    readDocument text = .ok value ∧ value.isFloatFree = true ∧
      readDocument value.toText = .ok value := by
  intro text value
  have hread : readDocument text = .ok value := by decide +kernel
  have hfree : value.isFloatFree = true := by rfl
  exact ⟨hread, hfree, readDocument_toText hread hfree⟩

end TextTemplate
