import TextTemplate.Json.Reader
import TextTemplate.Proofs.Token.Span
/-! # Readers stay within their text

`Confined reader` says that a reader never counts more bytes as read than there are, whether it
succeeds or fails. Some faults are found on a byte that comes next; such a reader is confined only
in front of a character. Main statement: the index of a fault lies within the text.
-/

namespace TextTemplate.Json

open Position

variable {α β : Type}

/-- The number of bytes of a text of which the input is what is left. -/
def Input.stop (input : Input) : Nat := input.offset + byteLength input.rest

/-- Reading ends no later than at a byte offset: what is left ends there, or the fault is found up
to there. -/
def EndsBy (stop : Nat) : Except Fault (α × Input) → Prop
  | .ok (_, next) => next.stop ≤ stop
  | .error fault => fault.index ≤ stop

/-- The reader ends within its text, wherever it starts. -/
def Confined (reader : Reader α) : Prop := ∀ input, EndsBy input.stop (reader input)

/-- The reader ends within its text wherever a certain character comes next. -/
def ConfinedAt (c : Char) (reader : Reader α) : Prop :=
  ∀ input, input.rest.head? = some c → EndsBy input.stop (reader input)

theorem EndsBy.mono {stop stop' : Nat} {result : Except Fault (α × Input)}
    (h : EndsBy stop result) (hle : stop ≤ stop') : EndsBy stop' result := by
  cases result <;> exact Nat.le_trans h hle

/-! ## Rules -/

section Rules

variable {p : Reader α} {f : α → Reader β} {c : Char}

theorem Confined.at (h : Confined p) : ConfinedAt c p := fun input _ => h input

theorem confined_pure (item : α) : Confined (pure item) := fun _ => Nat.le_refl _

theorem confined_failHere (cause : Cause) : Confined (Reader.failHere cause : Reader α) :=
  fun _ => Nat.le_add_right _ _

theorem offset_lt_stop {input : Input} (h : input.rest ≠ []) : input.offset < input.stop :=
  Nat.lt_add_of_pos_right (byteLength_pos h)

/-- A fault one byte ahead is found within the text: at its end there is no byte to point at, and
the fault stays where the text ends. -/
theorem confined_failAhead (cause : Cause) : Confined (Reader.failAhead cause : Reader α) := by
  intro input
  change (if input.rest.isEmpty then input.offset else input.offset + 1) ≤ input.stop
  split
  next => exact Nat.le_add_right _ _
  next h => exact offset_lt_stop fun hnil => h (by simp [hnil])

/-- A fault on the byte of a character that is there lies within the text. -/
theorem confinedAt_failOnByte (cause : Cause) :
    ConfinedAt c (Reader.failOnByte cause : Reader α) := by
  intro input hhead
  exact offset_lt_stop fun hnil => by simp [hnil] at hhead

/-- What two readers do one after the other stays within the text if each of them does. -/
theorem Confined.bind (hp : Confined p) (hf : ∀ item, Confined (f item)) : Confined (p >>= f) := by
  intro input
  have hfirst := hp input
  have hbind : (p >>= f) input = (p input).bind fun pair => f pair.1 pair.2 := rfl
  rw [hbind]
  cases hresult : p input with
  | error fault =>
      rw [hresult] at hfirst
      exact hfirst
  | ok pair =>
      rw [hresult] at hfirst
      exact (hf pair.1 pair.2).mono hfirst

theorem confined_peek? : Confined Reader.peek? := fun _ => Nat.le_refl _

theorem confined_unread : Confined Reader.unread := fun _ => Nat.le_refl _

theorem confined_get : Confined (get : Reader Input) := fun _ => Nat.le_refl _

theorem confined_get_bind {k : Input → Reader β} (h : ∀ input, EndsBy input.stop (k input input)) :
    Confined (get >>= k) := h

/-- A reader goes on from an input that ends within the text. -/
theorem Confined.set_bind {input next : Input} (h : Confined p) (hle : next.stop ≤ input.stop) :
    EndsBy input.stop ((do set next; p : Reader α) input) :=
  (h next).mono hle

theorem confined_modify {step : Input → Input} (h : ∀ input, (step input).stop ≤ input.stop) :
    Confined (modify step : Reader Unit) := h

/-- A step over a character takes as many bytes from the rest as it adds to the offset. -/
theorem stop_next_le (input : Input) : input.next.stop ≤ input.stop := by
  rw [Input.next]
  split
  next => exact Nat.le_refl _
  next c rest h =>
    rw [Input.stop, Input.stop, h, byteLength]
    exact Nat.le_of_eq (Nat.add_assoc _ _ _)

theorem confined_skip : Confined Reader.skip := stop_next_le

/-- Skipping blanks moves on in the text and no further than to its end. -/
theorem stop_skipBlank_le (rest : List Char) (offset : Nat) :
    (Input.skipBlank rest offset).stop ≤ offset + byteLength rest := by
  induction rest generalizing offset with
  | nil => exact Nat.le_refl _
  | cons c rest ih =>
      have hsize := Char.utf8Size_pos c
      rw [Input.skipBlank, byteLength]
      split
      next => exact Nat.le_trans (ih (offset + 1)) (by omega)
      next => exact Nat.le_refl _

theorem stop_skipDigits_le (rest : List Char) (offset : Nat) :
    (Input.skipDigits rest offset).stop ≤ offset + byteLength rest := by
  induction rest generalizing offset with
  | nil => exact Nat.le_refl _
  | cons c rest ih =>
      have hsize := Char.utf8Size_pos c
      rw [Input.skipDigits, byteLength]
      split
      next => exact Nat.le_trans (ih (offset + 1)) (by omega)
      next => exact Nat.le_refl _

/-- Behind a look at the next character the reader may rely on it. -/
theorem confined_peek?_bind {whenNone : Reader β} {whenSome : Char → Reader β}
    (hnone : Confined whenNone) (hsome : ∀ c, ConfinedAt c (whenSome c)) :
    Confined (do
      match ← Reader.peek? with
      | none => whenNone
      | some c => whenSome c) := by
  intro input
  cases input with
  | mk rest offset =>
      cases rest with
      | nil => exact hnone ⟨[], offset⟩
      | cons c rest => exact hsome c ⟨c :: rest, offset⟩ rfl

/-- A reader that looks past the blanks goes on at the character that it saw. -/
theorem confined_peekPastBlank?_bind {whenNone : Reader β} {whenSome : Char → Reader β}
    (hnone : Confined whenNone) (hsome : ∀ c, ConfinedAt c (whenSome c)) :
    Confined (do
      match ← Reader.peekPastBlank? with
      | none => whenNone
      | some c => whenSome c) := by
  intro input
  have hle := stop_skipBlank_le input.rest input.offset
  have hpeeked := confined_peek?_bind hnone hsome (Input.skipBlank input.rest input.offset)
  exact hpeeked.mono hle

theorem confined_ite {P : Prop} [Decidable P] {q r : Reader α} (hq : Confined q)
    (hr : Confined r) : Confined (if P then q else r) := by
  split
  · exact hq
  · exact hr

end Rules

/-! ## Numbers -/

/-- The digits that were taken and what is left behind them do not reach beyond the text. -/
theorem stop_le_of_takeDigits {limit n offset total count : Nat} {text after : List Char}
    (h : takeDigits limit n text = (total, count, after)) :
    (Input.mk after (offset + count)).stop ≤ offset + byteLength text := by
  induction text generalizing n offset count with
  | nil =>
      cases h
      exact Nat.le_refl _
  | cons c rest ih =>
      have hsize := Char.utf8Size_pos c
      rw [takeDigits] at h
      split at h
      next =>
        cases h
        exact Nat.le_refl _
      next digit _ =>
        split at h
        next =>
          cases h
          exact Nat.le_refl _
        next =>
          rcases htaken : takeDigits limit (n * 10 + digit) rest with ⟨total', count', after'⟩
          rw [htaken] at h
          cases h
          have hrest : (Input.mk after (offset + 1 + count')).stop ≤ _ := ih htaken
          simp only [Input.stop, byteLength] at hrest ⊢
          omega

theorem confined_skipDigits :
    Confined (modify fun input => Input.skipDigits input.rest input.offset) :=
  confined_modify fun input => stop_skipDigits_le input.rest input.offset

theorem confined_ofParts (negative : Bool) (significand : Nat) (exponent : Int) :
    Confined (ofParts negative significand exponent) := by
  unfold ofParts
  split
  next => exact confined_pure _
  next => exact confined_failHere _

/-- An exponent is read within the text, also where it is so large that its digits are skipped. -/
theorem confined_readExponent (negative : Bool) (significand : Nat) (before : Int) :
    Confined (readExponent negative significand before) := by
  refine confined_skip.bind fun _ => confined_peek?.bind fun sign? => ?_
  extract_lets down digits
  have hdigits : ∀ done, Confined (digits done) := by
    intro _
    refine confined_peek?_bind (confined_failHere _) fun c => ?_
    split
    next => exact confinedAt_failOnByte _
    next =>
      refine Confined.at (confined_get_bind fun input => ?_)
      rcases htaken : takeDigits greatestWrittenExponent 0 input.rest with ⟨written, count, after⟩
      refine Confined.set_bind ?_ (stop_le_of_takeDigits htaken)
      refine confined_ite (confined_skip.bind fun _ => ?_) (confined_ofParts _ _ _)
      exact confined_ite (confined_failHere _)
        (confined_skipDigits.bind fun _ => confined_pure _)
  exact confined_ite (confined_skip.bind hdigits) (hdigits ())

theorem confined_readScale (negative : Bool) (significand : Nat) (exponent : Int) :
    Confined (readScale negative significand exponent) :=
  confined_peek?.bind fun _ =>
    confined_ite (confined_readExponent _ _ _) (confined_ofParts _ _ _)

theorem confined_readFraction (negative : Bool) (significand : Nat) (before : Int) :
    Confined (readFraction negative significand before) := by
  refine confined_skip.bind fun _ => confined_get_bind fun input => ?_
  rcases htaken : takeDigits greatestSignificand significand input.rest with ⟨digits, count, after⟩
  refine Confined.set_bind ?_ (stop_le_of_takeDigits htaken)
  refine confined_ite (confined_skipDigits.bind fun _ => confined_readScale _ _ _) ?_
  exact confined_ite (confined_ite (confined_failAhead _) (confined_failAhead _))
    (confined_readScale _ _ _)

theorem confined_readLongInteger (negative : Bool) (significand : Nat) :
    Confined (readLongInteger negative significand) := by
  refine confined_get_bind fun input => ?_
  refine Confined.set_bind ?_ (stop_skipDigits_le input.rest input.offset)
  exact confined_peek?.bind fun _ =>
    confined_ite (confined_readFraction _ _ _) (confined_readScale _ _ _)

theorem confined_readTail (negative : Bool) (significand : Nat) :
    Confined (readTail negative significand) :=
  confined_peek?.bind fun _ =>
    confined_ite (confined_readFraction _ _ _)
      (confined_ite (confined_readExponent _ _ _) (confined_pure _))

/-- Numbers are read within the text. -/
theorem confined_readNumber (negative : Bool) : Confined (readNumber negative) := by
  refine confined_peek?_bind (confined_failHere _) fun c => ?_
  split
  next =>
    exact Confined.at (confined_skip.bind fun _ => confined_get.bind fun _ =>
      confined_ite (confined_failAhead _) (confined_readTail _ _))
  split
  next =>
    refine Confined.at (confined_get_bind fun input => ?_)
    rcases htaken : takeDigits greatestSignificand 0 input.rest with ⟨significand, count, after⟩
    refine Confined.set_bind ?_ (stop_le_of_takeDigits htaken)
    exact confined_ite (confined_readLongInteger _ _) (confined_readTail _ _)
  next => exact confinedAt_failOnByte _

/-! ## Texts and words -/

/-- Four bytes are read, or all that are left. -/
theorem confined_readHex : Confined readHex := by
  intro input
  have hsplit : byteLength input.rest =
      byteLength (input.rest.take 4) + byteLength (input.rest.drop 4) := by
    rw [← byteLength_append, List.take_append_drop]
  have hstop : input.stop = input.offset + byteLength input.rest := rfl
  unfold readHex
  extract_lets left
  split
  next => exact (by omega : input.offset + left ≤ input.stop)
  next =>
    split
    next =>
      have hle : input.offset + 4 + byteLength (input.rest.drop 4) ≤ input.stop := by omega
      exact hle
    next => exact (by omega : input.offset + 4 ≤ input.stop)

theorem confined_readBetweenSurrogates (expected : Char) :
    Confined (readBetweenSurrogates expected) := by
  refine confined_peek?_bind (confined_failHere _) fun c => ?_
  split
  next => exact confined_skip.at
  next => exact confinedAt_failOnByte _

theorem confined_readUnicode : Confined readUnicode := by
  refine confined_readHex.bind fun high => ?_
  refine confined_ite (confined_failHere _) (confined_ite ?_ (confined_pure _))
  refine (confined_readBetweenSurrogates _).bind fun _ => ?_
  refine (confined_readBetweenSurrogates _).bind fun _ => confined_readHex.bind fun low => ?_
  exact confined_ite (confined_pure _) (confined_failHere _)

theorem confined_skip_pure (item : α) : Confined (do Reader.skip; pure item) :=
  confined_skip.bind fun _ => confined_pure item

/-- Escapes are read within the text, the second half of a surrogate pair included. -/
theorem confined_readEscape : Confined readEscape := by
  refine confined_peek?_bind (confined_failHere _) fun c => ?_
  split
  next => exact (confined_skip_pure _).at
  split
  next => exact (confined_skip_pure _).at
  split
  next => exact (confined_skip_pure _).at
  split
  next => exact (confined_skip_pure _).at
  split
  next => exact (confined_skip_pure _).at
  split
  next => exact (confined_skip_pure _).at
  split
  next => exact (confined_skip.bind fun _ => confined_readUnicode).at
  next => exact confinedAt_failOnByte _

/-- The characters of a string are read within the text, up to the quote that ends it or to the
fault. -/
theorem confined_readChars (fuel : List Char) : Confined (readChars fuel) := by
  induction fuel with
  | nil => exact confined_failHere _
  | cons _ fuel ih =>
      refine confined_peek?_bind (confined_failHere _) fun c => ?_
      split
      next => exact (confined_skip_pure _).at
      split
      next =>
        exact (confined_skip.bind fun _ => confined_readEscape.bind fun _ => ih.bind fun _ =>
          confined_pure _).at
      split
      next => exact confinedAt_failOnByte _
      next => exact (confined_skip.bind fun _ => ih.bind fun _ => confined_pure _).at

theorem confined_readString : Confined readString :=
  confined_unread.bind fun fuel => (confined_readChars fuel).bind fun _ => confined_pure _

theorem confined_readWord (word : List Char) : Confined (readWord word) := by
  induction word with
  | nil => exact confined_pure _
  | cons letter word ih =>
      refine confined_peek?_bind (confined_failHere _) fun c => ?_
      split
      next => exact (confined_skip.bind fun _ => ih).at
      next => exact confinedAt_failOnByte _

/-! ## Arrays and objects -/

theorem confined_startsList : Confined startsList := by
  refine confined_peekPastBlank?_bind (confined_failAhead _) fun c => Confined.at ?_
  exact confined_ite (confined_skip_pure _) (confined_pure _)

theorem confined_continuesList : Confined continuesList := by
  refine confined_peekPastBlank?_bind (confined_failAhead _) fun c => Confined.at ?_
  refine confined_ite (confined_skip_pure _) (confined_ite ?_ (confined_failAhead _))
  refine confined_skip.bind fun _ =>
    confined_peekPastBlank?_bind (confined_failAhead _) fun c => Confined.at ?_
  exact confined_ite (confined_failAhead _) (confined_pure _)

theorem confined_startsObject : Confined startsObject := by
  refine confined_peekPastBlank?_bind (confined_failAhead _) fun c => Confined.at ?_
  exact confined_ite (confined_pure _) (confined_ite (confined_skip_pure _) (confined_failAhead _))

theorem confined_continuesObject : Confined continuesObject := by
  refine confined_peekPastBlank?_bind (confined_failAhead _) fun c => Confined.at ?_
  refine confined_ite (confined_skip_pure _) (confined_ite ?_ (confined_failAhead _))
  refine confined_skip.bind fun _ =>
    confined_peekPastBlank?_bind (confined_failAhead _) fun c => Confined.at ?_
  exact confined_ite (confined_pure _) (confined_ite (confined_failAhead _) (confined_failAhead _))

theorem confined_readColon : Confined readColon := by
  refine confined_peekPastBlank?_bind (confined_failAhead _) fun c => Confined.at ?_
  exact confined_ite confined_skip (confined_failAhead _)

section Parts

variable {element : Reader α}

theorem confined_readMoreItems (h : Confined element) (fuel : List Char) :
    Confined (readMoreItems element fuel) := by
  induction fuel with
  | nil => exact confined_failAhead _
  | cons _ fuel ih =>
      refine confined_continuesList.bind fun _ => confined_ite ?_ (confined_pure _)
      exact h.bind fun _ => ih.bind fun _ => confined_pure _

theorem confined_readItems (h : Confined element) : Confined (readItems element) := by
  refine confined_startsList.bind fun _ => confined_ite ?_ (confined_pure _)
  exact h.bind fun _ => confined_unread.bind fun fuel =>
    (confined_readMoreItems h fuel).bind fun _ => confined_pure _

end Parts

section Members

variable {element : Reader Value}

theorem confined_readMember (h : Confined element) : Confined (readMember element) :=
  confined_skip.bind fun _ => confined_readString.bind fun _ => confined_readColon.bind fun _ =>
    h.bind fun _ => confined_pure _

theorem confined_readMembers (h : Confined element) (fuel : List Char) :
    Confined (readMembers element fuel) := by
  induction fuel with
  | nil => exact confined_failAhead _
  | cons _ fuel ih =>
      refine (confined_readMember h).bind fun _ => confined_continuesObject.bind fun _ => ?_
      exact confined_ite (ih.bind fun _ => confined_pure _) (confined_pure _)

theorem confined_readObject (h : Confined element) : Confined (readObject element) := by
  refine Confined.bind ?_ fun _ => confined_pure _
  refine confined_startsObject.bind fun _ => confined_ite ?_ (confined_pure _)
  exact confined_unread.bind fun fuel => confined_readMembers h fuel

end Members

/-! ## Values -/

/-- Values are read within the text if the elements of lists and objects are. -/
theorem confined_readValueWith {element? : Option (Reader Value)}
    (h : ∀ element ∈ element?, Confined element) : Confined (readValueWith element?) := by
  refine confined_peekPastBlank?_bind (confined_failAhead _) fun c => Confined.at ?_
  have hword : ∀ word (value : Value), Confined (do Reader.skip; readWord word; pure value) :=
    fun word _ => confined_skip.bind fun _ => (confined_readWord word).bind fun _ =>
      confined_pure _
  split
  next => exact hword _ _
  split
  next => exact hword _ _
  split
  next => exact hword _ _
  split
  next =>
    exact confined_skip.bind fun _ => (confined_readNumber true).bind fun _ => confined_pure _
  split
  next => exact (confined_readNumber false).bind fun _ => confined_pure _
  split
  next => exact confined_skip.bind fun _ => confined_readString.bind fun _ => confined_pure _
  split
  next =>
    split
    next => exact confined_failAhead _
    next element =>
      exact confined_skip.bind fun _ => (confined_readItems (h element rfl)).bind fun _ =>
        confined_pure _
  split
  next =>
    split
    next => exact confined_failAhead _
    next element =>
      exact confined_skip.bind fun _ => (confined_readObject (h element rfl)).bind fun _ =>
        confined_pure _
  next => exact confined_failAhead _

/-- Within every depth limit, values are read within the text. -/
theorem confined_readValue (depth : Nat) : Confined (readValue depth) := by
  induction depth with
  | zero => exact confined_readValueWith fun _ hnone => nomatch hnone
  | succ depth ih =>
      refine confined_readValueWith ?_
      rintro _ ⟨⟩
      exact ih

theorem confined_readEnd : Confined readEnd :=
  confined_peekPastBlank?_bind (confined_pure _) fun _ => (confined_failAhead _).at

/-- A whole text is read up to its end at most. -/
theorem Confined.index_le {reader : Reader α} (h : Confined reader) {text : List Char}
    {fault : Fault} (hrun : reader.run' (Input.ofText text) = .error fault) :
    fault.index ≤ byteLength text := by
  have hends := h (Input.ofText text)
  have hstop : (Input.ofText text).stop = byteLength text := Nat.zero_add _
  have hmap : reader.run' (Input.ofText text) = (reader (Input.ofText text)).map Prod.fst := rfl
  rw [hmap] at hrun
  cases hresult : reader (Input.ofText text) with
  | error found =>
      rw [hresult] at hends hrun
      cases hrun
      rw [← hstop]
      exact hends
  | ok pair =>
      rw [hresult] at hrun
      cases hrun

/-- The index of a fault lies within the text. -/
theorem index_le_of_read {text : List Char} {fault : Fault} (h : read text = .error fault) :
    fault.index ≤ byteLength text :=
  ((confined_readValue greatestDepth).bind fun _ => confined_readEnd.bind fun _ =>
    confined_pure _).index_le h

end TextTemplate.Json
