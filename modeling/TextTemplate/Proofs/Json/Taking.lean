import TextTemplate.Json.Reader
import TextTemplate.Value.Print
import Mathlib.Data.List.Basic
/-! # Written texts are taken by their readers

`Takes reader text value rest` says that a reader takes a text, whatever its place, when it stands
in front of a certain rest. The rules below follow the way readers are put together; with them each
part of a JSON text is shown to be taken by the reader that is meant for it.
-/

namespace TextTemplate.Json

variable {ε α β : Type}

/-- Wherever `text` stands in front of `rest`, the reader takes it, makes `value` of it and leaves
the rest. -/
def Takes (reader : StateT Input (Except ε) α) (text : List Char) (value : α)
    (rest : List Char) : Prop :=
  ∀ offset, ∃ offset', reader ⟨text ++ rest, offset⟩ = .ok (value, ⟨rest, offset'⟩)

/-- Running a reader forgets the input that is left. -/
theorem run'_eq_ok {reader : StateT Input (Except ε) α} {input : Input} {value : α} :
    reader.run' input = .ok value ↔ ∃ next, reader input = .ok (value, next) := by
  have hrun : reader.run' input = (reader input).map Prod.fst := rfl
  rw [hrun]
  cases reader input <;> simp [Except.map, Prod.ext_iff]

/-- A whole text is read as what the reader makes of it in front of nothing. -/
theorem run'_of_takes {reader : StateT Input (Except ε) α} {text : List Char} {value : α}
    (h : Takes reader text value []) : reader.run' (Input.ofText text) = .ok value := by
  obtain ⟨offset, hread⟩ := h 0
  rw [List.append_nil] at hread
  exact run'_eq_ok.mpr ⟨_, hread⟩

section Rules

variable {p : StateT Input (Except ε) α} {f : α → StateT Input (Except ε) β}
variable {g : Option Char → Reader β} {text rest : List Char} {value : β}

theorem takes_pure (item : α) : Takes (pure item : StateT Input (Except ε) α) [] item rest :=
  fun offset => ⟨offset, rfl⟩

/-- What the second reader takes stands behind what the first one takes. -/
theorem Takes.bind {front back : List Char} {item : α} (hp : Takes p front item (back ++ rest))
    (hf : Takes (f item) back value rest) : Takes (p >>= f) (front ++ back) value rest := by
  intro offset
  obtain ⟨middle, hfirst⟩ := hp offset
  obtain ⟨offset', hsecond⟩ := hf middle
  refine ⟨offset', ?_⟩
  have hbind : (p >>= f) ⟨front ++ back ++ rest, offset⟩ =
      (p ⟨front ++ (back ++ rest), offset⟩).bind fun pair => f pair.1 pair.2 := by
    rw [List.append_assoc]
    rfl
  rw [hbind, hfirst]
  exact hsecond

/-- A second reader may take nothing. -/
theorem Takes.bind_of_rest {item : α} (hp : Takes p text item rest)
    (hf : Takes (f item) [] value rest) : Takes (p >>= f) text value rest := by
  rw [← List.append_nil text]
  exact hp.bind hf

theorem Takes.bind_pure {item : α} {h : α → β} (hp : Takes p text item rest) :
    Takes (do let item ← p; pure (h item)) text (h item) rest := by
  exact Takes.bind_of_rest (f := fun item => pure (h item)) hp (takes_pure (h item))

/-- A reader that takes nothing can be left out. -/
theorem Takes.bind_of_empty {item : α} (hp : Takes p [] item (text ++ rest))
    (hf : Takes (f item) text value rest) : Takes (p >>= f) text value rest :=
  hp.bind hf

theorem takes_peek? : Takes Reader.peek? [] rest.head? rest := fun offset => ⟨offset, rfl⟩

theorem takes_unread : Takes Reader.unread [] rest rest := fun offset => ⟨offset, rfl⟩

theorem takes_skip (c : Char) : Takes Reader.skip [c] () rest := fun _ => ⟨_, rfl⟩

/-- White space of JSON. -/
def isBlank (c : Char) : Bool := c = ' ' || c = '\n' || c = '\t' || c = '\r'

/-- Where no blank stands there is nothing to skip. -/
theorem skipBlank_of_head (hhead : ∀ c ∈ rest.head?, isBlank c = false) (offset : Nat) :
    Input.skipBlank rest offset = ⟨rest, offset⟩ := by
  cases rest with
  | nil => rfl
  | cons c rest =>
      have hc := hhead c rfl
      simp only [isBlank, Bool.or_eq_false_iff, decide_eq_false_iff_not] at hc
      simp [Input.skipBlank, hc]

/-- Looking past blanks takes nothing where no blank stands. -/
theorem takes_peekPastBlank? (hhead : ∀ c ∈ rest.head?, isBlank c = false) :
    Takes Reader.peekPastBlank? [] rest.head? rest := by
  intro offset
  exact ⟨offset, by simp [Reader.peekPastBlank?, skipBlank_of_head hhead]⟩

/-- A reader that looks at the next character, which is no white space. -/
theorem takes_peekPastBlank?_bind {c : Char} (hc : isBlank c = false)
    (h : Takes (g (some c)) (c :: text) value rest) :
    Takes (Reader.peekPastBlank? >>= g) (c :: text) value rest := by
  refine Takes.bind_of_empty (takes_peekPastBlank? ?_) h
  rintro c' ⟨⟩
  exact hc

/-- A reader that looks at the next character goes on at that character. -/
theorem takes_peek?_bind {c : Char} (h : Takes (g (some c)) (c :: text) value rest) :
    Takes (Reader.peek? >>= g) (c :: text) value rest :=
  Takes.bind_of_empty takes_peek? h

theorem takes_skip_bind {c : Char} {k : Unit → Reader β} (h : Takes (k ()) text value rest) :
    Takes (Reader.skip >>= k) (c :: text) value rest :=
  (takes_skip c).bind h

theorem takes_unread_bind {k : List Char → Reader β}
    (h : Takes (k (text ++ rest)) text value rest) :
    Takes (Reader.unread >>= k) text value rest :=
  Takes.bind_of_empty takes_unread h

/-- A reader that looks at its input finds the text in front of the rest. -/
theorem takes_get_bind {k : Input → Reader β}
    (h : ∀ offset, Takes (k ⟨text ++ rest, offset⟩) text value rest) :
    Takes (get >>= k) text value rest :=
  fun offset => h offset offset

theorem takes_set (offset : Nat) :
    Takes (set (Input.mk rest offset) : Reader PUnit) text () rest :=
  fun _ => ⟨offset, rfl⟩

end Rules

/-! ## Words -/

/-- A word is taken letter by letter. -/
theorem takes_readWord (word rest : List Char) : Takes (readWord word) word () rest := by
  induction word with
  | nil => exact takes_pure ()
  | cons letter word ih =>
      refine takes_peek?_bind ?_
      simp only [↓reduceIte]
      exact takes_skip_bind ih

/-! ## Strings -/

theorem hexValue?_hexDigit {n : Nat} (h : n < 16) : hexValue? (Value.hexDigit n) = some n := by
  revert n
  decide

theorem utf8Size_hexDigit {n : Nat} (h : n < 16) : (Value.hexDigit n).utf8Size = 1 := by
  revert n
  decide

/-- Four hexadecimal digits that start with two zeros are read as the byte that the last two
write. -/
theorem takes_readHex {high low : Nat} (hhigh : high < 16) (hlow : low < 16) (rest : List Char) :
    Takes readHex ['0', '0', Value.hexDigit high, Value.hexDigit low] (16 * high + low) rest := by
  intro offset
  have hzero : hexValue? '0' = some 0 := by decide
  have hsize : ('0' : Char).utf8Size = 1 := by decide
  refine ⟨offset + 4, ?_⟩
  simp [readHex, Position.byteLength, hexNumber?, hexValue?_hexDigit, utf8Size_hexDigit, hhigh,
    hlow, hzero, hsize]

/-- Characters below the space are written by number. -/
theorem takes_readUnicode {c : Char} (hc : c.toNat < 32) (rest : List Char) :
    Takes readUnicode
      ['0', '0', Value.hexDigit (c.toNat / 16), Value.hexDigit (c.toNat % 16)] c rest := by
  have hnumber : 16 * (c.toNat / 16) + c.toNat % 16 = c.toNat := Nat.div_add_mod c.toNat 16
  have hhigh : c.toNat / 16 < 16 := by omega
  have hlow : c.toNat % 16 < 16 := by omega
  have hhex := takes_readHex hhigh hlow rest
  rw [hnumber] at hhex
  refine hhex.bind_of_rest ?_
  have hnotLow : ¬ (0xDC00 ≤ c.toNat ∧ c.toNat ≤ 0xDFFF) := by omega
  have hnotHigh : ¬ (0xD800 ≤ c.toNat ∧ c.toNat ≤ 0xDBFF) := by omega
  simp only [hnotLow, hnotHigh, ↓reduceIte, Char.ofNat_toNat]
  exact takes_pure c

/-- A character of a text is written as it is, or as a backslash and an escape that stands for
it. -/
theorem escapeChar_cases (c : Char) :
    (Value.escapeChar c = [c] ∧ c ≠ '"' ∧ c ≠ '\\' ∧ ¬ c.toNat < 32) ∨
      ∃ escape, Value.escapeChar c = '\\' :: escape ∧ ∀ rest, Takes readEscape escape c rest := by
  have hofNat : ∀ n, c.toNat = n → c = Char.ofNat n := by
    rintro n rfl
    exact (Char.ofNat_toNat c).symm
  -- the letter of an escape that stands for one character
  have hletter : ∀ (letter meant : Char), c = meant →
      (∀ rest, Takes readEscape [letter] meant rest) →
      ∃ escape, ['\\', letter] = '\\' :: escape ∧ ∀ rest, Takes readEscape escape c rest := by
    rintro letter meant rfl htakes
    exact ⟨[letter], rfl, htakes⟩
  unfold Value.escapeChar
  split
  next h => exact .inr (hletter '"' '"' h fun _ _ => ⟨_, rfl⟩)
  split
  next h => exact .inr (hletter '\\' '\\' h fun _ _ => ⟨_, rfl⟩)
  split
  next h => exact .inr (hletter 'b' _ (hofNat 8 h) fun _ _ => ⟨_, rfl⟩)
  split
  next h => exact .inr (hletter 't' _ (hofNat 9 h) fun _ _ => ⟨_, rfl⟩)
  split
  next h => exact .inr (hletter 'n' _ (hofNat 10 h) fun _ _ => ⟨_, rfl⟩)
  split
  next h => exact .inr (hletter 'f' _ (hofNat 12 h) fun _ _ => ⟨_, rfl⟩)
  split
  next h => exact .inr (hletter 'r' _ (hofNat 13 h) fun _ _ => ⟨_, rfl⟩)
  split
  next h =>
    refine .inr ⟨_, rfl, fun rest => ?_⟩
    refine takes_peek?_bind ?_
    simp only [Char.reduceEq, ↓reduceIte, or_self]
    exact takes_skip_bind (takes_readUnicode h rest)
  next hquote hbackslash _ _ _ _ _ hlow => exact .inl ⟨rfl, hquote, hbackslash, hlow⟩

/-- The characters of a text are read back from the way they are written. Each takes a round, so the
fuel has to be longer than the text. -/
theorem takes_readChars {chars fuel : List Char} (hfuel : chars.length < fuel.length)
    (rest : List Char) :
    Takes (readChars fuel) (chars.flatMap Value.escapeChar ++ ['"']) chars rest := by
  induction chars generalizing fuel with
  | nil =>
      obtain ⟨_, fuel, rfl⟩ := List.exists_cons_of_length_pos hfuel
      refine takes_peek?_bind ?_
      simp only [↓reduceIte]
      exact takes_skip_bind (takes_pure [])
  | cons c chars ih =>
      obtain ⟨_, fuel, rfl⟩ := List.exists_cons_of_length_pos (Nat.zero_lt_of_lt hfuel)
      have hshorter : chars.length < fuel.length := by simpa using hfuel
      have hmore := ih hshorter
      rw [List.flatMap_cons]
      rcases escapeChar_cases c with
        ⟨hplain, hquote, hbackslash, hcontrol⟩ | ⟨escape, hescape, htakes⟩
      · rw [hplain]
        refine takes_peek?_bind ?_
        simp only [hquote, hbackslash, hcontrol, ↓reduceIte]
        exact takes_skip_bind hmore.bind_pure
      · simp only [hescape, List.cons_append, List.append_assoc]
        refine takes_peek?_bind ?_
        simp only [Char.reduceEq, ↓reduceIte]
        exact takes_skip_bind ((htakes _).bind hmore.bind_pure)

/-- A text is read back from its quotes, behind the first of them. -/
theorem takes_readString (s : String) (rest : List Char) :
    Takes readString (s.toList.flatMap Value.escapeChar ++ ['"']) s rest := by
  have hlength : s.toList.length ≤ (s.toList.flatMap Value.escapeChar).length := by
    induction s.toList with
    | nil => simp
    | cons c chars ih =>
        have hpos : 0 < (Value.escapeChar c).length := by
          rcases escapeChar_cases c with ⟨hplain, -⟩ | ⟨escape, hescape, -⟩
          · simp [hplain]
          · simp [hescape]
        simp only [List.flatMap_cons, List.length_append, List.length_cons]
        omega
  refine takes_unread_bind ?_
  have hfuel : s.toList.length < (s.toList.flatMap Value.escapeChar ++ ['"'] ++ rest).length := by
    simp only [List.length_append, List.length_singleton]
    omega
  have hstring := (takes_readChars hfuel rest).bind_pure (h := String.ofList)
  rwa [String.ofList_toList] at hstring

end TextTemplate.Json
