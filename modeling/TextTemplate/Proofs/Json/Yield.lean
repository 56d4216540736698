import TextTemplate.Json.Reader
import TextTemplate.Proofs.Json.Taking
import TextTemplate.Proofs.Value.Proper
import Mathlib.Tactic.Common
/-! # What reading yields

`Yields reader Q` says that every value that a reader makes has a property, whatever the text. The
reader of JSON texts yields values of the data model only, nested no deeper than is allowed.
-/

namespace TextTemplate.Json

variable {α β : Type}

/-- Every result of the reader has the property. -/
def Yields (reader : Reader α) (Q : α → Prop) : Prop :=
  ∀ input value next, reader input = .ok (value, next) → Q value

section Rules

variable {p : Reader α} {f : α → Reader β} {P : α → Prop} {Q : β → Prop}

theorem yields_any (reader : Reader α) : Yields reader fun _ => True := fun _ _ _ _ => trivial

theorem yields_pure {item : α} (h : P item) : Yields (pure item) P := by
  intro input value next hok
  cases hok
  exact h

theorem yields_failAhead (cause : Cause) : Yields (Reader.failAhead cause) P :=
  fun _ _ _ hok => nomatch hok

theorem yields_failHere (cause : Cause) : Yields (Reader.failHere cause) P :=
  fun _ _ _ hok => nomatch hok

theorem yields_failOnByte (cause : Cause) : Yields (Reader.failOnByte cause) P :=
  fun _ _ _ hok => nomatch hok

/-- The second reader may rely on what the first one yields. -/
theorem Yields.bind (hp : Yields p P) (hf : ∀ item, P item → Yields (f item) Q) :
    Yields (p >>= f) Q := by
  intro input value next hok
  have hbind : (p >>= f) input = (p input).bind fun pair => f pair.1 pair.2 := rfl
  rw [hbind] at hok
  cases hfirst : p input with
  | error fault => rw [hfirst] at hok; cases hok
  | ok pair =>
      rw [hfirst] at hok
      exact hf pair.1 (hp input pair.1 pair.2 hfirst) pair.2 value next hok

/-- What a reader yields may not depend on what was read before. -/
theorem Yields.behind (hf : ∀ item, Yields (f item) Q) : Yields (p >>= f) Q :=
  (yields_any p).bind fun item _ => hf item

end Rules

/-! ## Numbers -/

/-- What has been read of a significand never passes the limit. -/
theorem takeDigits_le {limit n : Nat} (h : n ≤ limit) (text : List Char) :
    (takeDigits limit n text).1 ≤ limit := by
  induction text generalizing n with
  | nil => exact h
  | cons c rest ih =>
      simp only [takeDigits]
      split
      next => exact h
      next digit _ =>
        split
        next => exact h
        next hfits => exact ih (Nat.not_lt.mp hfits)

theorem yields_ofParts (negative : Bool) (significand : Nat) (exponent : Int) :
    Yields (ofParts negative significand exponent) Number.Fits := by
  unfold ofParts
  split
  next => exact yields_pure trivial
  next => exact yields_failHere _

/-- With an exponent a number is a float, or it is refused as out of range. -/
theorem yields_readExponent (negative : Bool) (significand : Nat) (before : Int) :
    Yields (readExponent negative significand before) Number.Fits := by
  refine .behind fun _ => .behind fun sign? => ?_
  extract_lets down digits
  have hdigits : ∀ done, Yields (digits done) Number.Fits := by
    intro _
    refine .behind fun c? => ?_
    split
    next => exact yields_failHere _
    split
    next => exact yields_failOnByte _
    refine .behind fun input => .behind fun _ => ?_
    split
    next =>
      refine .behind fun _ => ?_
      split
      next => exact yields_failHere _
      next => exact .behind fun _ => yields_pure trivial
    next => exact yields_ofParts _ _ _
  split
  next => exact .behind hdigits
  next => exact hdigits ()

theorem yields_readScale (negative : Bool) (significand : Nat) (exponent : Int) :
    Yields (readScale negative significand exponent) Number.Fits := by
  refine .behind fun c? => ?_
  split
  next => exact yields_readExponent _ _ _
  next => exact yields_ofParts _ _ _

theorem yields_readFraction (negative : Bool) (significand : Nat) (before : Int) :
    Yields (readFraction negative significand before) Number.Fits := by
  refine .behind fun _ => .behind fun input => .behind fun _ => ?_
  split
  next => exact .behind fun _ => yields_readScale _ _ _
  split
  next => split <;> exact yields_failAhead _
  next => exact yields_readScale _ _ _

theorem yields_readLongInteger (negative : Bool) (significand : Nat) :
    Yields (readLongInteger negative significand) Number.Fits := by
  refine .behind fun input => .behind fun _ => .behind fun c? => ?_
  split
  next => exact yields_readFraction _ _ _
  next => exact yields_readScale _ _ _

/-- A significand within the limit gives an integer that fits, or a float if the sign takes it below
the signed 64 bits. -/
theorem ofWhole_fits {significand : Nat} (h : significand ≤ greatestSignificand)
    (negative : Bool) : (ofWhole negative significand).Fits := by
  have hgreatest : greatestSignificand = 18446744073709551615 := rfl
  have hhalf : Nat.pow 2 63 = 9223372036854775808 := rfl
  unfold ofWhole
  split
  next => exact ⟨by omega, by omega⟩
  split
  next => exact trivial
  split
  next => exact ⟨by omega, by omega⟩
  split <;> exact trivial

theorem yields_readTail {significand : Nat} (h : significand ≤ greatestSignificand)
    (negative : Bool) : Yields (readTail negative significand) Number.Fits := by
  refine .behind fun c? => ?_
  split
  next => exact yields_readFraction _ _ _
  split
  next => exact yields_readExponent _ _ _
  next => exact yields_pure (ofWhole_fits h negative)

/-- Every number that is read fits its representation. -/
theorem yields_readNumber (negative : Bool) : Yields (readNumber negative) Number.Fits := by
  refine .behind fun c? => ?_
  split
  next => exact yields_failHere _
  split
  next =>
    refine .behind fun _ => .behind fun input => ?_
    split
    next => exact yields_failAhead _
    next => exact yields_readTail (Nat.zero_le _) negative
  split
  next =>
    refine .behind fun input => .behind fun _ => ?_
    split
    next => exact yields_readLongInteger _ _
    next => exact yields_readTail (takeDigits_le (Nat.zero_le _) _) negative
  next => exact yields_failOnByte _

/-! ## Values -/

section Parts

variable {element : Reader α} {Q : α → Prop}

/-- What is read as one more item is what the reader for items yields. -/
theorem yields_readMoreItems (h : Yields element Q) (fuel : List Char) :
    Yields (readMoreItems element fuel) fun items => ∀ item ∈ items, Q item := by
  induction fuel with
  | nil => exact yields_failAhead _
  | cons _ fuel ih =>
      refine .behind fun goesOn => ?_
      split
      next =>
        exact h.bind fun item hitem => ih.bind fun rest hrest =>
          yields_pure (List.forall_mem_cons.mpr ⟨hitem, hrest⟩)
      next => exact yields_pure fun _ hmem => nomatch hmem

theorem yields_readItems (h : Yields element Q) :
    Yields (readItems element) fun items => ∀ item ∈ items, Q item := by
  refine .behind fun starts => ?_
  split
  next =>
    exact h.bind fun item hitem => .behind fun fuel =>
      (yields_readMoreItems h fuel).bind fun rest hrest =>
        yields_pure (List.forall_mem_cons.mpr ⟨hitem, hrest⟩)
  next => exact yields_pure fun _ hmem => nomatch hmem

end Parts

section Members

variable {element : Reader Value} {Q : Value → Prop}

theorem yields_readMember (h : Yields element Q) :
    Yields (readMember element) fun member => Q member.2 :=
  .behind fun _ => .behind fun _ => .behind fun _ => h.bind fun _ hvalue => yields_pure hvalue

theorem yields_readMembers (h : Yields element Q) (fuel : List Char) :
    Yields (readMembers element fuel) fun members => ∀ member ∈ members, Q member.2 := by
  induction fuel with
  | nil => exact yields_failAhead _
  | cons _ fuel ih =>
      refine (yields_readMember h).bind fun member hmember => .behind fun goesOn => ?_
      split
      next =>
        exact ih.bind fun rest hrest => yields_pure (List.forall_mem_cons.mpr ⟨hmember, hrest⟩)
      next => exact yields_pure (List.forall_mem_singleton.mpr hmember)

theorem yields_readEntries (h : Yields element Q) :
    Yields (readEntries element) fun members => ∀ member ∈ members, Q member.2 := by
  refine .behind fun starts => ?_
  split
  next => exact .behind fun fuel => yields_readMembers h fuel
  next => exact yields_pure fun _ hmem => nomatch hmem

/-- An object is read with distinct keys: a repeated key replaces the earlier value. -/
theorem yields_readObject (h : Yields element Q) :
    Yields (readObject element) fun members =>
      (Value.keys members).Nodup ∧ ∀ member ∈ members, Q member.2 :=
  (yields_readEntries h).bind fun entries hentries =>
    yields_pure ⟨Value.nodup_keys_ofEntries entries, Value.forall_mem_ofEntries hentries⟩

end Members

/-- A value is of the data model, one level deeper than its parts. -/
theorem yields_readValueWith {element? : Option (Reader Value)} {depth : Nat}
    (hparts : ∀ element ∈ element?, ∃ inner,
      depth = inner + 1 ∧ Yields element (Value.ProperWithin inner)) :
    Yields (readValueWith element?) (Value.ProperWithin depth) := by
  refine .behind fun c? => ?_
  split
  next => exact yields_failAhead _
  split
  next => exact .behind fun _ => .behind fun _ => yields_pure (Value.properWithin_null depth)
  split
  next => exact .behind fun _ => .behind fun _ => yields_pure (Value.properWithin_bool depth true)
  split
  next => exact .behind fun _ => .behind fun _ => yields_pure (Value.properWithin_bool depth false)
  split
  next =>
    exact .behind fun _ => (yields_readNumber true).bind fun n hn =>
      yields_pure (Value.properWithin_number.mpr hn)
  split
  next =>
    exact (yields_readNumber false).bind fun n hn => yields_pure (Value.properWithin_number.mpr hn)
  split
  next => exact .behind fun _ => .behind fun s => yields_pure (Value.properWithin_string depth s)
  split
  next =>
    split
    next => exact yields_failAhead _
    next element =>
      obtain ⟨inner, rfl, helement⟩ := hparts element rfl
      exact .behind fun _ => (yields_readItems helement).bind fun items hitems => yields_pure hitems
  split
  next =>
    split
    next => exact yields_failAhead _
    next element =>
      obtain ⟨inner, rfl, helement⟩ := hparts element rfl
      exact .behind fun _ => (yields_readObject helement).bind fun members hmembers =>
        yields_pure hmembers
  next => exact yields_failAhead _

/-- Values are read within the depth limit, with distinct keys in every object and numbers that
fit. -/
theorem yields_readValue (depth : Nat) : Yields (readValue depth) (Value.ProperWithin depth) := by
  induction depth with
  | zero => exact yields_readValueWith fun _ hnone => nomatch hnone
  | succ depth ih =>
      refine yields_readValueWith ?_
      rintro _ ⟨⟩
      exact ⟨depth, rfl, ih⟩

end TextTemplate.Json

namespace TextTemplate

/-- Documents hold values of the data model, no deeper than is allowed. -/
theorem properWithin_of_readDocument {text : String} {value : Value}
    (h : readDocument text = .ok value) : value.ProperWithin Json.greatestDepth := by
  unfold readDocument Json.read at h
  split at h
  next value' hread =>
    cases h
    have hyields : Json.Yields (do
        let value ← Json.readValue Json.greatestDepth
        Json.readEnd
        pure value) (Value.ProperWithin Json.greatestDepth) :=
      (Json.yields_readValue Json.greatestDepth).bind fun value hvalue =>
        .behind fun _ => Json.yields_pure hvalue
    obtain ⟨next, hnext⟩ := Json.run'_eq_ok.mp hread
    exact hyields _ value next hnext
  next => cases h

end TextTemplate
