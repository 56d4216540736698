import TextTemplate.Outcome.Read
import TextTemplate.Proofs.Json.RoundTrip
/-! # Outcomes are read back from their JSON text

The text in which an outcome is handed over is taken apart by the decoder of outcomes: first the
field that tells a success from a failure, then the other fields, which are kept as values and
judged at the end. Main statement: what is read from the text of an outcome is that outcome.
-/

namespace TextTemplate

namespace Json

variable {α σ : Type} {rest : List Char}

/-- A decoder that reads as the reader does takes what the reader takes. -/
theorem Takes.lift {reader : Reader α} {text : List Char} {value : α}
    (h : Takes reader text value rest) : Takes (Decoder.ofReader reader) text value rest := by
  intro offset
  obtain ⟨offset', hread⟩ := h offset
  exact ⟨offset', by rw [Decoder.ofReader, hread]⟩

namespace Decoder

/-- The members of an object are added to a state one after the other: a decoder for its value
belongs to each key, and takes the text of that value. -/
inductive Adds (field : σ → String → Except Mismatch (Decoder σ)) :
    σ → List (String × Value) → σ → Prop
  | nil (state : σ) : Adds field state [] state
  | cons {before middle after : σ} {key : String} {value : Value}
      {members : List (String × Value)} {decoder : Decoder σ}
      (accepted : field before key = .ok decoder)
      (takes : ∀ rest, EndsValue rest → Takes decoder value.json middle rest)
      (more : Adds field middle members after) : Adds field before ((key, value) :: members) after

variable {field : σ → String → Except Mismatch (Decoder σ)}

/-- A member is taken and added, and what comes behind it is left to the rest of the reading. -/
theorem takes_fields_member {before middle after : σ} {key : String} {value : Value}
    {decoder : Decoder σ} {fuel text : List Char} {c : Char}
    (accepted : field before key = .ok decoder)
    (takes : Takes decoder value.json middle (text ++ rest))
    (more :
      Takes (do if ← continuesObject then fields field fuel middle else pure middle : Decoder σ)
        text after rest) :
    Takes (fields field (c :: fuel) before)
      ('"' :: (key.toList.flatMap Value.escapeChar ++ ['"'] ++ ([':'] ++ (value.json ++ text))))
      after rest := by
  change Takes _ (['"'] ++ _) _ _
  refine (takes_skip '"').lift.bind ?_
  refine (takes_readString key _).lift.bind ?_
  simp only [accepted]
  exact takes_readColon.lift.bind (takes.bind more)

/-- The members of an object are decoded one by one, each as the field of its name. -/
theorem takes_fields {before after : σ} {member : String × Value}
    {members : List (String × Value)} (h : Adds field before (member :: members) after)
    {fuel : List Char} (hfuel : members.length < fuel.length) :
    Takes (fields field fuel before) (Value.jsonMembers (member :: members)) after rest := by
  have htext : ∀ (member : String × Value) members, Value.jsonMembers (member :: members) =
      '"' :: (member.1.toList.flatMap Value.escapeChar ++ ['"'] ++
        ([':'] ++ (member.2.json ++ Value.jsonMoreMembers members))) := by
    intro member members
    simp [Value.jsonMembers, Value.quote]
  induction members generalizing before member fuel with
  | nil =>
      obtain ⟨_, fuel, rfl⟩ := List.exists_cons_of_length_pos hfuel
      cases h with
      | cons accepted takes more =>
          cases more
          rw [htext]
          refine takes_fields_member accepted (takes _ (endsValue_jsonMoreMembers [])) ?_
          refine takes_continuesObject_false.lift.bind_of_rest ?_
          exact takes_pure _
  | cons next members ih =>
      obtain ⟨_, fuel, rfl⟩ := List.exists_cons_of_length_pos (Nat.zero_lt_of_lt hfuel)
      cases h with
      | cons accepted takes more =>
          rw [htext]
          refine takes_fields_member accepted (takes _ (endsValue_jsonMoreMembers _)) ?_
          rw [jsonMoreMembers_cons]
          have hshorter : members.length < fuel.length := by simpa using hfuel
          have hnext := ih more hshorter
          rw [htext] at hnext ⊢
          refine takes_continuesObject_true.lift.bind ?_
          exact hnext

/-- An object is decoded if its members add up to what it stands for. -/
theorem takes_object {before after : σ} {members : List (String × Value)}
    (h : Adds field before members after) :
    Takes (object field before) (Value.object members).json after rest := by
  change Takes _ (['\x7b'] ++ _) _ _
  refine (takes_skip '\x7b').lift.bind ?_
  cases members with
  | nil =>
      cases h
      refine takes_startsObject_false.lift.bind_of_rest ?_
      exact takes_pure _
  | cons member members =>
      refine takes_startsObject_true.lift.bind_of_empty ?_
      refine Takes.bind_of_empty takes_unread.lift ?_
      refine takes_fields h ?_
      have hlength := length_lt_jsonMoreMembers members
      simp only [Value.jsonMembers, List.length_append, List.length_cons]
      omega

end Decoder

end Json

namespace RenderOutcome

open Json

variable {rest : List Char}

/-- A field that holds no object is kept as the value that it is. -/
theorem takes_content {value : Value} (hproper : value.ProperWithin (greatestDepth - 1))
    (hfree : value.isFloatFree = true) (hobject : value.json.head? ≠ some '\x7b')
    (hrest : EndsValue rest) : Takes content value.json (.value value) rest := by
  obtain ⟨c, more, hjson, hblank, -⟩ := startsValue_json hfree
  have hvalue := (takes_readValue hproper hfree hrest).bind_pure (h := Content.value)
  rw [hjson] at hobject hvalue ⊢
  refine takes_peekPastBlank?_bind hblank ?_
  have hne : (some c == some '\x7b') = false := by simpa using hobject
  simp only [hne, Bool.false_eq_true, ↓reduceIte]
  exact hvalue

/-- A field besides the status. -/
theorem adds_content {status : Status} {entries : List (String × Content)} {name : String}
    {value : Value} {members : List (String × Value)}
    {after : Option Status × List (String × Content)} (hname : name ≠ "status")
    (hproper : value.ProperWithin (greatestDepth - 1)) (hfree : value.isFloatFree = true)
    (hobject : value.json.head? ≠ some '\x7b')
    (more : Decoder.Adds field (some status, entries ++ [(name, .value value)]) members after) :
    Decoder.Adds field (some status, entries) ((name, value) :: members) after := by
  refine .cons (by rw [field, if_neg hname]) (fun rest hrest => ?_) more
  exact (takes_content hproper hfree hobject hrest).lift.bind_pure
    (h := fun content => (some status, entries ++ [(name, content)]))

theorem takes_shape_string (s : String) :
    Takes Decoder.shape (Value.quote s) (.string s) rest := by
  refine Takes.bind_of_empty (takes_peekPastBlank? ?_).lift ?_
  · rintro _ ⟨⟩
    decide
  · exact (takes_readValueWith_string s).lift.bind_pure

theorem takes_shape_map : Takes Decoder.shape [] .map ('\x7b' :: rest) := by
  refine Takes.bind_of_empty (takes_peekPastBlank? ?_).lift ?_
  · rintro _ ⟨⟩
    decide
  · exact takes_pure Shape.map

/-- A status is decoded from its name. -/
theorem takes_status (s : Status) : Takes status (Value.quote s.name) s rest := by
  have hname : Status.ofName s.name = .ok s := by cases s <;> rfl
  refine (takes_shape_string s.name).bind_of_rest ?_
  simp only [hname]
  exact takes_pure s

/-- The status comes first. -/
theorem adds_status {s : Status} {members : List (String × Value)}
    {after : Option Status × List (String × Content)}
    (more : Decoder.Adds field (some s, []) members after) :
    Decoder.Adds field (none, []) (("status", .string s.name) :: members) after :=
  .cons rfl (fun _ _ => (takes_status s).bind_pure (h := fun status => (some status, []))) more

/-- The status of an outcome. -/
def statusOf : RenderOutcome → Status
  | .success _ => .success
  | .failure _ _ _ => .failure

/-- The fields of an outcome behind its status. -/
def details : RenderOutcome → List (String × Value)
  | .success output => [("output", .string output)]
  | .failure kind message place? =>
    [("kind", .string kind.name), ("message", .string message), ("position", ofPlace? place?)]

/-- The fields behind the status as they are kept. -/
def kept (outcome : RenderOutcome) : List (String × Content) :=
  outcome.details.map fun member => (member.1, .value member.2)

/-- Whether the line and the column of an outcome are numbers of 64 bits. -/
def PlaceFits : RenderOutcome → Prop
  | .success _ => True
  | .failure _ _ place? => ∀ place ∈ place?, place.1 < Nat.pow 2 64 ∧ place.2 < Nat.pow 2 64

theorem toValue_eq (outcome : RenderOutcome) :
    outcome.toValue = .object (("status", .string outcome.statusOf.name) :: outcome.details) := by
  cases outcome <;> rfl

/-- The place of an outcome is a value without floating-point numbers that a field can hold. -/
theorem properWithin_ofPlace? {place? : Option (Nat × Nat)}
    (h : ∀ place ∈ place?, place.1 < Nat.pow 2 64 ∧ place.2 < Nat.pow 2 64) :
    (ofPlace? place?).ProperWithin (greatestDepth - 1) ∧ (ofPlace? place?).isFloatFree = true ∧
      (ofPlace? place?).json.head? ≠ some '\x7b' := by
  cases place? with
  | none => exact ⟨Value.properWithin_null _, rfl, by decide⟩
  | some place =>
      have hpow : Nat.pow 2 64 = 18446744073709551616 := rfl
      obtain ⟨hline, hcolumn⟩ := h place rfl
      refine ⟨?_, rfl, by simp [ofPlace?, Value.json]⟩
      intro item hmem
      rcases List.mem_pair.mp hmem with rfl | rfl
      · exact Value.properWithin_number.mpr ⟨by omega, by omega⟩
      · exact Value.properWithin_number.mpr ⟨by omega, by omega⟩

/-- The details of an outcome add up to what is kept of it. -/
theorem adds_details {outcome : RenderOutcome} (h : outcome.PlaceFits) :
    Decoder.Adds field (some outcome.statusOf, []) outcome.details
      (some outcome.statusOf, outcome.kept) := by
  have hstring : ∀ s : String, (Value.string s).json.head? ≠ some '\x7b' := by
    intro s
    simp [Value.json, Value.quote]
  cases outcome with
  | success output =>
      exact adds_content (by decide) (Value.properWithin_string _ _) rfl (hstring _) (.nil _)
  | failure kind message place? =>
      obtain ⟨hproper, hfree, hobject⟩ := properWithin_ofPlace? h
      refine adds_content (by decide) (Value.properWithin_string _ _) rfl (hstring _) ?_
      refine adds_content (by decide) (Value.properWithin_string _ _) rfl (hstring _) ?_
      exact adds_content (by decide) hproper hfree hobject (.nil _)

/-- The fields that are kept make up the outcome. -/
theorem ofEntries_kept (outcome : RenderOutcome) :
    ofEntries outcome.kept outcome.statusOf = .ok outcome := by
  cases outcome with
  | success output => rfl
  | failure kind message place? =>
      have hkind : Content.kindOfName kind.name = .ok kind := by cases kind <;> rfl
      have hplace : Content.place? (.value (ofPlace? place?)) = .ok place? := by
        cases place? <;> rfl
      simp [ofEntries, kept, details, statusOf, addToFailure, once, required, Content.kind,
        Content.text, hkind, hplace, Except.map, bind, Except.bind, pure, Except.pure]

/-- An outcome is decoded from the text it is written as. -/
theorem takes_decoder {outcome : RenderOutcome} (h : outcome.PlaceFits) :
    Takes decoder outcome.toValue.json outcome rest := by
  have hobject : Takes object outcome.toValue.json (ofEntries outcome.kept outcome.statusOf)
      rest := by
    rw [toValue_eq]
    refine (Decoder.takes_object (adds_status (adds_details h))).bind_of_rest ?_
    exact takes_pure (ofEntries outcome.kept outcome.statusOf)
  have hshape : Takes Decoder.shape [] Shape.map (outcome.toValue.json ++ rest) := by
    rw [toValue_eq]
    exact takes_shape_map
  refine hshape.bind_of_empty (hobject.bind_of_rest ?_)
  rw [ofEntries_kept]
  exact takes_pure outcome

/-- An outcome is read back from the text in which it is handed over, whatever its texts hold. -/
theorem ofJson_toJson {outcome : RenderOutcome} (h : outcome.PlaceFits) :
    ofJson outcome.toJson = .ok outcome := by
  have htext : outcome.toJson.toList = outcome.toValue.json := String.toList_ofList
  rw [ofJson, Decoder.run, htext]
  exact run'_of_takes ((takes_decoder h).bind_of_rest takes_readEnd.lift.bind_pure)

/-- A failure with quotes, a backslash, a control character and a character beyond the first plane
in its message, at the last column that there is. -/
theorem ofJson_toJson_last_column :
    let outcome : RenderOutcome :=
      .failure .unknownFilter "\"\\ \u0001\n😀" (some (1, 18446744073709551615))
    outcome.PlaceFits ∧ ofJson outcome.toJson = .ok outcome := by
  intro outcome
  have hfits : outcome.PlaceFits := by
    rintro place ⟨⟩
    decide
  exact ⟨hfits, ofJson_toJson hfits⟩

end RenderOutcome

end TextTemplate
