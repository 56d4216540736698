import TextTemplate.Json.Reader
import TextTemplate.Proofs.Json.Extent
import TextTemplate.Proofs.Text.Lines
/-! # Where faults point

A fault is found after a number of bytes. That index is told as a line and a byte column first, and
the position is worked out from these. Main statement: it is a place of the text, with its line and
its column, and the place is the start of the character that holds the last byte before the index,
or the index itself where a line starts there.
-/

namespace TextTemplate.Json

open Position

/-- `Marks index before after`: between the two parts of a text is the place that an index stands
for. -/
inductive Marks : Nat → List Char → List Char → Prop
  /-- At the start of the text or of a line it is the place at the index. -/
  | start {before after : List Char} (h : before = [] ∨ before.getLast? = some '\n') :
      Marks (byteLength before) before after
  /-- Elsewhere it is the start of the character that holds the byte before the index. -/
  | holder {index : Nat} {before rest : List Char} {c : Char} (hfeed : c ≠ '\n')
      (hlow : byteLength before < index) (hhigh : index ≤ byteLength before + c.utf8Size) :
      Marks index before (c :: rest)

variable {index : Nat} {text before after : List Char}

/-- The byte before an index is part of a character. -/
theorem exists_holder (hpos : 0 < index) (hle : index ≤ byteLength text) :
    ∃ front c back, text = front ++ c :: back ∧ byteLength front < index ∧
      index ≤ byteLength front + c.utf8Size := by
  induction text generalizing index with
  | nil => exact absurd hle (Nat.not_le_of_lt hpos)
  | cons c rest ih =>
      rw [byteLength] at hle
      by_cases hfirst : index ≤ c.utf8Size
      · exact ⟨[], c, rest, rfl, hpos, by rwa [byteLength, Nat.zero_add]⟩
      · have hrestPos : 0 < index - c.utf8Size := by omega
        have hrestLe : index - c.utf8Size ≤ byteLength rest := by omega
        obtain ⟨front, d, back, rfl, hlow, hhigh⟩ :=
          ih hrestPos hrestLe
        refine ⟨c :: front, d, back, rfl, ?_, ?_⟩ <;> rw [byteLength] <;> omega

/-- Every index within a text stands for a place in it. -/
theorem exists_marks (h : index ≤ byteLength text) :
    ∃ before after, text = before ++ after ∧ Marks index before after := by
  rcases Nat.eq_zero_or_pos index with rfl | hpos
  · exact ⟨[], text, rfl, .start (.inl rfl)⟩
  · obtain ⟨front, c, back, rfl, hlow, hhigh⟩ := exists_holder hpos h
    by_cases hfeed : c = '\n'
    · subst hfeed
      have hindex : index = byteLength (front ++ ['\n']) := by
        have hsize : ('\n').utf8Size = 1 := rfl
        rw [byteLength_append, byteLength, byteLength]
        omega
      exact ⟨front ++ ['\n'], back, by simp, hindex ▸ .start (.inr (by simp))⟩
    · exact ⟨front, c :: back, rfl, .holder hfeed hlow hhigh⟩

/-! ## Line and column of an index -/

/-- An index at or before the offset ends the search for the line it lies on. -/
theorem lineStart_of_le {line start offset : Nat} (h : index ≤ offset) (rest : List Char) :
    lineStart index line start offset rest = (line, start) := by
  cases rest with
  | nil => rfl
  | cons c rest => rw [lineStart, if_pos h]

/-- The search for the line of an index goes past what lies before it. -/
theorem lineStart_append {seen : List Char} (h : byteLength (seen ++ before) ≤ index)
    (rest : List Char) :
    lineStart index (1 + seen.count '\n') (byteLength (finishedLines seen)) (byteLength seen)
        (before ++ rest) =
      lineStart index (1 + (seen ++ before).count '\n')
        (byteLength (finishedLines (seen ++ before))) (byteLength (seen ++ before)) rest := by
  induction before generalizing seen with
  | nil => simp
  | cons c before ih =>
      have hlength : byteLength (seen ++ [c]) = byteLength seen + c.utf8Size := by
        rw [byteLength_append, byteLength, byteLength, Nat.add_zero]
      have hshift : seen ++ c :: before = seen ++ [c] ++ before := by simp
      have hsize := Char.utf8Size_pos c
      rw [hshift] at h ⊢
      have hbefore := byteLength_le_append (seen ++ [c]) before
      rw [← ih h, List.cons_append, lineStart, if_neg (by omega), hlength]
      by_cases hfeed : c = '\n'
      · subst hfeed
        rw [if_pos rfl, finishedLines_concat_feed, hlength, List.count_append]
        rfl
      · rw [if_neg hfeed, finishedLines_concat hfeed, List.count_append,
          List.count_singleton, if_neg (by simpa using hfeed), Nat.add_zero]

/-- A mark at an index is on the line after the line feeds in front of it, as many bytes into it as
lie behind the last of them. -/
theorem Marks.lineAndColumn_eq (h : Marks index before after) :
    lineAndColumn (before ++ after) index =
      (1 + before.count '\n', index - byteLength (finishedLines before)) := by
  have hle : byteLength ([] ++ before) ≤ index := by
    cases h with
    | start _ => exact Nat.le_refl _
    | holder _ hlow _ => exact Nat.le_of_lt hlow
  have hpast := lineStart_append hle after
  have hstart : lineStart index 1 0 0 (before ++ after) =
      (1 + before.count '\n', byteLength (finishedLines before)) := by
    refine hpast.trans ?_
    cases h with
    | start _ => exact lineStart_of_le (Nat.le_refl _) after
    | holder hfeed hlow hhigh =>
        rw [List.nil_append, lineStart, if_neg (Nat.not_le_of_lt hlow), if_neg hfeed]
        exact lineStart_of_le hhigh _
  simp only [lineAndColumn, hstart]

/-! ## The position -/

/-- The last place not behind an offset. -/
theorem boundaryUpTo_eq {offset : Nat} (hfront : before <+: text)
    (hle : byteLength before ≤ offset)
    (hlast : ∀ other, other <+: text → byteLength other ≤ offset →
      byteLength other ≤ byteLength before) :
    boundaryUpTo text offset = byteLength before := by
  induction offset with
  | zero => exact (Nat.le_zero.mp hle).symm
  | succ offset ih =>
      rw [boundaryUpTo]
      split
      next hboundary =>
        obtain ⟨other, hother, hlength⟩ := isBoundary_iff.mp hboundary
        have := hlast other hother (Nat.le_of_eq hlength)
        omega
      next hboundary =>
        have hne : byteLength before ≠ offset + 1 := fun heq =>
          hboundary (isBoundary_iff.mpr ⟨before, hfront, heq⟩)
        exact ih (by omega) fun other hother hle => hlast other hother (by omega)

/-- No place lies inside a character. -/
theorem byteLength_le_of_isPrefix {other rest : List Char} {c : Char}
    (h : other <+: before ++ c :: rest) (hlt : byteLength other < byteLength before + c.utf8Size) :
    byteLength other ≤ byteLength before := by
  by_contra hlonger
  obtain ⟨more, rfl⟩ := prefix_of_byteLength_le (List.prefix_append before (c :: rest)) h (by omega)
  cases more with
  | nil => simp at hlonger
  | cons d more =>
      obtain rfl : d = c := by
        have hmore := (List.prefix_append_right_inj before).mp h
        exact (List.cons_prefix_cons.mp hmore).1
      rw [byteLength_append, byteLength] at hlt
      omega

/-- The byte before the column of an index is in the character that the index stands for. -/
theorem Marks.boundaryUpTo_eq (h : Marks index before after) :
    boundaryUpTo (before ++ after)
        (min (byteLength (finishedLines before) +
            (index - byteLength (finishedLines before) - 1)) (byteLength (before ++ after))) =
      byteLength before := by
  have htotal := byteLength_append before after
  have hsplit : byteLength before =
      byteLength (finishedLines before) + byteLength (lastLine before) := by
    rw [← byteLength_append, finishedLines_append_lastLine]
  cases h with
  | start hstart =>
      have hempty : byteLength (lastLine before) = 0 := by
        rw [lastLine_eq_nil_iff.mpr hstart]
        rfl
      refine Json.boundaryUpTo_eq (List.prefix_append _ _) (by omega) fun other _ hle => ?_
      omega
  | @holder _ _ rest c hfeed hlow hhigh =>
      rw [byteLength] at htotal
      refine Json.boundaryUpTo_eq (List.prefix_append _ _) (by omega) fun other hother hle => ?_
      exact byteLength_le_of_isPrefix hother (by omega)

/-- Line and byte column of a mark lead back to the position behind the characters in front of
it. -/
theorem Marks.positionAt?_eq (h : Marks index before after) :
    positionAt? (before ++ after) (1 + before.count '\n')
        (index - byteLength (finishedLines before)) = some (positionBehind before) := by
  have hlines : bytesOfLines (1 + before.count '\n' - 1) (before ++ after) =
      byteLength (finishedLines before) := by
    rw [Nat.add_sub_cancel_left, bytesOfLines_count]
  rw [positionAt?, hlines, h.boundaryUpTo_eq, Nat.min_eq_left (byteLength_finishedLines_le before),
    slice?_lastLine, positionBehind_eq, Nat.max_eq_left (Nat.le_add_right 1 _),
    Nat.add_comm 1 (lastLine before).length]
  rfl

/-- A fault points at the place that its index stands for. -/
theorem Marks.position_eq {fault : Fault} (h : Marks fault.index before after) :
    fault.position (before ++ after) = positionBehind before := by
  rw [Fault.position, h.lineAndColumn_eq]
  exact congrArg (Option.getD · _) h.positionAt?_eq

end TextTemplate.Json

namespace TextTemplate

open Position

/-- A text that is no document is refused at the place that the index of its fault stands for. The
place lies within the text, its line is told by the line feeds in front of it, and its column by the
characters in front of it in that line. -/
theorem position_of_readDocument {text : String} {error : TemplateError}
    (h : readDocument text = .error error) :
    ∃ fault before after, Json.read text.toList = .error fault ∧
      fault.index ≤ text.utf8ByteSize ∧ text.toList = before ++ after ∧
      Json.Marks fault.index before after ∧ byteLength before ≤ text.utf8ByteSize ∧
      error = .invalidDocument fault.cause
        ⟨1 + before.count '\n', 1 + (lastLine before).length, byteLength before⟩ := by
  have hsize : byteLength text.toList = text.utf8ByteSize := by
    rw [byteLength_eq_utf8ByteSize, String.ofList_toList]
  unfold readDocument at h
  split at h
  next => cases h
  next fault hread =>
    cases h
    have hindex := Json.index_le_of_read hread
    obtain ⟨before, after, htext, hmarks⟩ := Json.exists_marks hindex
    have hbefore : byteLength before ≤ byteLength text.toList :=
      htext ▸ byteLength_le_append before after
    refine ⟨fault, before, after, hread, hsize ▸ hindex, htext, hmarks, hsize ▸ hbefore, ?_⟩
    rw [htext, hmarks.position_eq, positionBehind_eq]

/-- An escape of which the fourth byte lies inside a letter of three bytes, and a text that ends
behind a line feed. -/
theorem position_of_readDocument_inside_letter :
    let cut := "\n [\"\\u00€\"]"
    let ended := "[\n"
    (readDocument cut = .error (.invalidDocument .badEscape ⟨2, 8, 8⟩) ∧
      ∃ before after, cut.toList = before ++ after ∧ Json.Marks 10 before after ∧
        byteLength before = 8 ∧ before.count '\n' = 1 ∧ (lastLine before).length = 7) ∧
    readDocument ended = .error (.invalidDocument .endInList ⟨2, 1, 2⟩) ∧
      ∃ before after, ended.toList = before ++ after ∧ Json.Marks 2 before after ∧
        byteLength before = 2 ∧ before.count '\n' = 1 ∧ (lastLine before).length = 0 := by
  intro cut ended
  obtain ⟨⟨hcut, hcutFault⟩, hended, hendedFault⟩ :
      (readDocument cut = .error (.invalidDocument .badEscape ⟨2, 8, 8⟩) ∧
        Json.read cut.toList = .error ⟨.badEscape, 10⟩) ∧
      readDocument ended = .error (.invalidDocument .endInList ⟨2, 1, 2⟩) ∧
        Json.read ended.toList = .error ⟨.endInList, 2⟩ :=
    ⟨⟨by decide +kernel, by decide +kernel⟩, by decide +kernel, by decide +kernel⟩
  obtain ⟨fault, before, after, hread, -, htext, hmarks, -, herror⟩ :=
    position_of_readDocument hcut
  obtain ⟨fault', before', after', hread', -, htext', hmarks', -, herror'⟩ :=
    position_of_readDocument hended
  obtain rfl := Except.error.inj (hcutFault.symm.trans hread)
  obtain rfl := Except.error.inj (hendedFault.symm.trans hread')
  simp only [TemplateError.invalidDocument.injEq, Position.mk.injEq] at herror herror'
  refine ⟨⟨hcut, before, after, htext, hmarks, ?_, ?_, ?_⟩,
    hended, before', after', htext', hmarks', ?_, ?_, ?_⟩ <;> omega

end TextTemplate
