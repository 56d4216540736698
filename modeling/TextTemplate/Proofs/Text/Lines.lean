import TextTemplate.Json.Fault
import TextTemplate.Proofs.Token.Places
/-! # Bytes and lines of a text

A byte offset between two characters is the length of the text in front of it. A text in front of a
place falls into the lines that are finished there, each with its line feed, and the line in which
the place is. Where the lines of a text start is told by these lengths.
-/

namespace TextTemplate

open Position

/-! ## Byte offsets -/

theorem dropBytes?_cons {count : Nat} (h : 0 < count) (c : Char) (rest : List Char) :
    dropBytes? count (c :: rest) =
      if c.utf8Size ≤ count then dropBytes? (count - c.utf8Size) rest else none := by
  cases count with
  | zero => exact absurd h (Nat.lt_irrefl 0)
  | succ count => rfl

theorem takeBytes?_cons {count : Nat} (h : 0 < count) (c : Char) (rest : List Char) :
    takeBytes? count (c :: rest) =
      if c.utf8Size ≤ count then (takeBytes? (count - c.utf8Size) rest).map (c :: ·)
      else none := by
  cases count with
  | zero => exact absurd h (Nat.lt_irrefl 0)
  | succ count => rfl

theorem byteLength_cons_pos (c : Char) (rest : List Char) : 0 < byteLength (c :: rest) :=
  byteLength_pos (List.cons_ne_nil c rest)

/-- Dropping the bytes of a part leaves what is behind it. -/
theorem dropBytes?_append (before after : List Char) :
    dropBytes? (byteLength before) (before ++ after) = some after := by
  induction before with
  | nil => cases after <;> rfl
  | cons c before ih =>
      rw [List.cons_append, dropBytes?_cons (byteLength_cons_pos c before), byteLength,
        if_pos (Nat.le_add_right _ _), Nat.add_sub_cancel_left, ih]

/-- Taking the bytes of a part gives that part. -/
theorem takeBytes?_append (before after : List Char) :
    takeBytes? (byteLength before) (before ++ after) = some before := by
  induction before with
  | nil => cases after <;> rfl
  | cons c before ih =>
      rw [List.cons_append, takeBytes?_cons (byteLength_cons_pos c before), byteLength,
        if_pos (Nat.le_add_right _ _), Nat.add_sub_cancel_left, ih]
      rfl

/-- What stands between two places of a text. -/
theorem slice?_append (front middle back : List Char) :
    slice? (byteLength front) (byteLength (front ++ middle)) (front ++ middle ++ back) =
      some middle := by
  rw [slice?, if_pos (byteLength_le_append front middle), List.append_assoc, dropBytes?_append,
    Option.bind_some, byteLength_append, Nat.add_sub_cancel_left, takeBytes?_append]

/-- Bytes can be dropped only up to the end of a character. -/
theorem eq_append_of_dropBytes? {count : Nat} {text rest : List Char}
    (h : dropBytes? count text = some rest) :
    ∃ before, text = before ++ rest ∧ byteLength before = count := by
  induction text generalizing count with
  | nil =>
      cases count with
      | zero => exact ⟨[], Option.some.inj h, rfl⟩
      | succ count => cases h
  | cons c text ih =>
      cases count with
      | zero => exact ⟨[], Option.some.inj h, rfl⟩
      | succ count =>
          rw [dropBytes?] at h
          split at h
          next hle =>
            obtain ⟨before, rfl, hlength⟩ := ih h
            exact ⟨c :: before, rfl, by rw [byteLength, hlength]; omega⟩
          next => cases h

/-- The places between characters are the lengths of the texts in front of them. -/
theorem isBoundary_iff {text : List Char} {offset : Nat} :
    isBoundary text offset = true ↔ ∃ before, before <+: text ∧ byteLength before = offset := by
  rw [isBoundary, Option.isSome_iff_exists]
  constructor
  · rintro ⟨rest, h⟩
    obtain ⟨before, rfl, hlength⟩ := eq_append_of_dropBytes? h
    exact ⟨before, List.prefix_append before rest, hlength⟩
  · rintro ⟨before, ⟨rest, rfl⟩, rfl⟩
    exact ⟨rest, dropBytes?_append before rest⟩

/-- Of two places in a text the one with the smaller offset comes first. -/
theorem prefix_of_byteLength_le {source before more : List Char} (hbefore : before <+: source)
    (hmore : more <+: source) (h : byteLength before ≤ byteLength more) : before <+: more := by
  rcases List.prefix_or_prefix_of_prefix hbefore hmore with hfront | ⟨rest, rfl⟩
  · exact hfront
  · cases rest with
    | nil => simp
    | cons c rest =>
        have hpos := byteLength_cons_pos c rest
        rw [byteLength_append] at h
        omega

/-! ## Lines -/

/-- The lines of a text that are finished, with the line feeds at their ends. -/
def finishedLines (text : List Char) : List Char := (text.reverse.dropWhile (· ≠ '\n')).reverse

theorem finishedLines_append_lastLine (text : List Char) :
    finishedLines text ++ lastLine text = text := by
  rw [finishedLines, lastLine, ← List.reverse_append, List.takeWhile_append_dropWhile,
    List.reverse_reverse]

theorem finishedLines_concat_feed (text : List Char) :
    finishedLines (text ++ ['\n']) = text ++ ['\n'] := by
  simp [finishedLines]

theorem finishedLines_concat {c : Char} (h : c ≠ '\n') (text : List Char) :
    finishedLines (text ++ [c]) = finishedLines text := by
  simp [finishedLines, h]

theorem byteLength_finishedLines_le (text : List Char) :
    byteLength (finishedLines text) ≤ byteLength text := by
  conv_rhs => rw [← finishedLines_append_lastLine text]
  exact byteLength_le_append _ _

/-- What stands between the start of the line of a place and the place. -/
theorem slice?_lastLine (before after : List Char) :
    slice? (byteLength (finishedLines before)) (byteLength before) (before ++ after) =
      some (lastLine before) := by
  have h := slice?_append (finishedLines before) (lastLine before) after
  rwa [finishedLines_append_lastLine] at h

/-- The last line has no line feed. -/
theorem count_lastLine (text : List Char) : (lastLine text).count '\n' = 0 := by
  rw [List.count_eq_zero, lastLine, List.mem_reverse]
  intro hmem
  simpa using List.all_eq_true.mp List.all_takeWhile _ hmem

/-- All line feeds are in the lines that are finished. -/
theorem count_finishedLines (text : List Char) :
    (finishedLines text).count '\n' = text.count '\n' := by
  conv_rhs => rw [← finishedLines_append_lastLine text]
  rw [List.count_append, count_lastLine, Nat.add_zero]

/-- Finished lines end with a line feed, unless there are none. -/
theorem finishedLines_eq (text : List Char) :
    finishedLines text = [] ∨ ∃ front, finishedLines text = front ++ ['\n'] := by
  induction text using List.reverseRecOn with
  | nil => exact .inl rfl
  | append_singleton text c ih =>
      by_cases hfeed : c = '\n'
      · subst hfeed
        exact .inr ⟨text, finishedLines_concat_feed text⟩
      · rwa [finishedLines_concat hfeed]

/-- A text has no unfinished line if it is empty or ends with a line feed. -/
theorem lastLine_eq_nil_iff {text : List Char} :
    lastLine text = [] ↔ text = [] ∨ text.getLast? = some '\n' := by
  induction text using List.reverseRecOn with
  | nil => simp [lastLine]
  | append_singleton text c ih =>
      by_cases hfeed : c = '\n'
      · simp [hfeed, lastLine_concat_feed]
      · simp [hfeed, lastLine_concat hfeed]

/-! ## Where lines start -/

namespace Locator

/-- The starts of lines in a text and more behind it are those in both. -/
theorem startsBehind_append (offset : Nat) (text more : List Char) :
    startsBehind offset (text ++ more) =
      startsBehind offset text ++ startsBehind (offset + byteLength text) more := by
  induction text generalizing offset with
  | nil => rfl
  | cons c text ih =>
      rw [List.cons_append, startsBehind, startsBehind, byteLength, ih]
      split <;> simp [Nat.add_assoc]

/-- Behind every line feed a line starts. -/
theorem length_startsBehind (offset : Nat) (text : List Char) :
    (startsBehind offset text).length = text.count '\n' := by
  induction text generalizing offset with
  | nil => rfl
  | cons c text ih =>
      rw [startsBehind]
      split
      next h => simp [h, ih]
      next h => simp [h, ih]

/-- A line starts behind the first byte, and not behind the last. -/
theorem mem_startsBehind {offset start : Nat} {text : List Char}
    (h : start ∈ startsBehind offset text) : offset < start ∧ start ≤ offset + byteLength text := by
  induction text generalizing offset with
  | nil => cases h
  | cons c text ih =>
      have hsize := Char.utf8Size_pos c
      rw [startsBehind] at h
      rw [byteLength]
      split at h
      next =>
        rcases List.mem_cons.mp h with rfl | h
        · omega
        · have := ih h
          omega
      next =>
        have := ih h
        omega

/-- The starts that do not lie behind a place are those of the lines in front of it and of its
own. -/
theorem takeWhile_lineStarts (before after : List Char) :
    (ofSource (before ++ after)).lineStarts.takeWhile (· ≤ byteLength before) =
      0 :: startsBehind 0 before := by
  have hfront : ∀ start ∈ 0 :: startsBehind 0 before,
      decide (start ≤ byteLength before) = true := by
    intro start hmem
    rcases List.mem_cons.mp hmem with rfl | hmem
    · simp
    · have := mem_startsBehind hmem
      exact decide_eq_true (by omega)
  have hback : (startsBehind (0 + byteLength before) after).takeWhile
      (fun start => decide (start ≤ byteLength before)) = [] := by
    cases hstarts : startsBehind (0 + byteLength before) after with
    | nil => rfl
    | cons start starts =>
        have := mem_startsBehind (hstarts ▸ List.mem_cons_self : start ∈ startsBehind _ after)
        rw [List.takeWhile_cons_of_neg (by simp; omega)]
  rw [ofSource, startsBehind_append, ← List.cons_append, List.takeWhile_append_of_pos hfront,
    hback, List.append_nil]

/-- The line of a place starts behind the lines that are finished there. -/
theorem getElem?_lineStarts (before after : List Char) :
    (ofSource (before ++ after)).lineStarts[before.count '\n']? =
      some (byteLength (finishedLines before)) := by
  have hsource : before ++ after = finishedLines before ++ (lastLine before ++ after) := by
    rw [← List.append_assoc, finishedLines_append_lastLine]
  rw [ofSource, hsource, ← count_finishedLines]
  rcases finishedLines_eq before with h | ⟨front, h⟩
  · rw [h]
    rfl
  · have hlength : (0 :: startsBehind 0 front).length = (front ++ ['\n']).count '\n' := by
      simp [length_startsBehind]
    rw [h, List.append_assoc, startsBehind_append, ← List.cons_append, ← hlength,
      List.getElem?_append_right (Nat.le_refl _), Nat.sub_self, byteLength_append, Nat.zero_add]
    rfl

end Locator

namespace Json

theorem bytesOfLines_zero (text : List Char) : bytesOfLines 0 text = 0 := by
  cases text <;> rfl

/-- The bytes of more lines than a text has are its own and those of the lines behind it. -/
theorem bytesOfLines_append {count : Nat} (h : 0 < count) (text more : List Char) :
    bytesOfLines (text.count '\n' + count) (text ++ more) =
      byteLength text + bytesOfLines count more := by
  induction text with
  | nil => simp [byteLength]
  | cons c text ih =>
      obtain ⟨lines, hlines⟩ : ∃ lines, (c :: text).count '\n' + count = lines + 1 :=
        ⟨_, (Nat.succ_pred_eq_of_pos (by omega)).symm⟩
      have hnext : (if c = '\n' then lines else lines + 1) = text.count '\n' + count := by
        rw [List.count_cons] at hlines
        split at hlines
        next heq => rw [if_pos (by simpa using heq)]; omega
        next hne => rw [if_neg (by simpa using hne)]; omega
      rw [hlines, List.cons_append, bytesOfLines, hnext, ih, byteLength, Nat.add_assoc]

/-- The bytes of the lines that are finished at a place. -/
theorem bytesOfLines_count (before after : List Char) :
    bytesOfLines (before.count '\n') (before ++ after) = byteLength (finishedLines before) := by
  have htext : before ++ after = finishedLines before ++ (lastLine before ++ after) := by
    rw [← List.append_assoc, finishedLines_append_lastLine]
  rw [htext, ← count_finishedLines]
  rcases finishedLines_eq before with h | ⟨front, h⟩
  · rw [h]
    exact bytesOfLines_zero _
  · have hfeed : bytesOfLines 1 ('\n' :: (lastLine before ++ after)) = 1 :=
      congrArg (1 + ·) (bytesOfLines_zero _)
    rw [h, List.append_assoc, List.count_append, byteLength_append]
    exact (bytesOfLines_append Nat.one_pos front _).trans (congrArg _ hfeed)

end Json

end TextTemplate
