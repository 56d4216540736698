import TextTemplate.Proofs.Text.Lines
/-! # Positions from a locator

A locator counts on from its last answer where it can. What carries over from one question to the
next is that the last answer is the place behind some beginning of the source. Main statement: the
answers are the places asked for, in whatever order these come, as if each were asked of a new
locator.
-/

namespace TextTemplate

open Position

namespace Locator

/-- The locator over a source whose last answer was the place behind `asked`. -/
def lastAsked (source asked : List Char) : Locator :=
  ⟨source, (ofSource source).lineStarts, positionBehind asked⟩

theorem ofSource_eq_lastAsked (source : List Char) : ofSource source = lastAsked source [] := rfl

/-- The line of a place is found among the starts of lines. -/
theorem line_eq_count (before after : List Char) :
    ((ofSource (before ++ after)).lineStarts.takeWhile (· ≤ byteLength before)).length - 1 =
      before.count '\n' := by
  rw [takeWhile_lineStarts, List.length_cons, length_startsBehind, Nat.add_sub_cancel]

/-- The characters between two places in a line are counted on from the first of them. -/
theorem lastLine_of_same_line {asked before : List Char} (hfront : asked <+: before)
    (hline : asked.count '\n' = before.count '\n') :
    ∃ more, before = asked ++ more ∧ lastLine before = lastLine asked ++ more := by
  obtain ⟨more, rfl⟩ := hfront
  rw [List.count_append] at hline
  exact ⟨more, rfl, (lastLine_append asked more).trans (if_pos (by omega))⟩

/-- Asked for a place, a locator answers with it and remembers it, whatever it was asked last. -/
theorem seek_lastAsked {source asked before : List Char} (hasked : asked <+: source)
    (hbefore : before <+: source) :
    (lastAsked source asked).seek (byteLength before) =
      some (positionBehind before, lastAsked source before) := by
  have hsource := hbefore
  obtain ⟨after, rfl⟩ := hbefore
  have hplace : ∀ column, column = 1 + (lastLine before).length →
      (⟨before.count '\n' + 1, column, byteLength before⟩ : Position) = positionBehind before := by
    rintro _ rfl
    rw [positionBehind_eq, Nat.add_comm 1 (before.count '\n')]
  have hlast : positionBehind asked =
      ⟨1 + asked.count '\n', 1 + (lastLine asked).length, byteLength asked⟩ :=
    positionBehind_eq asked
  simp only [seek, lastAsked, line_eq_count]
  split
  next hsame =>
    -- the last answer is in the line of the place and not behind it
    simp only [hlast] at hsame
    have hfront := prefix_of_byteLength_le hasked hsource hsame.2
    obtain ⟨more, hmore, hline⟩ := lastLine_of_same_line hfront (by omega)
    have hslice : slice? (byteLength asked) (byteLength before) (before ++ after) = some more := by
      rw [hmore, slice?_append]
    simp only [hlast, hslice]
    have hcolumn : 1 + (lastLine asked).length + more.length = 1 + (lastLine before).length := by
      rw [hline, List.length_append, Nat.add_assoc]
    have hposition := hplace _ hcolumn
    simp [hposition]
  next =>
    have hposition := hplace _ (Nat.add_comm (lastLine before).length 1)
    simp [getElem?_lineStarts, slice?_lastLine, hposition]

/-- A locator that was asked for a place answers a sequence of places, as they lie in the source. -/
theorem seekAll_lastAsked {source asked : List Char} {befores : List (List Char)}
    (hasked : asked <+: source) (h : ∀ before ∈ befores, before <+: source) :
    (lastAsked source asked).seekAll (befores.map byteLength) =
      some (befores.map positionBehind) := by
  induction befores generalizing asked with
  | nil => rfl
  | cons before befores ih =>
      obtain ⟨hbefore, hrest⟩ := List.forall_mem_cons.mp h
      rw [List.map_cons, seekAll, seek_lastAsked hasked hbefore]
      simp [ih hbefore hrest]

/-- A new locator for each place gives the same answers. -/
theorem mapM_seek_ofSource {source : List Char} {befores : List (List Char)}
    (h : ∀ before ∈ befores, before <+: source) :
    ((befores.map byteLength).mapM fun offset => ((ofSource source).seek offset).map Prod.fst) =
      some (befores.map positionBehind) := by
  induction befores with
  | nil => rfl
  | cons before befores ih =>
      obtain ⟨hbefore, hrest⟩ := List.forall_mem_cons.mp h
      rw [List.map_cons, List.mapM_cons, ih hrest, ofSource_eq_lastAsked,
        seek_lastAsked List.nil_prefix hbefore]
      rfl

/-- Positions in a source are found again from their offsets. -/
theorem seekAll_offsets {source : List Char} {positions : List Position}
    (h : ∀ position ∈ positions, position.IsIn source) :
    (ofSource source).seekAll (positions.map Position.offset) = some positions := by
  have hbehind : ∀ position ∈ positions, ∃ before, before <+: source ∧
      positionBehind before = position := by
    intro position hmem
    obtain ⟨before, after, rfl, hoffset, hline, hcolumn⟩ := h position hmem
    refine ⟨before, List.prefix_append before after, ?_⟩
    rw [positionBehind_eq, ← hoffset, ← hline, ← hcolumn]
  choose! front hfront using hbehind
  have hpositions : positions = (positions.map front).map positionBehind := by
    rw [List.map_map]
    exact (List.map_id positions).symm.trans
      (List.map_congr_left fun position hmem => ((hfront position hmem).2).symm)
  have hoffsets : positions.map Position.offset = (positions.map front).map byteLength := by
    conv_lhs => rw [hpositions]
    rw [List.map_map]
    exact List.map_congr_left fun before _ => offset_positionBehind before
  rw [hoffsets, ofSource_eq_lastAsked, seekAll_lastAsked List.nil_prefix, ← hpositions]
  exact List.forall_mem_map.mpr fun position hmem => (hfront position hmem).1

/-- The places of tokens, asked for in any order, are those that the lexer gave them. -/
theorem seekAll_tokens {source : List Char} {tokens : List Token}
    (h : ∀ token ∈ tokens, token ∈ (tokenize source).tokens) :
    (ofSource source).seekAll (tokens.map fun token => token.position.offset) =
      some (tokens.map Token.position) := by
  have hin : ∀ position ∈ tokens.map Token.position, position.IsIn source :=
    List.forall_mem_map.mpr fun token hmem => (tokenize_isIn source).tokens token (h token hmem)
  have hseek := seekAll_offsets hin
  rw [List.map_map] at hseek
  exact hseek

/-- Asked for the places behind any beginnings of a source, in any order, one locator gives each
its line, told by the line feeds in front of it, its column, told by the characters in front of it
in its line, and its offset. Each answer is the one that a new locator gives. -/
theorem seekAll_eq_places {source : List Char} {befores : List (List Char)}
    (h : ∀ before ∈ befores, before <+: source) :
    (ofSource source).seekAll (befores.map byteLength) =
        some (befores.map fun before =>
          ⟨1 + before.count '\n', 1 + (lastLine before).length, byteLength before⟩) ∧
      (ofSource source).seekAll (befores.map byteLength) =
        (befores.map byteLength).mapM fun offset =>
          ((ofSource source).seek offset).map Prod.fst := by
  have hplaces : befores.map positionBehind = befores.map fun before =>
      ⟨1 + before.count '\n', 1 + (lastLine before).length, byteLength before⟩ :=
    List.map_congr_left fun before _ => positionBehind_eq before
  have hall : (ofSource source).seekAll (befores.map byteLength) =
      some (befores.map positionBehind) := seekAll_lastAsked List.nil_prefix h
  exact ⟨hplaces ▸ hall, hall.trans (mapM_seek_ofSource h).symm⟩

/-- Forward and backward over two lines with letters of two bytes. -/
theorem seekAll_eq_places_backward :
    (∀ before ∈ [['é', '\n', 'ü'], ['é'], ['é', '\n', 'ü', 'a']],
      before <+: ['é', '\n', 'ü', 'a']) ∧
    (ofSource ['é', '\n', 'ü', 'a']).seekAll [5, 2, 6] =
      some [⟨2, 2, 5⟩, ⟨1, 2, 2⟩, ⟨2, 3, 6⟩] := by
  have h : ∀ before ∈ [['é', '\n', 'ü'], ['é'], ['é', '\n', 'ü', 'a']],
      before <+: ['é', '\n', 'ü', 'a'] := by decide
  exact ⟨h, (seekAll_eq_places h).1⟩

end Locator

end TextTemplate
