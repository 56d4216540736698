import Mathlib.Data.List.DropRight
import TextTemplate.Filter.Apply
import TextTemplate.Proofs.Text.Pieces
/-! # Replacing, removing, splitting and joining

Four filters go by the occurrences of a text in another. They take the same ones: what they yield
is made of the same pieces.
-/

namespace TextTemplate.Filter

open Text

theorem text_ofChars (text : List Char) : (Value.ofChars text).text = text := String.toList_ofList

/-- Only empty pieces are dropped, and all of them that stand at the end. -/
theorem exists_dropEmptyEnd (pieces : List (List Char)) :
    ∃ dropped, pieces = dropEmptyEnd pieces ++ List.replicate dropped [] ∧
      (dropEmptyEnd pieces).getLast? ≠ some [] := by
  have hdrop : ∀ pieces, dropEmptyEnd pieces = pieces.rdropWhile List.isEmpty :=
    fun _ => rfl
  simp only [hdrop]
  induction pieces using List.reverseRecOn with
  | nil => exact ⟨0, rfl, by simp⟩
  | append_singleton pieces piece ih =>
      cases hpiece : piece.isEmpty with
      | true =>
          obtain ⟨dropped, hpieces, hlast⟩ := ih
          obtain rfl := List.isEmpty_iff.mp hpiece
          rw [List.rdropWhile_concat_pos _ _ _ hpiece]
          refine ⟨dropped + 1, ?_, hlast⟩
          rw [List.replicate_succ', ← List.append_assoc, ← hpieces]
      | false =>
          rw [List.rdropWhile_concat_neg _ _ _ (by simp [hpiece])]
          refine ⟨0, by simp, ?_⟩
          rw [List.getLast?_concat]
          rintro ⟨⟩
          cases hpiece

/-- Joining pieces that are values again. -/
theorem join_map_ofChars (pieces : List (List Char)) (separator : String) (more : List Value) :
    apply .join (.array (pieces.map Value.ofChars)) (.string separator :: more) =
      .ofChars (separator.toList.intercalate pieces) := by
  have hjoin : apply .join (.array (pieces.map Value.ofChars)) (.string separator :: more) =
      .ofChars (joinWith separator.toList ((pieces.map Value.ofChars).map Value.text)) := rfl
  have htexts : (pieces.map Value.ofChars).map Value.text = pieces := by
    rw [List.map_map]
    exact List.map_id'' text_ofChars pieces
  rw [hjoin, htexts, joinWith_eq_intercalate]

/-- A text is split where the separator occurs, and empty pieces at the end are dropped. The empty
separator and a single space are handled by rules of their own. -/
theorem split_eq {text separator : String} (hne : separator ≠ "") (hspace : separator ≠ " ")
    (more : List Value) :
    apply .split (.string text) (.string separator :: more) =
      .array ((dropEmptyEnd (Text.pieces separator.toList text.toList)).map Value.ofChars) := by
  have hsplit : apply .split (.string text) (.string separator :: more) =
      .array ((dropEmptyEnd (splitText separator.toList text.toList)).map Value.ofChars) := rfl
  have hsome : ¬ separator.toList.isEmpty = true := by simpa using hne
  have hother : separator.toList ≠ [' '] := fun h => hspace (String.toList_inj.mp h)
  rw [hsplit, splitText, if_neg hsome, if_neg hother]

/-- A text falls into pieces between the leftmost occurrences of another, without overlaps, in one
way only. Replacing all of them, the first of them, or removing them puts these pieces together with
the replacement in the place of the occurrences. Unless at a single space, splitting yields the
pieces without the empty ones at the end; joined again, these make the text but for copies of the
separator at its end. -/
theorem replace_remove_split_agree {s p : String} (hp : p ≠ "") :
    ∃ pieces : List (List Char), (∀ other, CutAt p.toList s.toList other ↔ other = pieces) ∧
      (∀ (r : String) (more : List Value),
        apply .replace (.string s) (.string p :: .string r :: more) =
            .ofChars (r.toList.intercalate pieces) ∧
          apply .replaceFirst (.string s) (.string p :: .string r :: more) =
            .ofChars (joinFirst r.toList p.toList pieces)) ∧
      (∀ more : List Value,
        apply .remove (.string s) (.string p :: more) = .ofChars pieces.flatten) ∧
      (p ≠ " " → ∃ kept dropped, pieces = kept ++ List.replicate dropped [] ∧
        kept.getLast? ≠ some [] ∧ ∀ more more' : List Value,
          apply .split (.string s) (.string p :: more) = .array (kept.map Value.ofChars) ∧
          ∃ joined copies,
            apply .join (.array (kept.map Value.ofChars)) (.string p :: more') = .ofChars joined ∧
            s.toList = joined ++ (List.replicate copies p.toList).flatten) := by
  have hne : p.toList ≠ [] := by simpa using hp
  let pieces := Text.pieces p.toList s.toList
  have hcut : CutAt p.toList s.toList pieces := (cutAt_iff hne).mpr rfl
  refine ⟨pieces, fun other => cutAt_iff hne, fun r more => ⟨?replace, ?first⟩, fun more => ?remove,
    fun hspace => ?split⟩
  case replace => exact congrArg Value.ofChars (hcut.replaceAll_eq hne r.toList)
  case first => exact congrArg Value.ofChars (hcut.replaceFirst_eq hne r.toList)
  case remove =>
    rw [← intercalate_nil_eq_flatten]
    exact congrArg Value.ofChars (hcut.replaceAll_eq hne [])
  case split =>
    obtain ⟨dropped, hpieces, hlast⟩ := exists_dropEmptyEnd pieces
    refine ⟨dropEmptyEnd pieces, dropped, hpieces, hlast, fun more more' => ?_⟩
    obtain ⟨copies, hcopies⟩ :=
      exists_intercalate_append p.toList (dropEmptyEnd pieces) dropped
    refine ⟨split_eq hp hspace more, _, copies, join_map_ofChars _ p more', ?_⟩
    rw [← hcopies, ← hpieces]
    exact hcut.text_eq

/-- A pattern that overlaps itself, at both ends of a text. -/
theorem replace_remove_split_agree_overlap :
    CutAt "aba".toList "ababaaba".toList [[], ['b', 'a'], []] ∧
      apply .replace (.string "ababaaba") [.string "aba", .string "-"] = .string "-ba-" ∧
      apply .replaceFirst (.string "ababaaba") [.string "aba", .string "-"] = .string "-baaba" ∧
      apply .remove (.string "ababaaba") [.string "aba"] = .string "ba" ∧
      apply .split (.string "ababaaba") [.string "aba"] = .array [.string "", .string "ba"] ∧
      apply .join (.array [.string "", .string "ba"]) [.string "aba"] = .string "ababa" := by
  obtain ⟨pieces, hcut, hreplace, hremove, hsplit⟩ :=
    replace_remove_split_agree (s := "ababaaba") (p := "aba") (by decide)
  have hfound : CutAt "aba".toList "ababaaba".toList [[], ['b', 'a'], []] :=
    (cutAt_iff (by decide)).mpr (by decide)
  obtain rfl := (hcut _).mp hfound
  obtain ⟨hall, hfirst⟩ := hreplace "-" []
  obtain ⟨kept, dropped, hkept, hlast, hjoin⟩ := hsplit (by decide)
  -- one empty piece is dropped: with none the last would be empty, and the one before it is not
  obtain rfl : [[], ['b', 'a']] = kept := by
    rcases dropped with - | - | dropped
    · rw [List.replicate_zero, List.append_nil] at hkept
      rw [← hkept] at hlast
      exact absurd rfl hlast
    · exact List.append_cancel_right hkept
    · rw [List.replicate_succ', List.replicate_succ', ← List.append_assoc, ← List.append_assoc]
        at hkept
      have hpair : [[]] ++ [['b', 'a']] = kept ++ List.replicate dropped [] ++ [[]] :=
        List.append_cancel_right hkept
      cases (List.append_singleton_inj.mp hpair).2
  obtain ⟨hparts, -⟩ := hjoin [] []
  exact ⟨hfound, hall, hfirst, hremove [], hparts, join_map_ofChars [[], ['b', 'a']] "aba" []⟩

end TextTemplate.Filter
