import Mathlib.Data.List.Infix
import TextTemplate.Proofs.Text.Cutting
/-! # The pieces between occurrences

A text falls into pieces at the occurrences of a pattern, taken from the left and without overlaps.
What an occurrence is and which are taken is said here without the search. Main statements: the
pieces are determined by the text and the pattern, the search finds them, and the text can be put
together again from them even when the empty ones at their end have been dropped.
-/

namespace TextTemplate.Text

variable {pattern text piece before rest : List Char} {pieces : List (List Char)}

/-- The pieces of a text between the occurrences of a pattern. In each piece and the occurrence
behind it, the pattern starts nowhere earlier than at that occurrence; in the last piece it does not
occur. -/
inductive CutAt (pattern : List Char) : List Char → List (List Char) → Prop
  | last {piece : List Char} (free : ¬ pattern <:+: piece) : CutAt pattern piece [piece]
  | next {piece rest : List Char} {pieces : List (List Char)}
      (first : StopsFirst (pattern <+: ·) piece pattern) (behind : CutAt pattern rest pieces) :
      CutAt pattern (piece ++ (pattern ++ rest)) (piece :: pieces)

/-- A text has at least one piece, if only the empty one. -/
theorem CutAt.ne_nil (h : CutAt pattern text pieces) : pieces ≠ [] := by
  cases h <;> simp

/-- The pieces with the pattern between neighbours make the text. -/
theorem CutAt.text_eq (h : CutAt pattern text pieces) : text = pattern.intercalate pieces := by
  induction h with
  | last free => rw [List.intercalate_singleton]
  | next first behind ih =>
      obtain ⟨next, more, rfl⟩ := List.exists_cons_of_ne_nil behind.ne_nil
      rw [List.intercalate_cons_cons, ← ih, List.append_assoc]

/-- Pieces put together with `separator` between neighbours, but `replacement` between the first
two. -/
def joinFirst (replacement separator : List Char) : List (List Char) → List Char
  | first :: second :: more => first ++ replacement ++ separator.intercalate (second :: more)
  | pieces => separator.intercalate pieces

/-! ## The search -/

theorem joinWith_eq_intercalate (separator : List Char) (pieces : List (List Char)) :
    joinWith separator pieces = separator.intercalate pieces := by
  fun_induction joinWith separator pieces with
  | case1 => rw [List.intercalate_nil]
  | case2 piece => rw [List.intercalate_singleton]
  | case3 piece next rest ih => rw [ih, List.intercalate_cons_cons]

theorem intercalate_nil_eq_flatten (pieces : List (List Char)) :
    ([] : List Char).intercalate pieces = pieces.flatten := by
  rw [← joinWith_eq_intercalate]
  fun_induction joinWith [] pieces with
  | case1 => rfl
  | case2 piece => exact (List.append_nil piece).symm
  | case3 piece next rest ih => rw [ih, List.append_nil, List.flatten_cons (l := piece)]

/-- What follows an occurrence does not matter for where the pattern starts before it. -/
theorem stopsFirst_append_iff :
    StopsFirst (pattern <+: ·) before (pattern ++ rest) ↔
      StopsFirst (pattern <+: ·) before pattern := by
  have hstart : ∀ back, pattern <+: back ++ (pattern ++ rest) ↔ pattern <+: back ++ pattern := by
    intro back
    have hfront : back ++ pattern <+: back ++ (pattern ++ rest) :=
      (List.prefix_append_right_inj back).mpr (List.prefix_append pattern rest)
    constructor
    · intro h
      exact List.prefix_of_prefix_length_le h hfront (by simp)
    · intro h
      exact h.trans hfront
  simp only [StopsFirst, hstart, List.prefix_append, List.prefix_refl]

section Search

variable (hne : pattern ≠ [])
include hne

/-- The search finds the first occurrence, and what is before and behind it. -/
theorem splitFirst?_eq_some_iff :
    splitFirst? pattern text = some (before, rest) ↔
      text = before ++ (pattern ++ rest) ∧ StopsFirst (pattern <+: ·) before pattern := by
  rw [← @stopsFirst_append_iff pattern before rest]
  constructor
  · intro h
    have htext := eq_append_of_splitFirst? h
    rw [List.append_assoc] at htext
    refine ⟨htext, ?_⟩
    induction text generalizing before with
    | nil => simp [splitFirst?, hne] at h
    | cons c text ih =>
        simp only [splitFirst?] at h
        split at h
        next found hlead =>
          cases h
          exact stopsFirst_nil (List.prefix_append pattern rest)
        next hlead =>
          obtain ⟨⟨front, behind⟩, hfound, heq⟩ := Option.map_eq_some_iff.mp h
          cases heq
          have htail : text = front ++ (pattern ++ behind) := (List.cons.inj htext).2
          refine (ih hfound htail).cons ?_
          rw [← htext, ← afterLead?_eq_none_iff]
          exact hlead
  · rintro ⟨rfl, hfirst⟩
    induction before with
    | nil =>
        obtain ⟨p, more, rfl⟩ := List.exists_cons_of_ne_nil hne
        have hlead : afterLead? (p :: more) (p :: more ++ rest) = some rest :=
          afterLead?_eq_some_iff.mpr rfl
        rw [List.cons_append] at hlead
        simp only [List.nil_append, List.cons_append, splitFirst?, hlead]
    | cons c before ih =>
        have hhere : afterLead? pattern (c :: before ++ (pattern ++ rest)) = none :=
          afterLead?_eq_none_iff.mpr (hfirst.2 [] (c :: before) rfl (List.cons_ne_nil c before))
        have htail : StopsFirst (pattern <+: ·) before (pattern ++ rest) := by
          refine ⟨hfirst.1, fun front back heq => hfirst.2 (c :: front) back ?_⟩
          rw [heq, List.cons_append]
        rw [List.cons_append] at hhere ⊢
        simp only [splitFirst?, hhere, ih htail, Option.map_some]

/-- Cutting at each occurrence gives the pieces of the text, as long as the fuel covers the text. -/
theorem cutAt_piecesUpTo {fuel : Nat} (h : text.length ≤ fuel) :
    CutAt pattern text (piecesUpTo pattern fuel text) := by
  induction fuel generalizing text with
  | zero =>
      obtain rfl := List.length_eq_zero_iff.mp (Nat.le_zero.mp h)
      exact .last ((splitFirst?_eq_none_iff hne).mp (by simp [splitFirst?, hne]))
  | succ fuel ih =>
      unfold piecesUpTo
      split
      next hnone => exact .last ((splitFirst?_eq_none_iff hne).mp hnone)
      next before rest hsome =>
        obtain ⟨rfl, hfirst⟩ := (splitFirst?_eq_some_iff hne).mp hsome
        have hpos : 0 < pattern.length := List.length_pos_iff.mpr hne
        refine .next hfirst (ih ?_)
        simp only [List.length_append] at h
        omega

/-- There is one way to cut a text into pieces. -/
theorem CutAt.eq_piecesUpTo {fuel : Nat} (h : CutAt pattern text pieces)
    (hfuel : text.length ≤ fuel) : pieces = piecesUpTo pattern fuel text := by
  induction h generalizing fuel with
  | @last piece free =>
      have hnone : splitFirst? pattern piece = none := (splitFirst?_eq_none_iff hne).mpr free
      cases fuel with
      | zero => rfl
      | succ fuel => simp only [piecesUpTo, hnone]
  | @next piece rest pieces first behind ih =>
      have hsome : splitFirst? pattern (piece ++ (pattern ++ rest)) = some (piece, rest) :=
        (splitFirst?_eq_some_iff hne).mpr ⟨rfl, first⟩
      have hpos : 0 < pattern.length := List.length_pos_iff.mpr hne
      simp only [List.length_append] at hfuel
      obtain ⟨fuel, rfl⟩ : ∃ less, fuel = less + 1 := ⟨fuel - 1, by omega⟩
      have hrest : pieces = piecesUpTo pattern fuel rest := ih (by omega)
      simp only [piecesUpTo, hsome, hrest]

/-- The search finds the pieces, and there are no others. -/
theorem cutAt_iff : CutAt pattern text pieces ↔ pieces = Text.pieces pattern text := by
  constructor
  · intro h
    exact h.eq_piecesUpTo hne (Nat.le_refl _)
  · rintro rfl
    exact cutAt_piecesUpTo hne (Nat.le_refl _)

/-- Replacing all occurrences puts the replacement between the pieces. -/
theorem CutAt.replaceAll_eq (h : CutAt pattern text pieces) (replacement : List Char) :
    replaceAll pattern replacement text = replacement.intercalate pieces := by
  rw [replaceAll, if_neg (by simpa using hne), ← (cutAt_iff hne).mp h, joinWith_eq_intercalate]

/-- Replacing the first occurrence puts the replacement behind the first piece. -/
theorem CutAt.replaceFirst_eq (h : CutAt pattern text pieces) (replacement : List Char) :
    replaceFirst pattern replacement text = joinFirst replacement pattern pieces := by
  rw [replaceFirst, if_neg (by simpa using hne)]
  cases h with
  | last free =>
      rw [(splitFirst?_eq_none_iff hne).mpr free]
      exact List.intercalate_singleton.symm
  | next first behind =>
      rw [(splitFirst?_eq_some_iff hne).mpr ⟨rfl, first⟩, behind.text_eq]
      obtain ⟨second, more, rfl⟩ := List.exists_cons_of_ne_nil behind.ne_nil
      rfl

end Search

/-! ## Empty pieces at the end -/

/-- Empty pieces at the end are joined to separators. -/
theorem intercalate_cons_replicate (separator piece : List Char) (dropped : Nat) :
    separator.intercalate (piece :: List.replicate dropped []) =
      piece ++ (List.replicate dropped separator).flatten := by
  induction dropped generalizing piece with
  | zero => simp
  | succ dropped ih =>
      rw [List.replicate_succ, List.intercalate_cons_cons, ih, List.nil_append,
        List.replicate_succ, List.flatten_cons, List.append_assoc]

/-- Empty pieces at the end leave nothing but copies of the separator. -/
theorem exists_intercalate_append (separator : List Char) (pieces : List (List Char))
    (dropped : Nat) :
    ∃ copies, separator.intercalate (pieces ++ List.replicate dropped []) =
      separator.intercalate pieces ++ (List.replicate copies separator).flatten := by
  induction pieces with
  | nil =>
      cases dropped with
      | zero => exact ⟨0, rfl⟩
      | succ dropped => exact ⟨dropped, intercalate_cons_replicate separator [] dropped⟩
  | cons first more ih =>
      cases more with
      | nil =>
          refine ⟨dropped, ?_⟩
          rw [List.intercalate_singleton]
          exact intercalate_cons_replicate separator first dropped
      | cons second more =>
          obtain ⟨copies, hcopies⟩ := ih
          refine ⟨copies, ?_⟩
          rw [List.cons_append] at hcopies
          rw [List.cons_append, List.cons_append, List.intercalate_cons_cons, hcopies,
            List.intercalate_cons_cons, List.append_assoc (first ++ separator)]

end TextTemplate.Text
