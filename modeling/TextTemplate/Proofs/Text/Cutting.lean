import TextTemplate.Text.Blank
import TextTemplate.Text.Search
/-! # Taking texts apart

Where a text is cut: behind a known beginning, before the first place of some kind, and between the
white space at its ends and what is left of it. Each cut is described by the pieces it leaves, which
put together again give the text.
-/

namespace TextTemplate.Text

/-- What is behind a lead is found exactly if the text starts with the lead. -/
theorem afterLead?_eq_some_iff {lead text rest : List Char} :
    afterLead? lead text = some rest ↔ text = lead ++ rest := by
  induction lead generalizing text with
  | nil => simp [afterLead?]
  | cons l lead ih =>
      cases text with
      | nil => simp [afterLead?]
      | cons c text =>
          by_cases hc : l = c
          · simp [afterLead?, hc, ih]
          · simp [afterLead?, hc, Ne.symm hc]

theorem afterLead?_isSome_iff {lead text : List Char} :
    (afterLead? lead text).isSome ↔ ∃ rest, text = lead ++ rest := by
  simp only [Option.isSome_iff_exists, afterLead?_eq_some_iff]

theorem afterLead?_eq_none_iff {lead text : List Char} :
    afterLead? lead text = none ↔ ¬ lead <+: text := by
  rw [← Option.not_isSome_iff_eq_none, afterLead?_isSome_iff]
  simp only [List.IsPrefix, eq_comm]

/-- The search for a pattern looks at every place in the text. -/
theorem occurs_iff {pattern text : List Char} : occurs pattern text = true ↔ pattern <:+: text := by
  induction text with
  | nil => simp [occurs]
  | cons c text ih =>
      rw [occurs, Bool.or_eq_true, ih, List.infix_cons_iff, afterLead?_isSome_iff]
      simp only [List.IsPrefix, eq_comm]

theorem splitFirst?_eq_none_iff {pattern text : List Char} (hne : pattern ≠ []) :
    splitFirst? pattern text = none ↔ ¬ pattern <:+: text := by
  induction text with
  | nil => simp [splitFirst?, hne]
  | cons c text ih =>
      rw [List.infix_cons_iff, not_or, ← ih, ← afterLead?_eq_none_iff]
      simp only [splitFirst?]
      split
      next found hlead => simp [hlead]
      next hlead => simp [hlead]

/-- A text that is split at a pattern is the part in front, the pattern and the rest. -/
theorem eq_append_of_splitFirst? {pattern text before rest : List Char}
    (h : splitFirst? pattern text = some (before, rest)) : text = before ++ pattern ++ rest := by
  induction text generalizing before with
  | nil =>
      simp only [splitFirst?] at h
      split at h
      next hempty =>
        simp only [Option.some.injEq, Prod.mk.injEq] at h
        obtain ⟨rfl, rfl⟩ := h
        simpa using hempty
      next => simp at h
  | cons c text ih =>
      simp only [splitFirst?] at h
      split at h
      next found hlead =>
        simp only [Option.some.injEq, Prod.mk.injEq] at h
        obtain ⟨rfl, rfl⟩ := h
        simpa using afterLead?_eq_some_iff.mp hlead
      next =>
        obtain ⟨⟨found, behind⟩, hfound, heq⟩ := Option.map_eq_some_iff.mp h
        simp only [Prod.mk.injEq] at heq
        obtain ⟨rfl, rfl⟩ := heq
        rw [ih hfound]
        simp

/-! ## The first place of a kind -/

/-- The text behind `run` is the first place, from the start of `run` on, at which `stops`
holds. -/
def StopsFirst (stops : List Char → Prop) (run after : List Char) : Prop :=
  stops after ∧ ∀ front back, run = front ++ back → back ≠ [] → ¬ stops (back ++ after)

theorem stopsFirst_nil {stops : List Char → Prop} {after : List Char} (h : stops after) :
    StopsFirst stops [] after := by
  refine ⟨h, ?_⟩
  intro front back heq hback
  exact absurd (List.append_eq_nil_iff.mp heq.symm).2 hback

/-- A run goes on over a character where it does not stop. -/
theorem StopsFirst.cons {stops : List Char → Prop} {c : Char} {run after : List Char}
    (hrest : StopsFirst stops run after) (hhere : ¬ stops (c :: run ++ after)) :
    StopsFirst stops (c :: run) after := by
  refine ⟨hrest.1, ?_⟩
  intro front back heq hback
  cases front with
  | nil =>
      obtain rfl : c :: run = back := by simpa using heq
      exact hhere
  | cons d front =>
      simp only [List.cons_append, List.cons.injEq] at heq
      exact hrest.2 front back heq.2 hback

/-! ## White space at the ends -/

/-- What is left of a run of text when the white space at one end, at both, or at none is taken
off: `run` is `lead`, then `kept`, then `trail`. An end that is not trimmed loses nothing, and one
that is trimmed has no white space left. -/
structure Trimming (atStart atEnd : Bool) (run lead kept trail : List Char) : Prop where
  run_eq : run = lead ++ kept ++ trail
  lead_blank : ∀ c ∈ lead, isBlank c = true
  trail_blank : ∀ c ∈ trail, isBlank c = true
  start_trimmed : atStart = true → ∀ c, kept.head? = some c → isBlank c = false
  start_whole : atStart = false → lead = []
  end_trimmed : atEnd = true → ∀ c, kept.getLast? = some c → isBlank c = false
  end_whole : atEnd = false → trail = []

theorem isBlank_of_mem_takeWhile {text : List Char} {c : Char}
    (h : c ∈ text.takeWhile isBlank) : isBlank c = true :=
  List.all_eq_true.mp List.all_takeWhile c h

theorem not_isBlank_head_trimStart {text : List Char} {c : Char}
    (h : (trimStart text).head? = some c) : isBlank c = false := by
  have hhead := List.head?_dropWhile_not isBlank text
  rw [trimStart] at h
  rw [h] at hhead
  exact hhead

/-- Every text has a gap of blanks in front, if only an empty one. -/
theorem exists_append_trimStart (text : List Char) :
    ∃ gap, (∀ c ∈ gap, isBlank c = true) ∧ text = gap ++ trimStart text :=
  ⟨text.takeWhile isBlank, fun _ => isBlank_of_mem_takeWhile,
    List.takeWhile_append_dropWhile.symm⟩

/-- Trimming takes away the gap in front, and no more. -/
theorem trimStart_append {gap rest : List Char} (hgap : ∀ c ∈ gap, isBlank c = true)
    (hrest : ∀ c, rest.head? = some c → isBlank c = false) : trimStart (gap ++ rest) = rest := by
  induction gap with
  | nil =>
      cases rest with
      | nil => rfl
      | cons c rest => simp [trimStart, hrest c rfl]
  | cons d gap ih =>
      rw [List.forall_mem_cons] at hgap
      rw [List.cons_append, trimStart, List.dropWhile_cons, if_pos hgap.1]
      exact ih hgap.2

/-- The white space that `trimEnd` takes off. -/
def blankEnd (text : List Char) : List Char := (text.reverse.takeWhile isBlank).reverse

/-- What is trimmed from the end is put back by adding the blanks there. -/
theorem trimEnd_append_blankEnd (text : List Char) : trimEnd text ++ blankEnd text = text := by
  have h : text.reverse.takeWhile isBlank ++ text.reverse.dropWhile isBlank = text.reverse :=
    List.takeWhile_append_dropWhile
  rw [trimEnd, blankEnd, ← List.reverse_append, h, List.reverse_reverse]

theorem isBlank_of_mem_blankEnd {text : List Char} {c : Char} (h : c ∈ blankEnd text) :
    isBlank c = true :=
  isBlank_of_mem_takeWhile (List.mem_reverse.mp h)

theorem not_isBlank_getLast_trimEnd {text : List Char} {c : Char}
    (h : (trimEnd text).getLast? = some c) : isBlank c = false := by
  have hhead : (trimStart text.reverse).head? = some c := by simpa [trimEnd, trimStart] using h
  exact not_isBlank_head_trimStart hhead

/-- Trimming the start leaves the white space there and what follows it. -/
theorem trimming_start (run : List Char) :
    Trimming true false run (run.takeWhile isBlank) (trimStart run) [] where
  run_eq := by simp [trimStart]
  lead_blank _ := isBlank_of_mem_takeWhile
  trail_blank := by simp
  start_trimmed _ _ := not_isBlank_head_trimStart
  start_whole h := by simp at h
  end_trimmed h := by simp at h
  end_whole _ := rfl

theorem trimming_none (run : List Char) : Trimming false false run [] run [] where
  run_eq := by simp
  lead_blank := by simp
  trail_blank := by simp
  start_trimmed h := by simp at h
  start_whole _ := rfl
  end_trimmed h := by simp at h
  end_whole _ := rfl

/-- What is left behind a trimmed start can be trimmed at its end as well. -/
theorem Trimming.atEnd {atStart : Bool} {run lead kept : List Char}
    (h : Trimming atStart false run lead kept []) :
    Trimming atStart true run lead (trimEnd kept) (blankEnd kept) where
  run_eq := by
    rw [List.append_assoc, trimEnd_append_blankEnd]
    simpa using h.run_eq
  lead_blank := h.lead_blank
  trail_blank _ := isBlank_of_mem_blankEnd
  start_trimmed hstart c hc := by
    apply h.start_trimmed hstart c
    rw [← trimEnd_append_blankEnd kept, List.head?_append, hc]
    rfl
  start_whole := h.start_whole
  end_trimmed _ _ := not_isBlank_getLast_trimEnd
  end_whole h := by simp at h

/-- A text with white space around it, if only none. -/
def Padded (body text : List Char) : Prop :=
  ∃ lead trail, (∀ c ∈ lead, isBlank c = true) ∧ (∀ c ∈ trail, isBlank c = true) ∧
    text = lead ++ body ++ trail

theorem padded_trim (text : List Char) : Padded (trim text) text := by
  have h := (trimming_start text).atEnd
  exact ⟨_, _, h.lead_blank, h.trail_blank, h.run_eq⟩

/-- Trimming takes away the gap behind a text without blanks. -/
theorem trimEnd_append {rest gap : List Char} (hrest : ∀ c ∈ rest, isBlank c = false)
    (hgap : ∀ c ∈ gap, isBlank c = true) : trimEnd (rest ++ gap) = rest := by
  have hstart : trimStart (gap.reverse ++ rest.reverse) = rest.reverse := by
    refine trimStart_append (fun c hc => hgap c (List.mem_reverse.mp hc)) fun c hc => ?_
    exact hrest c (List.mem_reverse.mp (List.mem_of_mem_head? hc))
  rw [trimStart] at hstart
  rw [trimEnd, List.reverse_append, hstart, List.reverse_reverse]

/-- A text without white space is what trimming leaves of it with white space around it. -/
theorem Padded.trim_eq {body text : List Char} (h : Padded body text)
    (hbody : ∀ c ∈ body, isBlank c = false) : trim text = body := by
  obtain ⟨lead, trail, hlead, htrail, rfl⟩ := h
  cases body with
  | nil =>
      have hall : trimStart (lead ++ [] ++ trail) = [] := by
        rw [List.append_nil, ← List.append_nil (lead ++ trail)]
        exact trimStart_append (List.forall_mem_append.mpr ⟨hlead, htrail⟩) nofun
      rw [trim, hall]
      rfl
  | cons c rest =>
      have hstart : trimStart (lead ++ (c :: rest ++ trail)) = c :: rest ++ trail := by
        refine trimStart_append hlead fun d hd => ?_
        obtain rfl : c = d := by simpa using hd
        exact hbody c List.mem_cons_self
      rw [trim, List.append_assoc, hstart, trimEnd_append hbody htrail]

end TextTemplate.Text
