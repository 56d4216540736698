import TextTemplate.Filter.Apply
import Mathlib.Data.List.Basic
/-! # Escaping for HTML

An escaped text has none of the characters that would end an attribute or start a tag, and every
ampersand in it starts an entity. Main statement: reading its entities from left to right gives the
text back, also where that text has entities, or parts of them, of its own.
-/

namespace TextTemplate.Filter

/-- The entities that stand for the five characters. -/
def entities : List String := ["&amp;", "&lt;", "&gt;", "&quot;", "&#39;"]

/-- The characters that start or end tags and attributes in HTML. -/
def markupChars : List Char := ['<', '>', '"', '\'']

/-- A text with its entities read as the characters that they stand for, from left to right. An
ampersand that starts none of them is left as it is. -/
def unescapeHtml : List Char → List Char
  | '&' :: 'a' :: 'm' :: 'p' :: ';' :: rest => '&' :: unescapeHtml rest
  | '&' :: 'l' :: 't' :: ';' :: rest => '<' :: unescapeHtml rest
  | '&' :: 'g' :: 't' :: ';' :: rest => '>' :: unescapeHtml rest
  | '&' :: 'q' :: 'u' :: 'o' :: 't' :: ';' :: rest => '"' :: unescapeHtml rest
  | '&' :: '#' :: '3' :: '9' :: ';' :: rest => '\'' :: unescapeHtml rest
  | c :: rest => c :: unescapeHtml rest
  | [] => []

/-- What the filter makes of a text. -/
def escaped (s : String) : String := String.ofList (escapeHtml s.toList)

theorem toList_escaped (s : String) : (escaped s).toList = escapeHtml s.toList :=
  String.toList_ofList

theorem apply_escape (s : String) (args : List Value) :
    apply .escape (.string s) args = .string (escaped s) := rfl

/-! ## One character -/

/-- Only an ampersand starts an entity. -/
theorem unescapeHtml_cons {c : Char} (h : c ≠ '&') (rest : List Char) :
    unescapeHtml (c :: rest) = c :: unescapeHtml rest := by
  conv_lhs => unfold unescapeHtml
  split <;> simp_all

/-- A character is written as an entity, or as itself if it is none of the five. -/
theorem entity_cases (c : Char) :
    (∃ name ∈ entities, entity c = name.toList) ∨ entity c = [c] ∧ c ≠ '&' ∧ c ∉ markupChars := by
  unfold entity
  split_ifs with hamp hlt hgt hquot hapos
  · exact .inl ⟨"&amp;", by decide, rfl⟩
  · exact .inl ⟨"&lt;", by decide, rfl⟩
  · exact .inl ⟨"&gt;", by decide, rfl⟩
  · exact .inl ⟨"&quot;", by decide, rfl⟩
  · exact .inl ⟨"&#39;", by decide, rfl⟩
  · exact .inr ⟨rfl, hamp, by simp [markupChars, hlt, hgt, hquot, hapos]⟩

/-- Entities are written without markup characters. -/
theorem not_mem_markupChars_of_mem_entity {c d : Char} (h : d ∈ entity c) : d ∉ markupChars := by
  rcases entity_cases c with ⟨name, hname, heq⟩ | ⟨heq, -, hsafe⟩
  · rw [heq] at h
    have hnames : ∀ name ∈ entities, ∀ d ∈ name.toList, d ∉ markupChars := by
      simp [entities, markupChars]
    exact hnames name hname d h
  · rw [heq, List.mem_singleton] at h
    exact h ▸ hsafe

/-- An ampersand in what a character is written as is the first character of an entity. -/
theorem entity_of_ampersand {c : Char} {before after : List Char}
    (h : entity c = before ++ '&' :: after) :
    before = [] ∧ ∃ name ∈ entities, name.toList = '&' :: after := by
  rcases entity_cases c with ⟨name, hname, heq⟩ | ⟨heq, hne, -⟩
  · have htails : ∀ name ∈ entities, '&' ∉ name.toList.tail := by decide
    rw [heq] at h
    cases before with
    | nil => exact ⟨rfl, name, hname, h⟩
    | cons d before => exact absurd (by simp [h]) (htails name hname)
  · rw [heq] at h
    cases before with
    | nil => exact absurd (List.cons.inj h).1 hne
    | cons d before => simp at h

/-- What one character was replaced by is read back as that character, whatever follows. -/
theorem unescapeHtml_entity_append (c : Char) (rest : List Char) :
    unescapeHtml (entity c ++ rest) = c :: unescapeHtml rest := by
  unfold entity
  split_ifs with hamp hlt hgt hquot hapos
  · rw [hamp]; rfl
  · rw [hlt]; rfl
  · rw [hgt]; rfl
  · rw [hquot]; rfl
  · rw [hapos]; rfl
  · exact unescapeHtml_cons hamp rest

/-! ## A whole text -/

theorem escapeHtml_cons (c : Char) (text : List Char) :
    escapeHtml (c :: text) = entity c ++ escapeHtml text := List.flatMap_cons

theorem escapeHtml_append (text more : List Char) :
    escapeHtml (text ++ more) = escapeHtml text ++ escapeHtml more := List.flatMap_append

/-- Reading entities back undoes the escaping. -/
theorem unescapeHtml_escapeHtml (text : List Char) : unescapeHtml (escapeHtml text) = text := by
  induction text with
  | nil => rfl
  | cons c text ih => rw [escapeHtml_cons, unescapeHtml_entity_append, ih]

/-- No markup character is left after the escaping. -/
theorem not_mem_markupChars_of_mem_escapeHtml {text : List Char} {c : Char}
    (h : c ∈ escapeHtml text) : c ∉ markupChars := by
  obtain ⟨d, -, hmem⟩ := List.mem_flatMap.mp h
  exact not_mem_markupChars_of_mem_entity hmem

/-- An ampersand in an escaped text starts an entity. -/
theorem exists_entity_of_ampersand {text before after : List Char}
    (h : escapeHtml text = before ++ '&' :: after) :
    ∃ name ∈ entities, name.toList <+: '&' :: after := by
  induction text generalizing before with
  | nil => simp [escapeHtml] at h
  | cons c text ih =>
      rw [escapeHtml_cons] at h
      rcases List.append_eq_append_iff.mp h with ⟨between, -, hrest⟩ | ⟨between, hentity, hrest⟩
      · exact ih hrest
      · cases between with
        | nil =>
            have hhead : escapeHtml text = [] ++ '&' :: after := hrest.symm
            exact ih hhead
        | cons d between =>
            obtain ⟨rfl, rfl⟩ : d = '&' ∧ after = between ++ escapeHtml text := by
              simpa [eq_comm] using hrest
            obtain ⟨-, name, hname, heq⟩ := entity_of_ampersand hentity
            exact ⟨name, hname, escapeHtml text, by rw [heq]; rfl⟩

/-- Different texts are different after the escaping. -/
theorem escaped_injective : Function.Injective escaped := by
  intro s t h
  have hchars : escapeHtml s.toList = escapeHtml t.toList := by
    rw [← toList_escaped, ← toList_escaped, h]
  have hread := congrArg unescapeHtml hchars
  rwa [unescapeHtml_escapeHtml, unescapeHtml_escapeHtml, String.toList_inj] at hread

/-- Escaping leaves no character that ends an attribute or starts a tag, and no ampersand but at the
start of an entity. Nothing is lost: reading the entities again gives the text back, whatever it is.
Texts can be escaped piece by piece. -/
theorem escape_recoverable :
    (∀ (s : String) (args : List Value), apply .escape (.string s) args = .string (escaped s)) ∧
    (∀ s : String,
      (∀ c ∈ ['<', '>', '"', '\''], c ∉ (escaped s).toList) ∧
      (∀ before after, (escaped s).toList = before ++ '&' :: after →
        ∃ name ∈ ["&amp;", "&lt;", "&gt;", "&quot;", "&#39;"], name.toList <+: '&' :: after) ∧
      unescapeHtml (escaped s).toList = s.toList) ∧
    Function.Injective escaped ∧
    ∀ s t : String, escaped (s ++ t) = escaped s ++ escaped t := by
  refine ⟨apply_escape, fun s => ⟨fun c hc hmem => ?_, fun before after h => ?_, ?_⟩,
    escaped_injective, fun s t => ?_⟩
  · rw [toList_escaped] at hmem
    exact not_mem_markupChars_of_mem_escapeHtml hmem hc
  · rw [toList_escaped] at h
    exact exists_entity_of_ampersand h
  · rw [toList_escaped, unescapeHtml_escapeHtml]
  · rw [escaped, String.toList_append, escapeHtml_append, String.ofList_append]
    rfl

/-- A text that is escaped already is escaped once more. -/
example : escaped "&lt; \"é\"" = "&amp;lt; &quot;é&quot;" := by decide

end TextTemplate.Filter
