import TextTemplate.Filter.Apply
import TextTemplate.Proofs.Value.Integer
/-! # Shortening

A text that is longer than the limit of `truncate` keeps as many of its first characters as leave
room for the ellipsis. An ellipsis that is longer than the limit is not cut, and no character of the
text stands before it. Main statement: how long the result is, and that shortening it again changes
nothing, also where it is longer than the limit itself.
-/

namespace TextTemplate.Filter

/-! ## The limit -/

section Limit

variable {value : Value}

/-- The limit is the integer that the argument counts as; a negative one counts as zero. -/
theorem shortenedLength_of_countsAs {n : Int} (h : value.CountsAs n) :
    (shortenedLength value : Int) = max n 0 := by
  rw [shortenedLength, Value.toInt64?_eq_some_iff.mpr h]
  exact Int.ofNat_toNat n

/-- A length that does not count as a number is taken for fifty. -/
theorem shortenedLength_of_not_countsAs (h : ∀ n, ¬ value.CountsAs n) :
    shortenedLength value = 50 := by
  have hnone : value.toInt64? = none :=
    Option.eq_none_iff_forall_ne_some.mpr fun n hn => h n (Value.toInt64?_eq_some_iff.mp hn)
  rw [shortenedLength, hnone]

end Limit

/-! ## The text -/

section Text

variable {length : Nat} {ellipsis text : List Char}

theorem shorten_of_le (h : text.length ≤ length) : shorten length ellipsis text = text := if_pos h

theorem shorten_of_lt (h : length < text.length) :
    shorten length ellipsis text = text.take (length - ellipsis.length) ++ ellipsis :=
  if_neg (Nat.not_le.mpr h)

/-- A text that is cut becomes as long as it may be, or as long as the ellipsis if that is
longer. -/
theorem length_shorten_of_lt (h : length < text.length) :
    (shorten length ellipsis text).length = max length ellipsis.length := by
  rw [shorten_of_lt h, List.length_append, List.length_take]
  omega

/-- An ellipsis that is longer than the limit stands alone. -/
theorem shorten_of_lt_ellipsis (h : length < text.length) (hellipsis : length < ellipsis.length) :
    shorten length ellipsis text = ellipsis := by
  rw [shorten_of_lt h, Nat.sub_eq_zero_of_le hellipsis.le, List.take_zero, List.nil_append]

/-- Cutting a second time changes nothing: the first cut left no more than the length, or just the
ellipsis. -/
theorem shorten_shorten (length : Nat) (ellipsis text : List Char) :
    shorten length ellipsis (shorten length ellipsis text) = shorten length ellipsis text := by
  rcases Nat.lt_or_ge length text.length with h | h
  · rcases Nat.lt_or_ge length ellipsis.length with hellipsis | hellipsis
    · -- the result is the ellipsis, which is shortened to itself
      rw [shorten_of_lt_ellipsis h hellipsis, shorten_of_lt_ellipsis hellipsis hellipsis]
    · have hlength : (shorten length ellipsis text).length = max length ellipsis.length :=
        length_shorten_of_lt h
      exact shorten_of_le (by omega)
  · rw [shorten_of_le h, shorten_of_le h]

end Text

/-! ## The filter -/

/-- What `truncate` makes of a text. -/
theorem apply_truncate (s : String) (args : List Value) :
    apply .truncate (.string s) args =
      .string (String.ofList (shorten (shortenedLength (arg args 0))
        (textArg args 1 ['.', '.', '.']) s.toList)) := rfl

/-- The limit of `truncate` is fifty characters unless its first argument counts as an integer, and
never negative. A text within the limit is left as it is. A longer one becomes a beginning of itself
with the ellipsis behind it, together as long as the limit allows or, if the ellipsis is longer, as
long as the ellipsis. A second `truncate` with the same arguments changes nothing. -/
theorem truncate_shortens (s : String) (args : List Value) :
    let ellipsis := textArg args 1 ['.', '.', '.']
    ∃ (limit : Nat) (result : String),
      (∀ n, (arg args 0).CountsAs n → (limit : Int) = max n 0) ∧
      ((∀ n, ¬ (arg args 0).CountsAs n) → limit = 50) ∧
      apply .truncate (.string s) args = .string result ∧
      (s.length ≤ limit → result = s) ∧
      (limit < s.length → ∃ front, front <+: s.toList ∧ result.toList = front ++ ellipsis ∧
        result.length = max limit ellipsis.length) ∧
      apply .truncate (.string result) args = .string result := by
  intro ellipsis
  let limit := shortenedLength (arg args 0)
  refine ⟨limit, String.ofList (shorten limit ellipsis s.toList),
    fun n => shortenedLength_of_countsAs, shortenedLength_of_not_countsAs, apply_truncate s args,
    fun h => ?_, fun h => ?_, ?_⟩
  · rw [shorten_of_le (String.length_toList.trans_le h), String.ofList_toList]
  · have hlong : limit < s.toList.length := h.trans_eq String.length_toList.symm
    refine ⟨s.toList.take (limit - ellipsis.length), List.take_prefix _ _, ?_, ?_⟩
    · rw [String.toList_ofList, shorten_of_lt hlong]
    · rw [String.length_ofList, length_shorten_of_lt hlong]
  · rw [apply_truncate, String.toList_ofList, shorten_shorten]

/-- A negative limit counts as zero, so that the ellipsis is all that is left of a text. -/
theorem truncate_shortens_to_ellipsis :
    (Value.number (.int (-3))).CountsAs (-3) ∧
      apply .truncate (.string "é") [.number (.int (-3)), .string ".."] = .string ".." ∧
      (".." : String).length = max 0 2 ∧
      apply .truncate (.string "..") [.number (.int (-3)), .string ".."] = .string ".." := by
  have hcounts : (Value.number (.int (-3))).CountsAs (-3) := .exact (.number (by decide))
  obtain ⟨limit, result, hlimit, -, happly, -, hlong, hagain⟩ :=
    truncate_shortens "é" [.number (.int (-3)), .string ".."]
  obtain rfl : limit = 0 := by
    have hzero : (limit : Int) = max (-3) 0 := hlimit (-3) hcounts
    omega
  obtain rfl : ".." = result := Value.string.inj happly
  obtain ⟨front, -, -, hlength⟩ := hlong (by decide)
  exact ⟨hcounts, happly, hlength, hagain⟩

end TextTemplate.Filter
