import Mathlib.Algebra.Group.Int.Defs
import TextTemplate.Proofs.Number.Digits
import TextTemplate.Text.Blank
/-! # The texts that read as numbers

What an integer and a floating-point number look like in a text, said without the readers. Main
statements: the readers take these texts and no others, and the text of an integer reads as the
floating-point value nearest to it.
-/

namespace TextTemplate.Numeral

open Text

/-! ## Digits -/

theorem not_isSign_of_isDigit {c : Char} (h : isDigit c = true) : c ≠ '+' ∧ c ≠ '-' :=
  ⟨ne_of_isDigit h rfl, ne_of_isDigit h rfl⟩

/-- A run of digits with at least one of them. -/
def IsDigits (text : List Char) : Prop := text ≠ [] ∧ ∀ c ∈ text, isDigit c = true

theorem isDigits_iff {text : List Char} :
    IsDigits text ↔ (text.isEmpty || !text.all isDigit) = false := by
  simp [IsDigits]

/-! ## Signs -/

/-- A sign in front of a number, if there is one, and whether it is a minus sign. -/
inductive IsSign : List Char → Bool → Prop
  | none : IsSign [] false
  | plus : IsSign ['+'] false
  | minus : IsSign ['-'] true

/-- Whether no sign stands in front of a text. -/
def Unsigned (text : List Char) : Prop := ∀ c ∈ text.head?, c ≠ '+' ∧ c ≠ '-'

/-- A sign in front of an unsigned text is read as that sign. -/
theorem sign_append {mark body : List Char} {negative : Bool} (hmark : IsSign mark negative)
    (hbody : Unsigned body) : sign (mark ++ body) = (negative, body) := by
  cases hmark with
  | plus => rfl
  | minus => rfl
  | none =>
      cases body with
      | nil => rfl
      | cons c rest =>
          obtain ⟨hplus, hminus⟩ := hbody c rfl
          rw [List.nil_append, sign]
          · rintro _ ⟨⟩
            exact hminus rfl
          · rintro _ ⟨⟩
            exact hplus rfl

/-- Every text has a sign in front, if only the empty one. -/
theorem exists_sign (text : List Char) :
    ∃ mark, IsSign mark (sign text).1 ∧ text = mark ++ (sign text).2 := by
  unfold sign
  split
  · exact ⟨_, .minus, rfl⟩
  · exact ⟨_, .plus, rfl⟩
  · exact ⟨_, .none, rfl⟩

/-- A number of a size, with its sign. -/
def signed (negative : Bool) (size : Nat) : Int := if negative then -size else size

/-! ## Integers -/

/-- The texts of integers: a sign, if there is one, and digits, with leading zeros or without. -/
inductive WritesInt : List Char → Int → Prop
  | intro {mark body : List Char} {negative : Bool} (hmark : IsSign mark negative)
      (hbody : IsDigits body) : WritesInt (mark ++ body) (signed negative (value body))

/-- The range of 64 bits. -/
theorem fitsInt64_iff {n : Int} : fitsInt64 n = true ↔ -2 ^ 63 ≤ n ∧ n < 2 ^ 63 := by
  have hleast : Binary64.leastInt64 = -2 ^ 63 := rfl
  have hgreatest : Binary64.greatestInt64 = 2 ^ 63 - 1 := rfl
  rw [fitsInt64, decide_eq_true_iff, hleast, hgreatest]
  omega

theorem not_fitsInt64_of_le {n : Int} (h : 2 ^ 63 ≤ n) : ¬ fitsInt64 n = true :=
  fun hfits => Int.not_lt.mpr h (fitsInt64_iff.mp hfits).2

theorem IsDigits.unsigned {body : List Char} (h : IsDigits body) : Unsigned body :=
  fun c hc => not_isSign_of_isDigit (h.2 c (List.mem_of_mem_head? hc))

theorem readInt64?_eq (text : List Char) :
    readInt64? text =
      if ((sign text).2.isEmpty || !(sign text).2.all isDigit) = true then none
      else
        if fitsInt64 (signed (sign text).1 (value (sign text).2)) = true then
          some (signed (sign text).1 (value (sign text).2))
        else none := rfl

/-- Integers of 64 bits are read from their texts. -/
theorem readInt64?_eq_some_iff {text : List Char} {n : Int} :
    readInt64? text = some n ↔ WritesInt text n ∧ fitsInt64 n = true := by
  constructor
  · intro h
    obtain ⟨mark, hmark, htext⟩ := exists_sign text
    rw [readInt64?_eq] at h
    split at h
    · cases h
    next hbody =>
      split at h
      next hfits =>
        obtain rfl := Option.some.inj h
        have hdigits := isDigits_iff.mpr (Bool.eq_false_iff.mpr hbody)
        refine ⟨?_, hfits⟩
        conv => arg 1; rw [htext]
        exact .intro hmark hdigits
      next => cases h
  · rintro ⟨⟨hmark, hbody⟩, hfits⟩
    rw [readInt64?_eq, sign_append hmark hbody.unsigned, isDigits_iff.mp hbody, if_neg nofun,
      if_pos hfits]

/-! ## Floating-point numbers -/

/-- The digits behind the point of a number, and the point; a number without a fraction has
neither. -/
inductive WritesFraction : List Char → List Char → Prop
  | none : WritesFraction [] []
  | some {fraction : List Char} (hdigits : ∀ c ∈ fraction, isDigit c = true) :
      WritesFraction ('.' :: fraction) fraction

/-- The exponent of a number, if it is written: the letter `e` and an integer of any size. -/
inductive WritesExponent : List Char → Int → Prop
  | none : WritesExponent [] 0
  | some {c : Char} {rest : List Char} {n : Int} (hletter : c = 'e' ∨ c = 'E')
      (hrest : WritesInt rest n) : WritesExponent (c :: rest) n

/-- A word for infinity. -/
def IsInfinity (text : List Char) : Prop :=
  spells ['i', 'n', 'f'] text = true ∨ spells ['i', 'n', 'f', 'i', 'n', 'i', 't', 'y'] text = true

/-- The texts of floating-point numbers and their values: a sign, if there is one, and a word for
infinity or for no number in letters of either case, or digits with a point among them and an
exponent behind them or without. -/
inductive Writes : List Char → Binary64 → Prop
  | infinity {mark word : List Char} {negative : Bool} (hmark : IsSign mark negative)
      (hword : IsInfinity word) : Writes (mark ++ word) (.infinite negative)
  | nan {mark word : List Char} {negative : Bool} (hmark : IsSign mark negative)
      (hword : spells ['n', 'a', 'n'] word = true) : Writes (mark ++ word) .nan
  | decimal {mark whole point fraction tail : List Char} {negative : Bool} {exponent : Int}
      (hmark : IsSign mark negative) (hwhole : ∀ c ∈ whole, isDigit c = true)
      (hfraction : WritesFraction point fraction) (hsome : whole ++ fraction ≠ [])
      (hexponent : WritesExponent tail exponent) :
      Writes (mark ++ (whole ++ (point ++ tail)))
        (.ofDecimal negative (value (whole ++ fraction)) (exponent - fraction.length))

/-- An exponent is read exactly from the texts that write one. -/
theorem readExponent?_eq_some_iff {text : List Char} {n : Int} :
    readExponent? text = some n ↔ WritesExponent text n := by
  constructor
  · intro h
    cases text with
    | nil =>
        obtain rfl := Option.some.inj h
        exact .none
    | cons c rest =>
        obtain ⟨mark, hmark, hrest⟩ := exists_sign rest
        simp only [readExponent?] at h
        split at h
        next hletter =>
          split at h
          · cases h
          next hbody =>
            obtain rfl := Option.some.inj h
            refine .some hletter ?_
            conv => arg 1; rw [hrest]
            exact .intro hmark (isDigits_iff.mpr (Bool.eq_false_iff.mpr hbody))
        next => cases h
  · intro h
    cases h with
    | none => rfl
    | some hletter hrest =>
        obtain ⟨hmark, hbody⟩ := hrest
        simp only [readExponent?, if_pos hletter, sign_append hmark hbody.unsigned,
          isDigits_iff.mp hbody]
        rfl

/-- The digits behind a point at the start of a text, and what follows them. -/
def fractionOf : List Char → List Char × List Char
  | '.' :: rest => (rest.takeWhile isDigit, rest.dropWhile isDigit)
  | rest => ([], rest)

/-- The reading of a float, case by case: the words for infinity and for no number, nothing without
digits, and decimals. -/
theorem readBinary64?_eq (text : List Char) :
    readBinary64? text =
      let body := (sign text).2
      let behind := fractionOf (body.dropWhile isDigit)
      if (spells ['i', 'n', 'f'] body ||
          spells ['i', 'n', 'f', 'i', 'n', 'i', 't', 'y'] body) = true
      then some (.infinite (sign text).1)
      else if spells ['n', 'a', 'n'] body = true then some .nan
      else if ((body.takeWhile isDigit).isEmpty && behind.1.isEmpty) = true then none
      else
        (readExponent? behind.2).map fun exponent =>
          .ofDecimal (sign text).1 (value (body.takeWhile isDigit ++ behind.1))
            (exponent - behind.1.length) := by
  unfold readBinary64? fractionOf
  rfl

/-! ### How the pieces follow each other -/

theorem span_digits {digits rest : List Char} (hdigits : ∀ c ∈ digits, isDigit c = true)
    (hrest : ∀ c ∈ rest.head?, isDigit c = false) :
    (digits ++ rest).takeWhile isDigit = digits ∧ (digits ++ rest).dropWhile isDigit = rest := by
  rw [List.takeWhile_append_of_pos hdigits, List.dropWhile_append_of_pos hdigits]
  cases rest with
  | nil => simp
  | cons c rest => simp [hrest c rfl]

theorem isDigit_of_mem_takeWhile {text : List Char} {c : Char}
    (h : c ∈ text.takeWhile isDigit) : isDigit c = true :=
  List.all_eq_true.mp List.all_takeWhile c h

theorem WritesExponent.head {tail : List Char} {n : Int} (h : WritesExponent tail n) :
    ∀ c ∈ tail.head?, isDigit c = false ∧ c ≠ '.' := by
  intro c hc
  cases h with
  | none => cases hc
  | some hletter _ =>
      obtain rfl := Option.some.inj hc
      rcases hletter with rfl | rfl <;> decide

/-- The fraction behind a point ends where the exponent starts. -/
theorem fractionOf_append {point fraction tail : List Char} {n : Int}
    (hfraction : WritesFraction point fraction) (hexponent : WritesExponent tail n) :
    fractionOf (point ++ tail) = (fraction, tail) := by
  cases hfraction with
  | some hdigits =>
      obtain ⟨htake, hdrop⟩ := span_digits hdigits fun c hc => (hexponent.head c hc).1
      simp only [List.cons_append, fractionOf, htake, hdrop]
  | none =>
      cases tail with
      | nil => rfl
      | cons c rest =>
          rw [List.nil_append, fractionOf]
          rintro _ ⟨⟩
          exact (hexponent.head '.' rfl).2 rfl

/-- The fraction that is read is one that the text writes. -/
theorem exists_fraction (text : List Char) :
    ∃ point, WritesFraction point (fractionOf text).1 ∧ text = point ++ (fractionOf text).2 := by
  unfold fractionOf
  split
  next rest =>
    exact ⟨_, .some fun _ => isDigit_of_mem_takeWhile, by simp⟩
  next => exact ⟨_, .none, rfl⟩

theorem exists_of_spells {letter : Char} {word text : List Char}
    (h : spells (letter :: word) text = true) :
    ∃ c rest, text = c :: rest ∧ c.toLower = letter := by
  cases text with
  | nil => cases h
  | cons c rest =>
      simp only [spells, List.map_cons, beq_iff_eq, List.cons.injEq] at h
      exact ⟨c, rest, rfl, h.1⟩

/-- What begins with a letter begins with no sign. -/
theorem unsigned_of_spells {letter : Char} {word text : List Char}
    (hplus : letter ≠ '+') (hminus : letter ≠ '-') (h : spells (letter :: word) text = true) :
    Unsigned text := by
  obtain ⟨c, rest, rfl, hc⟩ := exists_of_spells h
  rintro _ ⟨⟩
  constructor
  · rintro rfl
    exact hplus hc.symm
  · rintro rfl
    exact hminus hc.symm

theorem IsInfinity.unsigned {text : List Char} (h : IsInfinity text) : Unsigned text := by
  rcases h with h | h <;> exact unsigned_of_spells (by decide) (by decide) h

/-- Digits with a point among them begin with a digit or with the point. -/
theorem head_decimal {whole point fraction : List Char} (tail : List Char)
    (hwhole : ∀ c ∈ whole, isDigit c = true) (hfraction : WritesFraction point fraction)
    (hsome : whole ++ fraction ≠ []) :
    ∃ c rest, whole ++ (point ++ tail) = c :: rest ∧ (isDigit c = true ∨ c = '.') := by
  cases whole with
  | cons c whole => exact ⟨c, _, rfl, .inl (hwhole c List.mem_cons_self)⟩
  | nil =>
      cases hfraction with
      | none => exact absurd rfl hsome
      | some _ => exact ⟨'.', _, rfl, .inr rfl⟩

/-- What starts with a digit or a point spells neither infinity nor the absence of a number. -/
theorem not_spells_decimal {letter : Char} {word text : List Char} {c : Char}
    (hc : isDigit c = true ∨ c = '.') (hletter : letter = 'i' ∨ letter = 'n') :
    spells (letter :: word) (c :: text) = false := by
  rw [← Bool.not_eq_true]
  intro h
  obtain ⟨_, _, ⟨⟩, hlower⟩ := exists_of_spells h
  have hnot : c.toLower ≠ 'i' ∧ c.toLower ≠ 'n' := by
    rcases hc with hc | rfl
    · exact of_isDigit (P := fun c => c.toLower ≠ 'i' ∧ c.toLower ≠ 'n') (by decide) hc
    · decide
  rcases hletter with rfl | rfl
  · exact hnot.1 hlower
  · exact hnot.2 hlower

/-- A decimal is read as the float nearest to what its digits write, scaled by its exponent. -/
theorem readBinary64?_decimal {mark whole point fraction tail : List Char} {negative : Bool}
    {exponent : Int} (hmark : IsSign mark negative) (hwhole : ∀ c ∈ whole, isDigit c = true)
    (hfraction : WritesFraction point fraction) (hsome : whole ++ fraction ≠ [])
    (hexponent : WritesExponent tail exponent) :
    readBinary64? (mark ++ (whole ++ (point ++ tail))) =
      some (.ofDecimal negative (value (whole ++ fraction)) (exponent - fraction.length)) := by
  obtain ⟨c, rest, hbody, hc⟩ := head_decimal tail hwhole hfraction hsome
  have hunsigned : Unsigned (whole ++ (point ++ tail)) := by
    rw [hbody]
    rintro _ ⟨⟩
    rcases hc with hc | rfl
    · exact not_isSign_of_isDigit hc
    · decide
  -- the digits in front of the point end where the point, the exponent or nothing follows
  have hhead : ∀ d ∈ (point ++ tail).head?, isDigit d = false := by
    intro d hd
    cases hfraction with
    | none => exact (hexponent.head d hd).1
    | some _ =>
        obtain rfl := Option.some.inj hd
        rfl
  obtain ⟨htake, hdrop⟩ := span_digits hwhole hhead
  rw [readBinary64?_eq, sign_append hmark hunsigned]
  simp only [htake, hdrop, fractionOf_append hfraction hexponent,
    readExponent?_eq_some_iff.mpr hexponent]
  -- no word for infinity or for no number begins with a digit or a point
  rw [hbody, not_spells_decimal hc (.inl rfl), not_spells_decimal hc (.inl rfl),
    not_spells_decimal hc (.inr rfl)]
  have hpieces : (whole.isEmpty && fraction.isEmpty) = false := by
    simpa [← Bool.not_eq_true] using hsome
  simp [hpieces]

/-- Floating-point numbers are read from their texts. -/
theorem readBinary64?_eq_some_iff {text : List Char} {x : Binary64} :
    readBinary64? text = some x ↔ Writes text x := by
  constructor
  · intro h
    obtain ⟨mark, hmark, htext⟩ := exists_sign text
    rw [readBinary64?_eq] at h
    dsimp only at h
    rw [htext]
    split at h
    next hword =>
      obtain rfl := Option.some.inj h
      exact .infinity hmark (by simpa [IsInfinity] using hword)
    split at h
    next hword =>
      obtain rfl := Option.some.inj h
      exact .nan hmark hword
    split at h
    next => cases h
    next hsome =>
      obtain ⟨exponent, hexponent, rfl⟩ := Option.map_eq_some_iff.mp h
      obtain ⟨point, hfraction, hbehind⟩ :=
        exists_fraction ((sign text).2.dropWhile isDigit)
      have hbody : (sign text).2 = (sign text).2.takeWhile isDigit ++
          (point ++ (fractionOf ((sign text).2.dropWhile isDigit)).2) := by
        rw [← hbehind, List.takeWhile_append_dropWhile]
      conv => arg 1; rw [hbody]
      refine .decimal hmark (fun _ => isDigit_of_mem_takeWhile) hfraction ?_
        (readExponent?_eq_some_iff.mp hexponent)
      simpa using hsome
  · intro h
    cases h with
    | infinity hmark hword =>
        rw [readBinary64?_eq, sign_append hmark hword.unsigned]
        exact if_pos (by simpa [IsInfinity] using hword)
    | nan hmark hword =>
        rw [readBinary64?_eq,
          sign_append hmark (unsigned_of_spells (by decide) (by decide) hword)]
        -- the words for infinity are tried first, and begin with another letter
        obtain ⟨c, rest, rfl, hc⟩ := exists_of_spells hword
        have hnot : ∀ word, spells ('i' :: word) (c :: rest) = false := by
          intro word
          rw [← Bool.not_eq_true]
          intro hother
          obtain ⟨_, _, ⟨⟩, hi⟩ := exists_of_spells hother
          cases hc.symm.trans hi
        simp [hnot, hword]
    | decimal hmark hwhole hfraction hsome hexponent =>
        exact readBinary64?_decimal hmark hwhole hfraction hsome hexponent

/-! ## No white space -/

theorem toLower_of_isBlank {c : Char} (h : isBlank c = true) : c.toLower = c := by
  refine dif_neg ?_
  rintro ⟨hlow, hhigh⟩
  have hlow' : 65 ≤ c.toNat := UInt32.le_iff_toNat_le.mp hlow
  have hhigh' : c.toNat ≤ 90 := UInt32.le_iff_toNat_le.mp hhigh
  simp [isBlank, inRanges, blankRanges] at h
  omega

/-- Nothing that spells a word has blanks in it. -/
theorem not_isBlank_of_spells {word text : List Char} (hword : word.any isBlank = false)
    (h : spells word text = true) : ∀ c ∈ text, isBlank c = false := by
  intro c hc
  rw [← Bool.not_eq_true]
  intro hblank
  have hmem : c.toLower ∈ word := by
    rw [← beq_iff_eq.mp h]
    exact List.mem_map_of_mem hc
  rw [toLower_of_isBlank hblank] at hmem
  exact List.any_eq_false.mp hword c hmem hblank

theorem not_isBlank_of_isDigit {c : Char} (h : isDigit c = true) : isBlank c = false :=
  of_isDigit (P := fun c => isBlank c = false) (by decide) h

theorem IsSign.not_isBlank {mark : List Char} {negative : Bool} (h : IsSign mark negative) :
    ∀ c ∈ mark, isBlank c = false := by
  cases h with
  | none => exact nofun
  | plus => exact List.forall_mem_singleton.mpr rfl
  | minus => exact List.forall_mem_singleton.mpr rfl

theorem WritesInt.not_isBlank {text : List Char} {n : Int} (h : WritesInt text n) :
    ∀ c ∈ text, isBlank c = false := by
  obtain ⟨hmark, hbody⟩ := h
  exact List.forall_mem_append.mpr
    ⟨hmark.not_isBlank, fun c hc => not_isBlank_of_isDigit (hbody.2 c hc)⟩

theorem WritesFraction.not_isBlank {point fraction : List Char}
    (h : WritesFraction point fraction) : ∀ c ∈ point, isBlank c = false := by
  cases h with
  | none => exact nofun
  | some hdigits =>
      exact List.forall_mem_cons.mpr ⟨rfl, fun c hc => not_isBlank_of_isDigit (hdigits c hc)⟩

theorem WritesExponent.not_isBlank {tail : List Char} {n : Int} (h : WritesExponent tail n) :
    ∀ c ∈ tail, isBlank c = false := by
  cases h with
  | none => exact nofun
  | some hletter hrest =>
      refine List.forall_mem_cons.mpr ⟨?_, hrest.not_isBlank⟩
      rcases hletter with rfl | rfl <;> rfl

/-- No float is written with blanks. -/
theorem Writes.not_isBlank {text : List Char} {x : Binary64} (h : Writes text x) :
    ∀ c ∈ text, isBlank c = false := by
  cases h with
  | infinity hmark hword =>
      refine List.forall_mem_append.mpr ⟨hmark.not_isBlank, ?_⟩
      rcases hword with hword | hword <;> exact not_isBlank_of_spells rfl hword
  | nan hmark hword =>
      exact List.forall_mem_append.mpr
        ⟨hmark.not_isBlank, not_isBlank_of_spells rfl hword⟩
  | decimal hmark hwhole hfraction _ hexponent =>
      refine List.forall_mem_append.mpr ⟨hmark.not_isBlank, ?_⟩
      refine List.forall_mem_append.mpr ⟨fun c hc => not_isBlank_of_isDigit (hwhole c hc), ?_⟩
      exact List.forall_mem_append.mpr ⟨hfraction.not_isBlank, hexponent.not_isBlank⟩

/-! ## Integers as floating-point numbers -/

/-- Without an exponent a decimal is a ratio over one. -/
theorem ofDecimal_zero (negative : Bool) (n : Nat) :
    Binary64.ofDecimal negative n 0 = .ofRatio negative n 1 := by
  unfold Binary64.ofDecimal
  split
  next h => rw [h, Binary64.ofRatio, if_pos rfl]
  next =>
    -- the shortcuts for exponents out of range do not apply
    rw [if_neg (by decide), if_neg (by omega)]
    exact congrArg (Binary64.ofRatio negative · 1) (Nat.mul_one n)

/-- The text of an integer is that of the floating-point value nearest to it. Zero has the sign
that is written. -/
theorem WritesInt.writes {text : List Char} {n : Int} (h : WritesInt text n) :
    ∃ negative, (n ≠ 0 → negative = decide (n < 0)) ∧
      Writes text (.ofRatio negative n.natAbs 1) := by
  obtain @⟨mark, body, negative, hmark, hbody⟩ := h
  have hwrites := Writes.decimal hmark hbody.2 .none (by simpa using hbody.1) .none
  have hsize : (signed negative (value body)).natAbs = value body := by
    cases negative <;> simp [signed]
  rw [List.append_nil, List.append_nil, List.length_nil, Int.natCast_zero,
    Int.sub_zero, ofDecimal_zero] at hwrites
  refine ⟨negative, fun hne => ?_, ?_⟩
  · cases negative <;> simp [signed] at hne ⊢
    omega
  · rwa [hsize]

end TextTemplate.Numeral
