import TextTemplate.Proofs.Value.Comparison
/-! # Arrays without repetitions

The `uniq` filter reads an array from the left and keeps an element unless it equals one that is
kept already. Equality is not transitive: a floating-point value may equal two whole numbers that
are apart, so that the order of the elements decides which of them are kept. Main statement: what is
kept has no two equal elements, and every element equals one that is kept and stands no later.
-/

namespace TextTemplate.Filter

/-- What is kept of a list, with the places at which it stands: they increase, and every element
equals the one at such a place that is not behind it. -/
structure Represents (items kept : List Value) (places : List Nat) : Prop where
  increasing : places.Pairwise (· < ·)
  found : places.map (items[·]?) = kept.map some
  covered : ∀ (i : Nat) (item : Value), items[i]? = some item →
    ∃ j ∈ places, j ≤ i ∧
      ∃ other, items[j]? = some other ∧ other.equal item = true ∧ item.equal other = true

/-! ## Reading on -/

/-- Behind a first part, reading goes on with all that was seen before and is kept of it. -/
theorem distinctFrom_append (seen first second : List Value) :
    distinctFrom seen (first ++ second) =
      distinctFrom seen first ++ distinctFrom (seen ++ distinctFrom seen first) second := by
  induction first generalizing seen with
  | nil => simp [distinctFrom]
  | cons item rest ih =>
      simp only [List.cons_append, distinctFrom]
      split
      · exact ih seen
      · rw [ih, List.cons_append, List.append_assoc, List.singleton_append]

/-- One more item is kept if it equals none of those that were kept before. -/
theorem distinct_append_singleton (items : List Value) (item : Value) :
    distinct (items ++ [item]) =
      if (distinct items).any fun value => value.equal item then distinct items
      else distinct items ++ [item] := by
  have hfront : distinct (items ++ [item]) =
      distinct items ++ distinctFrom (distinct items) [item] := distinctFrom_append [] items [item]
  rw [hfront, distinctFrom]
  split
  · exact List.append_nil _
  · rfl

namespace Represents

variable {items kept : List Value} {places : List Nat} {item : Value}

theorem lt_length (h : Represents items kept places) {j : Nat} (hj : j ∈ places) :
    j < items.length := by
  have hmem : items[j]? ∈ kept.map some := h.found ▸ List.mem_map_of_mem hj
  obtain ⟨value, -, heq⟩ := List.mem_map.mp hmem
  exact (List.getElem?_eq_some_iff.mp heq.symm).1

/-- The places still lead to what is kept when more is read. -/
theorem found_append (h : Represents items kept places) :
    places.map ((items ++ [item])[·]?) = kept.map some := by
  rw [← h.found]
  exact List.map_congr_left fun j hj => List.getElem?_append_left (h.lt_length hj)

/-- It is enough to find a place for the element that is read. -/
theorem covered_append (h : Represents items kept places) {more : List Nat}
    (hmore : ∀ j ∈ places, j ∈ more)
    (hlast : ∃ j ∈ more, ∃ other, (items ++ [item])[j]? = some other ∧
      other.equal item = true ∧ item.equal other = true)
    (i : Nat) (value : Value) (hi : (items ++ [item])[i]? = some value) :
    ∃ j ∈ more, j ≤ i ∧ ∃ other, (items ++ [item])[j]? = some other ∧
      other.equal value = true ∧ value.equal other = true := by
  have hbound : ∀ {k : Nat} {other : Value}, (items ++ [item])[k]? = some other →
      k ≤ items.length := by
    intro k other hk
    have hlt := (List.getElem?_eq_some_iff.mp hk).1
    rw [List.length_append, List.length_singleton] at hlt
    exact Nat.le_of_lt_succ hlt
  rcases (hbound hi).lt_or_eq with hlt | rfl
  · rw [List.getElem?_append_left hlt] at hi
    obtain ⟨j, hj, hle, other, hother, hequal⟩ := h.covered i value hi
    refine ⟨j, hmore j hj, hle, other, ?_, hequal⟩
    rw [List.getElem?_append_left (h.lt_length hj), hother]
  · obtain rfl : item = value := by simpa using hi
    obtain ⟨j, hj, other, hother, hequal⟩ := hlast
    exact ⟨j, hj, hbound hother, other, hother, hequal⟩

/-- An element that equals one that is kept is passed over. -/
theorem pass (h : Represents items kept places) {other : Value} (hmem : other ∈ kept)
    (hequal : other.equal item = true) (hequal' : item.equal other = true) :
    Represents (items ++ [item]) kept places where
  increasing := h.increasing
  found := h.found_append
  covered := by
    refine h.covered_append (fun _ hj => hj) ?_
    have hfound : some other ∈ places.map ((items ++ [item])[·]?) :=
      h.found_append ▸ List.mem_map_of_mem hmem
    obtain ⟨j, hj, hother⟩ := List.mem_map.mp hfound
    exact ⟨j, hj, other, hother, hequal, hequal'⟩

/-- An element that is kept stands for itself. -/
theorem keep (h : Represents items kept places) (hself : item.equal item = true) :
    Represents (items ++ [item]) (kept ++ [item]) (places ++ [items.length]) where
  increasing := by
    refine List.pairwise_append.mpr ⟨h.increasing, List.pairwise_singleton _ _, ?_⟩
    intro j hj last hlast
    rw [List.mem_singleton.mp hlast]
    exact h.lt_length hj
  found := by
    rw [List.map_append, List.map_append, h.found_append]
    simp
  covered := by
    refine h.covered_append (fun _ hj => List.mem_append_left _ hj) ?_
    exact ⟨items.length, by simp, item, by simp, hself, hself⟩

end Represents

/-! ## A whole array -/

/-- What is kept while an array is read represents all that was read. -/
theorem exists_represents_distinct {items : List Value} (h : ∀ item ∈ items, item.Proper) :
    ∃ places, Represents items (distinct items) places := by
  -- on what has been read: the elements kept so far represent it
  induction items using List.reverseRecOn with
  | nil => exact ⟨[], .nil, rfl, fun _ _ hi => nomatch hi⟩
  | append_singleton items item ih =>
      have hitem : item.Proper := h item (by simp)
      obtain ⟨places, hplaces⟩ := ih fun other hmem => h other (List.mem_append_left _ hmem)
      rw [distinct_append_singleton]
      split
      next hold =>
        obtain ⟨other, hmem, hequal⟩ := List.any_eq_true.mp hold
        have hother : other ∈ items := (distinctFrom_sublist [] items).mem hmem
        have hproper : other.Proper := h other (List.mem_append_left _ hother)
        exact ⟨places, hplaces.pass hmem hequal (Value.equal_symm hproper hitem hequal)⟩
      next => exact ⟨_, hplaces.keep (Value.equal_self hitem)⟩

/-- A list without equal elements is kept as it stands, also behind others that equal none of its
elements. -/
theorem distinctFrom_of_pairwise {seen items : List Value}
    (h : (seen ++ items).Pairwise fun a b => a.equal b = false) :
    distinctFrom seen items = items := by
  induction items generalizing seen with
  | nil => rfl
  | cons item rest ih =>
      have hnew : ¬ (seen.any fun value => value.equal item) = true := by
        rw [List.any_eq_true]
        rintro ⟨value, hmem, hequal⟩
        have hne := (List.pairwise_append.mp h).2.2 value hmem item List.mem_cons_self
        rw [hequal] at hne
        cases hne
      rw [distinctFrom, if_neg hnew, ih (by simpa using h)]

/-- Items without repetition stay as they are. -/
theorem distinct_distinct (items : List Value) : distinct (distinct items) = distinct items :=
  distinctFrom_of_pairwise (pairwise_distinctFrom [] items)

/-- Of an array of the data model, `uniq` keeps elements of which no two are equal, whichever stands
first. Every element of the array equals one that is kept and stands in its place or before it. A
second `uniq` changes nothing. -/
theorem uniq_represents {items : List Value} (h : (Value.array items).Proper) (args : List Value) :
    ∃ kept places, apply .uniq (.array items) args = .array kept ∧
      kept.Sublist items ∧
      (kept.Pairwise fun a b => a.equal b = false ∧ b.equal a = false) ∧
      Represents items kept places ∧
      ∀ args', apply .uniq (.array kept) args' = .array kept := by
  have hproper : ∀ item ∈ items, item.Proper := fun _ => h.of_mem
  have hsublist : (distinct items).Sublist items := distinctFrom_sublist [] items
  obtain ⟨places, hplaces⟩ := exists_represents_distinct hproper
  refine ⟨distinct items, places, rfl, hsublist, ?_, hplaces,
    fun _ => congrArg Value.array (distinct_distinct items)⟩
  refine (pairwise_distinctFrom [] items).imp_of_mem fun {a b} ha hb hne => ⟨hne, ?_⟩
  rw [← Value.equal_comm (hproper a (hsublist.mem ha)) (hproper b (hsublist.mem hb))]
  exact hne

/-- The floating-point value `2 ^ 53` equals the whole numbers `2 ^ 53 + 1` and `2 ^ 53`, which are
apart: behind the two it is passed over. -/
theorem uniq_represents_rounded :
    let next := Value.number (.int 9007199254740993)
    let whole := Value.number (.int 9007199254740992)
    let rounded := Value.number (.float ⟨false, 4503599627370496, 1⟩)
    (Value.array [next, whole, rounded]).Proper ∧
      apply .uniq (.array [next, whole, rounded]) [] = .array [next, whole] ∧
      next.equal rounded = true ∧ rounded.equal whole = true ∧
      next.equal whole = false ∧ whole.equal next = false ∧
      apply .uniq (.array [next, whole]) [] = .array [next, whole] := by
  intro next whole rounded
  have hproper : (Value.array [next, whole, rounded]).Proper := by
    refine ⟨1, fun item hmem => ?_⟩
    simp only [List.mem_cons, List.not_mem_nil, or_false] at hmem
    obtain rfl | rfl | rfl := hmem <;> simp [next, whole, rounded, Number.Fits]
  have hnext : next.equal rounded = true := by decide +kernel
  have hwhole : rounded.equal whole = true := by decide +kernel
  have huniq : apply .uniq (.array [next, whole, rounded]) [] = .array [next, whole] := by
    have hnew : next.equal whole = false := by decide +kernel
    simp [apply, mapArray, distinct, distinctFrom, hnew, hnext]
  obtain ⟨kept, places, hkept, -, hapart, -, hagain⟩ := uniq_represents hproper []
  rw [huniq, Value.array.injEq] at hkept
  subst hkept
  obtain ⟨hne, hne'⟩ := List.rel_of_pairwise_cons hapart (List.mem_singleton_self whole)
  exact ⟨hproper, huniq, hnext, hwhole, hne, hne', hagain []⟩

end TextTemplate.Filter
