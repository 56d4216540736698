import Mathlib.Data.List.Basic
import TextTemplate.Sorting
/-! # Sifting

A stable sort moves an element in front of another only if it comes strictly before it. `Sifts` says
that one list is made from another by exchanges of such neighbours, and makes no assumption on the
comparison; `Sorts` says in addition that the result is in order. Each way in which a sort puts its
parts together is a fact about these two.
-/

namespace TextTemplate

namespace Sorting

variable {α : Type} {lt : α → α → Bool} {items sifted sorted : List α}

/-- Whether a comparison is consistent on the elements of a list: it has no cycle, and what is
between two elements that are equal is equal to them. -/
structure WeakOrder (lt : α → α → Bool) (items : List α) : Prop where
  asymm : ∀ a ∈ items, ∀ b ∈ items, lt a b = true → lt b a = false
  trans : ∀ a ∈ items, ∀ b ∈ items, ∀ c ∈ items,
    lt b a = false → lt c b = false → lt c a = false

/-- No element is behind one that it comes before. -/
def Ordered (lt : α → α → Bool) (items : List α) : Prop :=
  items.Pairwise fun a b => lt b a = false

/-- A list made from another by exchanges of neighbours of which the second comes before the
first. -/
inductive Sifts (lt : α → α → Bool) : List α → List α → Prop
  | refl (items : List α) : Sifts lt items items
  | cons (item : α) {items sifted : List α} :
      Sifts lt items sifted → Sifts lt (item :: items) (item :: sifted)
  | exchange {first second : α} (rest : List α) :
      lt second first = true → Sifts lt (first :: second :: rest) (second :: first :: rest)
  | trans {items between sifted : List α} :
      Sifts lt items between → Sifts lt between sifted → Sifts lt items sifted

/-- A stable sort of a list. -/
structure Sorts (lt : α → α → Bool) (items sorted : List α) : Prop where
  sifts : Sifts lt items sorted
  ordered : Ordered lt sorted

namespace WeakOrder

variable {a b c : α} (h : WeakOrder lt items)

include h

/-- A comparison that is consistent on a list is consistent on any part of it. -/
theorem subset {others : List α} (hsubset : others ⊆ items) : WeakOrder lt others where
  asymm a ha b hb := h.asymm a (hsubset ha) b (hsubset hb)
  trans a ha b hb c hc := h.trans a (hsubset ha) b (hsubset hb) c (hsubset hc)

/-- The opposite comparison is consistent too. -/
theorem flip : WeakOrder (fun a b => lt b a) items where
  asymm a ha b hb := h.asymm b hb a ha
  trans a ha b hb c hc hba hcb := h.trans c hc b hb a ha hcb hba

theorem lt_of_lt_of_le (ha : a ∈ items) (hb : b ∈ items) (hc : c ∈ items) (hab : lt a b = true)
    (hbc : lt c b = false) : lt a c = true := by
  by_contra hac
  rw [h.trans b hb c hc a ha hbc (by simpa using hac)] at hab
  cases hab

theorem lt_of_le_of_lt (ha : a ∈ items) (hb : b ∈ items) (hc : c ∈ items) (hab : lt b a = false)
    (hbc : lt b c = true) : lt a c = true :=
  h.flip.lt_of_lt_of_le hc hb ha hbc hab

end WeakOrder

namespace Ordered

theorem flip (h : Ordered lt items) : Ordered (fun a b => lt b a) items.reverse :=
  List.pairwise_reverse.mpr h

/-- Two ordered lists in a row are ordered if nothing behind comes before anything in front. -/
theorem append {before behind : List α} (hbefore : Ordered lt before) (hbehind : Ordered lt behind)
    (h : ∀ a ∈ before, ∀ b ∈ behind, lt b a = false) : Ordered lt (before ++ behind) :=
  List.pairwise_append.mpr ⟨hbefore, hbehind, h⟩

theorem take {n : Nat} (h : Ordered lt items) : Ordered lt (items.take n) :=
  h.sublist (List.take_sublist n items)

theorem drop {n : Nat} (h : Ordered lt items) : Ordered lt (items.drop n) :=
  h.sublist (List.drop_sublist n items)

theorem of_length_le_one (h : items.length ≤ 1) : Ordered lt items := by
  match items, h with
  | [], _ => exact List.Pairwise.nil
  | [item], _ => exact List.pairwise_singleton _ _

end Ordered

namespace Sifts

/-- A sift loses no element and adds none. -/
theorem perm (h : Sifts lt items sifted) : items.Perm sifted := by
  induction h with
  | refl items => exact .refl items
  | cons item _ ih => exact ih.cons item
  | exchange rest _ => exact .swap _ _ rest
  | trans _ _ ihFirst ihSecond => exact ihFirst.trans ihSecond

theorem mem_iff {item : α} (h : Sifts lt items sifted) : item ∈ items ↔ item ∈ sifted :=
  h.perm.mem_iff

theorem append_left (before : List α) (h : Sifts lt items sifted) :
    Sifts lt (before ++ items) (before ++ sifted) := by
  induction before with
  | nil => exact h
  | cons item rest ih => exact ih.cons item

theorem append_right (behind : List α) (h : Sifts lt items sifted) :
    Sifts lt (items ++ behind) (sifted ++ behind) := by
  induction h with
  | refl items => exact .refl _
  | cons item _ ih => exact ih.cons item
  | exchange rest hlt => exact .exchange (rest ++ behind) hlt
  | trans _ _ ihFirst ihSecond => exact ihFirst.trans ihSecond

/-- Parts can be sifted one by one. -/
theorem append {others siftedOthers : List α} (h : Sifts lt items sifted)
    (hothers : Sifts lt others siftedOthers) :
    Sifts lt (items ++ others) (sifted ++ siftedOthers) :=
  (h.append_right others).trans (hothers.append_left sifted)

/-- An element passes all those that it comes before. -/
theorem middle (item : α) (before behind : List α) (h : ∀ a ∈ before, lt item a = true) :
    Sifts lt (before ++ item :: behind) (item :: before ++ behind) := by
  induction before with
  | nil => exact .refl _
  | cons first rest ih =>
      obtain ⟨hfirst, hrest⟩ := List.forall_mem_cons.mp h
      exact ((ih hrest).cons first).trans (.exchange (rest ++ behind) hfirst)

/-- Two lists change places if every element of the second comes before every one of the first. -/
theorem append_comm {first second : List α} (h : ∀ a ∈ first, ∀ b ∈ second, lt b a = true) :
    Sifts lt (first ++ second) (second ++ first) := by
  induction second generalizing first with
  | nil => simpa using Sifts.refl first
  | cons item rest ih =>
      refine (middle item first rest fun a ha => h a ha item List.mem_cons_self).trans ?_
      exact (ih fun a ha b hb => h a ha b (List.mem_cons_of_mem item hb)).cons item

/-- Read from the end, the exchanges are those of the opposite comparison. -/
theorem reverse (h : Sifts lt items sifted) :
    Sifts (fun a b => lt b a) items.reverse sifted.reverse := by
  induction h with
  | refl items => exact .refl _
  | cons item _ ih =>
      rw [List.reverse_cons, List.reverse_cons]
      exact ih.append_right [item]
  | @exchange first second rest hlt =>
      have hback : Sifts (fun a b => lt b a) [second, first] [first, second] := .exchange [] hlt
      simp only [List.reverse_cons, List.append_assoc, List.singleton_append]
      exact hback.append_left rest.reverse
  | trans _ _ ihFirst ihSecond => exact ihFirst.trans ihSecond

/-- A strictly descending list is turned round. -/
theorem of_descending (h : items.Pairwise fun a b => lt b a = true) :
    Sifts lt items items.reverse := by
  induction items with
  | nil => exact .refl _
  | cons item rest ih =>
      obtain ⟨hitem, hrest⟩ := List.pairwise_cons.mp h
      have hlast : Sifts lt ([item] ++ rest.reverse) (rest.reverse ++ [item]) :=
        append_comm (by simpa using hitem)
      rw [List.reverse_cons]
      exact ((ih hrest).cons item).trans hlast

/-- A partition, if the elements with the property come before those without it. -/
theorem partition (p : α → Bool)
    (h : ∀ a ∈ items, ∀ b ∈ items, p a = true → p b = false → lt a b = true) :
    Sifts lt items (items.filter p ++ items.filter fun item => !p item) := by
  induction items with
  | nil => exact .refl _
  | cons item rest ih =>
      have hrest := ih fun a ha b hb =>
        h a (List.mem_cons_of_mem item ha) b (List.mem_cons_of_mem item hb)
      cases hitem : p item with
      | true => simpa [hitem] using hrest.cons item
      | false =>
          have hpass : Sifts lt ([item] ++ rest.filter p) (rest.filter p ++ [item]) := by
            refine append_comm fun a ha b hb => ?_
            obtain rfl := List.mem_singleton.mp ha
            obtain ⟨hb, hpb⟩ := List.mem_filter.mp hb
            exact h b (List.mem_cons_of_mem a hb) a List.mem_cons_self hpb hitem
          simpa [hitem] using (hrest.cons item).trans (hpass.append_right _)

end Sifts

/-! ## Insertion -/

/-- An element is inserted by exchanges with the greater ones in front of it. -/
theorem insertDescending_sifts (item : α) (descending : List α) :
    Sifts lt (descending.reverse ++ [item]) (insertDescending lt item descending).reverse := by
  induction descending with
  | nil => exact .refl _
  | cons greatest rest ih =>
      rw [insertDescending]
      split
      next hbefore =>
        have hpass : Sifts lt [greatest, item] [item, greatest] := .exchange [] hbefore
        simp only [List.reverse_cons, List.append_assoc, List.singleton_append]
        exact (hpass.append_left rest.reverse).trans (by simpa using ih.append_right [greatest])
      next =>
        have hlast : (item :: greatest :: rest).reverse = (greatest :: rest).reverse ++ [item] :=
          List.reverse_cons
        rw [hlast]
        exact .refl _

theorem insertAll_cons (sorted : List α) (item : α) (rest : List α) :
    insertAll lt sorted (item :: rest) =
      insertAll lt (insertDescending lt item sorted.reverse).reverse rest := by
  rw [insertAll, insertAll, List.reverse_reverse, List.foldl_cons]

/-- Inserting into an ordered list keeps it ordered. -/
theorem ordered_insertDescending {item : α} {descending : List α}
    (h : WeakOrder lt (item :: descending)) (hdescending : Ordered lt descending.reverse) :
    Ordered lt (insertDescending lt item descending).reverse := by
  rw [Ordered, List.pairwise_reverse] at hdescending ⊢
  induction descending with
  | nil => exact List.pairwise_singleton _ _
  | cons greatest rest ih =>
      obtain ⟨hle, hrest⟩ := List.pairwise_cons.mp hdescending
      have hitem : item ∈ item :: greatest :: rest := List.mem_cons_self
      have hgreatest : greatest ∈ item :: greatest :: rest :=
        List.mem_cons_of_mem item List.mem_cons_self
      rw [insertDescending]
      split
      next hbefore =>
        have hinserted := ih (h.subset (List.cons_subset_cons item (List.subset_cons_self _ _)))
          hrest
        refine List.pairwise_cons.mpr ⟨fun value hvalue => ?_, hinserted⟩
        have hsifts : Sifts lt (rest.reverse ++ [item]) (insertDescending lt item rest).reverse :=
          insertDescending_sifts item rest
        rw [← List.mem_reverse, ← hsifts.mem_iff] at hvalue
        rcases List.mem_append.mp hvalue with hvalue | hvalue
        · exact hle value (List.mem_reverse.mp hvalue)
        · obtain rfl := List.mem_singleton.mp hvalue
          exact h.asymm value hitem greatest hgreatest hbefore
      next hbefore =>
        have hbefore : lt item greatest = false := by simpa using hbefore
        refine List.pairwise_cons.mpr ⟨fun value hvalue => ?_, hdescending⟩
        rcases List.mem_cons.mp hvalue with rfl | hvalue
        · exact hbefore
        · have hmem := List.mem_cons_of_mem item (List.mem_cons_of_mem greatest hvalue)
          exact h.trans value hmem greatest hgreatest item hitem (hle value hvalue) hbefore

/-- Elements that are inserted into a sorted list are sorted with it. -/
theorem sorts_insertAll {sorted items : List α} (h : WeakOrder lt (sorted ++ items))
    (hsorted : Ordered lt sorted) : Sorts lt (sorted ++ items) (insertAll lt sorted items) := by
  induction items generalizing sorted with
  | nil => simpa [insertAll] using Sorts.mk (.refl sorted) hsorted
  | cons item rest ih =>
      let inserted := (insertDescending lt item sorted.reverse).reverse
      have hsifts : Sifts lt (sorted ++ [item]) inserted := by
        simpa using insertDescending_sifts item sorted.reverse
      have hordered : Ordered lt inserted := by
        apply ordered_insertDescending
        · refine h.subset fun value hvalue => ?_
          rcases List.mem_cons.mp hvalue with rfl | hvalue
          · simp
          · exact List.mem_append_left _ (List.mem_reverse.mp hvalue)
        · rwa [List.reverse_reverse]
      have hall : Sifts lt (sorted ++ item :: rest) (inserted ++ rest) := by
        simpa using hsifts.append_right rest
      have hrest := ih (h.subset hall.perm.symm.subset) hordered
      rw [insertAll_cons]
      exact ⟨hall.trans hrest.sifts, hrest.ordered⟩

/-- Inserting one element after the other is a stable sort. -/
theorem sorts_insertionSort {items : List α} (h : WeakOrder lt items) :
    Sorts lt items (insertionSort lt items) :=
  sorts_insertAll h List.Pairwise.nil

end Sorting

end TextTemplate
