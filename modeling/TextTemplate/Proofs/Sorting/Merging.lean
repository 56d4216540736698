import TextTemplate.Proofs.Sorting.Sifting
/-! # Merging

Merging two sorted lists from the front and from the end gives the same on consistent comparisons:
a stable sort of the one followed by the other. So a merge from both ends at once meets: what is
taken from either end is divided between the two lists by a cut, and two cuts do not cross.
-/

namespace TextTemplate

namespace Sorting

variable {α : Type} {lt : α → α → Bool} {left right : List α}

@[simp]
theorem mergeFront_nil_left (right : List α) : mergeFront lt [] right = right :=
  List.nil_merge right

@[simp]
theorem mergeFront_nil_right (left : List α) : mergeFront lt left [] = left :=
  List.merge_right left

theorem mergeFront_cons_cons (x y : α) (xs ys : List α) :
    mergeFront lt (x :: xs) (y :: ys) =
      if lt y x then y :: mergeFront lt (x :: xs) ys else x :: mergeFront lt xs (y :: ys) := by
  rw [mergeFront, List.cons_merge_cons]
  cases lt y x <;> rfl

/-- Two sorted lists merged from the front are sorted together. -/
theorem sorts_mergeFront (h : WeakOrder lt (left ++ right)) (hleft : Ordered lt left)
    (hright : Ordered lt right) : Sorts lt (left ++ right) (mergeFront lt left right) := by
  induction left generalizing right with
  | nil => simpa using Sorts.mk (.refl right) hright
  | cons x xs ihLeft =>
      induction right with
      | nil => simpa using Sorts.mk (.refl (x :: xs)) hleft
      | cons y ys ihRight =>
          obtain ⟨hx, hxs⟩ := List.pairwise_cons.mp hleft
          obtain ⟨hy, hys⟩ := List.pairwise_cons.mp hright
          have hmemX : x ∈ x :: xs ++ y :: ys := by simp
          have hmemY : y ∈ x :: xs ++ y :: ys := by simp
          rw [mergeFront_cons_cons]
          split
          next hlt =>
            -- `y` comes before the whole first list.
            have hpass : ∀ a ∈ x :: xs, lt y a = true := by
              intro a ha
              rcases List.mem_cons.mp ha with rfl | hmem
              · exact hlt
              · exact h.lt_of_lt_of_le hmemY hmemX (List.mem_append_left _ ha) hlt (hx a hmem)
            have hrest := ihRight (h.subset (by simp [List.subset_def]; tauto)) hys
            refine ⟨(Sifts.middle y (x :: xs) ys hpass).trans (hrest.sifts.cons y), ?_⟩
            refine List.pairwise_cons.mpr ⟨fun value hvalue => ?_, hrest.ordered⟩
            rcases List.mem_append.mp (hrest.sifts.mem_iff.mpr hvalue) with hmem | hmem
            · exact h.asymm y hmemY value (List.mem_append_left _ hmem) (hpass value hmem)
            · exact hy value hmem
          next hle =>
            have hle : lt y x = false := by simpa using hle
            have hrest := ihLeft (h.subset (List.subset_cons_self _ _)) hxs hright
            refine ⟨hrest.sifts.cons x, ?_⟩
            refine List.pairwise_cons.mpr ⟨fun value hvalue => ?_, hrest.ordered⟩
            rcases List.mem_append.mp (hrest.sifts.mem_iff.mpr hvalue) with hmem | hmem
            · exact hx value hmem
            · rcases List.mem_cons.mp hmem with rfl | hmem
              · exact hle
              · exact h.trans x hmemX y hmemY value (by simp [hmem]) hle (hy value hmem)

/-- The other way round, a consistent comparison is consistent. -/
theorem WeakOrder.reverse (h : WeakOrder lt (left ++ right)) :
    WeakOrder (fun a b => lt b a) (right.reverse ++ left.reverse) := by
  refine h.flip.subset ?_
  rw [← List.reverse_append]
  exact List.reverse_subset.mpr (List.Subset.refl _)

/-- So are two sorted lists merged from the end. -/
theorem sorts_mergeBack (h : WeakOrder lt (left ++ right)) (hleft : Ordered lt left)
    (hright : Ordered lt right) : Sorts lt (left ++ right) (mergeBack lt left right) := by
  have hmerge := sorts_mergeFront h.reverse hright.flip hleft.flip
  have hsifts := hmerge.sifts.reverse
  rw [List.reverse_append, List.reverse_reverse, List.reverse_reverse] at hsifts
  exact ⟨hsifts, hmerge.ordered.flip⟩

/-- Merging from the shorter side sorts two ordered stretches. -/
theorem sorts_merge (h : WeakOrder lt (left ++ right)) (hleft : Ordered lt left)
    (hright : Ordered lt right) : Sorts lt (left ++ right) (merge lt left right) := by
  unfold merge
  split
  · exact sorts_mergeFront h hleft hright
  · exact sorts_mergeBack h hleft hright

theorem append_subset_append {left' right' : List α} (hleft : left' ⊆ left)
    (hright : right' ⊆ right) : left' ++ right' ⊆ left ++ right :=
  List.append_subset.mpr
    ⟨List.subset_append_of_subset_left _ hleft, List.subset_append_of_subset_right _ hright⟩

/-! ## Cuts -/

/-- Whether the first elements of two lists come before the others as they do in a merge: of equal
elements those of the first list are in front. -/
structure IsCut (lt : α → α → Bool) (left right : List α) (i j : Nat) : Prop where
  left_first : ∀ x ∈ left.take i, ∀ y ∈ right.drop j, lt y x = false
  right_first : ∀ y ∈ right.take j, ∀ x ∈ left.drop i, lt y x = true

/-- A number of merge steps takes no more than that many from the left. -/
theorem takenLeft_le (steps : Nat) (left right : List α) :
    takenLeft lt steps left right ≤ steps := by
  fun_induction takenLeft with
  | case1 => omega
  | case2 => omega
  | case3 => exact Nat.min_le_left _ _

/-- The first elements of a merge are the merge of the first elements. -/
theorem take_mergeFront (steps : Nat) (left right : List α) :
    (mergeFront lt left right).take steps =
      mergeFront lt (left.take (takenLeft lt steps left right))
        (right.take (steps - takenLeft lt steps left right)) := by
  fun_induction takenLeft with
  | case1 steps x xs y ys hlt ih =>
      have hle : takenLeft lt steps (x :: xs) ys ≤ steps := takenLeft_le steps (x :: xs) ys
      rw [mergeFront_cons_cons, if_pos hlt, List.take_succ_cons, ih, Nat.succ_sub hle,
        List.take_succ_cons]
      cases takenLeft lt steps (x :: xs) ys with
      | zero => simp
      | succ taken => rw [List.take_succ_cons, mergeFront_cons_cons, if_pos hlt]
  | case2 steps x xs y ys hle ih =>
      rw [mergeFront_cons_cons, if_neg hle, List.take_succ_cons, ih, Nat.succ_sub_succ,
        List.take_succ_cons]
      cases steps - takenLeft lt steps xs (y :: ys) with
      | zero => simp
      | succ others => rw [List.take_succ_cons, mergeFront_cons_cons, if_neg hle]
  | case3 steps left right hnot =>
      cases left with
      | nil => simp
      | cons x xs =>
          cases right with
          | nil =>
              rw [List.take_nil, mergeFront_nil_right, mergeFront_nil_right]
              exact List.take_eq_take_min
          | cons y ys =>
              cases steps with
              | zero => simp
              | succ steps => exact absurd rfl (hnot steps x xs y ys rfl rfl)

/-- The first elements of a merge are divided by a cut. -/
theorem isCut_takenLeft (h : WeakOrder lt (left ++ right)) (hleft : Ordered lt left)
    (hright : Ordered lt right) (steps : Nat) :
    IsCut lt left right (takenLeft lt steps left right)
      (steps - takenLeft lt steps left right) := by
  fun_induction takenLeft with
  | case1 steps x xs y ys hlt ih =>
      obtain ⟨hx, -⟩ := List.pairwise_cons.mp hleft
      obtain ⟨-, hys⟩ := List.pairwise_cons.mp hright
      have hle : takenLeft lt steps (x :: xs) ys ≤ steps := takenLeft_le steps (x :: xs) ys
      have hrest := ih (h.subset (by simp [List.subset_def]; tauto)) hleft hys
      rw [Nat.succ_sub hle]
      refine ⟨hrest.left_first, fun b hb a ha => ?_⟩
      rw [List.take_succ_cons] at hb
      rcases List.mem_cons.mp hb with rfl | hb
      · have ha := List.mem_of_mem_drop ha
        rcases List.mem_cons.mp ha with rfl | hmem
        · exact hlt
        · exact h.lt_of_lt_of_le (by simp) (by simp) (List.mem_append_left _ ha) hlt (hx a hmem)
      · exact hrest.right_first b hb a ha
  | case2 steps x xs y ys hle ih =>
      obtain ⟨-, hxs⟩ := List.pairwise_cons.mp hleft
      obtain ⟨hy, -⟩ := List.pairwise_cons.mp hright
      have hle : lt y x = false := by simpa using hle
      have hrest := ih (h.subset (List.subset_cons_self _ _)) hxs hright
      rw [Nat.succ_sub_succ]
      refine ⟨fun a ha b hb => ?_, hrest.right_first⟩
      rw [List.take_succ_cons] at ha
      rcases List.mem_cons.mp ha with rfl | ha
      · have hb := List.mem_of_mem_drop hb
        rcases List.mem_cons.mp hb with rfl | hmem
        · exact hle
        · exact h.trans a (by simp) y (by simp) b (List.mem_append_right _ hb) hle (hy b hmem)
      · exact hrest.left_first a ha b hb
  | case3 steps left right hnot =>
      cases left with
      | nil => exact ⟨by simp, by simp⟩
      | cons x xs =>
          cases right with
          | nil => exact ⟨by simp, by simp⟩
          | cons y ys =>
              cases steps with
              | zero => exact ⟨by simp, by simp⟩
              | succ steps => exact absurd rfl (hnot steps x xs y ys rfl rfl)

namespace IsCut

variable {i j i' j' : Nat}

/-- Two cuts do not cross. -/
theorem not_crossing (h : IsCut lt left right i j) (h' : IsCut lt left right i' j')
    (hsum : i + j ≤ i' + j') (hi : i ≤ left.length) (hj : j ≤ right.length)
    (hi' : i' ≤ left.length) (hj' : j' ≤ right.length) : i ≤ i' ∧ j ≤ j' := by
  by_contra hcross
  rcases Nat.lt_or_ge i' i with hlt | hle
  · have hx : left[i'] ∈ left.take i := List.mem_take_iff_getElem.mpr ⟨i', by omega, rfl⟩
    have hx' : left[i'] ∈ left.drop i' := List.mem_drop_iff_getElem.mpr ⟨0, by omega, by simp⟩
    have hy : right[j] ∈ right.drop j := List.mem_drop_iff_getElem.mpr ⟨0, by omega, by simp⟩
    have hy' : right[j] ∈ right.take j' := List.mem_take_iff_getElem.mpr ⟨j, by omega, rfl⟩
    exact absurd (h.left_first _ hx _ hy) (by simp [h'.right_first _ hy' _ hx'])
  · have hy : right[j'] ∈ right.take j := List.mem_take_iff_getElem.mpr ⟨j', by omega, rfl⟩
    have hy' : right[j'] ∈ right.drop j' := List.mem_drop_iff_getElem.mpr ⟨0, by omega, by simp⟩
    have hx : left[i] ∈ left.drop i := List.mem_drop_iff_getElem.mpr ⟨0, by omega, by simp⟩
    have hx' : left[i] ∈ left.take i' := List.mem_take_iff_getElem.mpr ⟨i, by omega, rfl⟩
    exact absurd (h.right_first _ hy _ hx) (by simp [h'.left_first _ hx' _ hy'])

/-- A cut read from the end. -/
theorem of_reverse (h : IsCut (fun a b => lt b a) right.reverse left.reverse i j) :
    IsCut lt left right (left.length - j) (right.length - i) := by
  constructor
  · intro x hx y hy
    refine h.left_first y ?_ x ?_
    · rw [List.take_reverse]
      exact List.mem_reverse.mpr hy
    · rw [List.drop_reverse]
      exact List.mem_reverse.mpr hx
  · intro y hy x hx
    refine h.right_first x ?_ y ?_
    · rw [List.take_reverse]
      exact List.mem_reverse.mpr hx
    · rw [List.drop_reverse]
      exact List.mem_reverse.mpr hy

/-- A cut is one of what another cut leaves. -/
theorem drop (h : IsCut lt left right i' j') (hi : i ≤ i') (hj : j ≤ j') :
    IsCut lt (left.drop i) (right.drop j) (i' - i) (j' - j) := by
  constructor
  · intro x hx y hy
    rw [← List.drop_take] at hx
    rw [List.drop_drop, Nat.add_sub_of_le hj] at hy
    exact h.left_first x (List.mem_of_mem_drop hx) y hy
  · intro y hy x hx
    rw [← List.drop_take] at hy
    rw [List.drop_drop, Nat.add_sub_of_le hi] at hx
    exact h.right_first y (List.mem_of_mem_drop hy) x hx

/-- Two lists are sorted together if they are on both sides of a cut. -/
theorem sorts_append (h : IsCut lt left right i j) (horder : WeakOrder lt (left ++ right))
    (hleft : Ordered lt left) (hright : Ordered lt right) {before behind : List α}
    (hbefore : Sorts lt (left.take i ++ right.take j) before)
    (hbehind : Sorts lt (left.drop i ++ right.drop j) behind) :
    Sorts lt (left ++ right) (before ++ behind) := by
  -- The first elements of the second list pass what is left of the first.
  have hpass : Sifts lt (left.drop i ++ right.take j) (right.take j ++ left.drop i) :=
    Sifts.append_comm fun x hx y hy => h.right_first y hy x hx
  have hmoved : Sifts lt (left ++ right)
      ((left.take i ++ right.take j) ++ (left.drop i ++ right.drop j)) := by
    have hsplit : left ++ right = left.take i ++ (left.drop i ++ right.take j) ++ right.drop j := by
      rw [← List.append_assoc, List.take_append_drop, List.append_assoc, List.take_append_drop]
    have hmiddle := (hpass.append_left (left.take i)).append_right (right.drop j)
    rw [hsplit]
    simpa only [List.append_assoc] using hmiddle
  refine ⟨hmoved.trans (hbefore.sifts.append hbehind.sifts), ?_⟩
  refine hbefore.ordered.append hbehind.ordered fun a ha b hb => ?_
  rcases List.mem_append.mp (hbefore.sifts.mem_iff.mpr ha) with ha | ha <;>
    rcases List.mem_append.mp (hbehind.sifts.mem_iff.mpr hb) with hb | hb
  · exact hleft.rel_of_mem_take_of_mem_drop ha hb
  · exact h.left_first a ha b hb
  · have hlt := h.right_first a ha b hb
    exact horder.asymm a (List.mem_append_right _ (List.mem_of_mem_take ha)) b
      (List.mem_append_left _ (List.mem_of_mem_drop hb)) hlt
  · exact hright.rel_of_mem_take_of_mem_drop ha hb

end IsCut

/-- On a consistent comparison the two ends of a merge from both ends meet. -/
theorem exists_mergeHalves? (h : WeakOrder lt (left ++ right)) (hleft : Ordered lt left)
    (hright : Ordered lt right) (hle : left.length ≤ right.length)
    (hlt : right.length ≤ left.length + 1) :
    ∃ sorted, mergeHalves? lt left right = some sorted ∧ Sorts lt (left ++ right) sorted := by
  let steps := left.length
  let i := takenLeft lt steps left right
  let back := takenLeft (fun a b => lt b a) steps right.reverse left.reverse
  let j := right.length - back
  have hi : i ≤ steps := takenLeft_le steps left right
  have hback : back ≤ steps := takenLeft_le steps right.reverse left.reverse
  have hfront : IsCut lt left right i (steps - i) := isCut_takenLeft h hleft hright steps
  have hend : IsCut lt left right back j := by
    have hcut := (isCut_takenLeft h.reverse hright.flip hleft.flip steps).of_reverse
    rwa [Nat.sub_sub_self hback] at hcut
  obtain ⟨hcross, hcross'⟩ := hfront.not_crossing hend (by omega) (by omega) (by omega) (by omega)
    (by omega)
  have hfirst : Sorts lt (left.take i ++ right.take (steps - i))
      ((mergeFront lt left right).take steps) := by
    rw [take_mergeFront]
    exact sorts_mergeFront (h.subset (append_subset_append (List.take_subset _ _)
      (List.take_subset _ _))) hleft.take hright.take
  have hlast : Sorts lt (left.drop back ++ right.drop j)
      ((mergeFront (fun a b => lt b a) right.reverse left.reverse).take steps).reverse := by
    have hmerge := sorts_mergeBack (h.subset (append_subset_append (List.drop_subset back _)
      (List.drop_subset j _))) hleft.drop hright.drop
    rw [take_mergeFront, List.take_reverse, List.take_reverse, Nat.sub_sub_self hback]
    exact hmerge
  -- At most one element is in the middle.
  have hmiddle : Sorts lt ((left.drop i).take (back - i) ++
        (right.drop (steps - i)).take (j - (steps - i)))
      ((left.take back).drop i ++ (right.take j).drop (steps - i)) := by
    rw [List.drop_take, List.drop_take]
    refine ⟨.refl _, .of_length_le_one ?_⟩
    simp only [List.length_append, List.length_take, List.length_drop]
    omega
  have hlast' : Sorts lt ((left.drop i).drop (back - i) ++ (right.drop (steps - i)).drop
        (j - (steps - i)))
      ((mergeFront (fun a b => lt b a) right.reverse left.reverse).take steps).reverse := by
    rwa [List.drop_drop, List.drop_drop, Nat.add_sub_of_le hcross, Nat.add_sub_of_le hcross']
  have hbehind := (hend.drop hcross hcross').sorts_append
    (h.subset (append_subset_append (List.drop_subset i _) (List.drop_subset (steps - i) _)))
    hleft.drop hright.drop hmiddle hlast'
  have hmeet : back - i ≤ right.length - steps := by omega
  refine ⟨_, if_pos ⟨hcross, hmeet⟩, ?_⟩
  rw [List.append_assoc]
  exact hfront.sorts_append h hleft hright hfirst hbehind

/-! ## A few elements -/

section Four

variable {a b c d : α}

/-- Two elements are put in order by one comparison. -/
theorem sorts_inOrder (h : WeakOrder lt [a, b]) :
    Sorts lt [a, b] [(inOrder lt a b).1, (inOrder lt a b).2] := by
  unfold inOrder
  split
  next hlt =>
    have hle : lt a b = false := h.asymm b (by simp) a (by simp) hlt
    exact ⟨.exchange [] hlt, by simpa [Ordered] using hle⟩
  next hle => exact ⟨.refl _, by simpa [Ordered] using hle⟩

/-- Four elements of which the ends are known are in order once the middle two are. -/
theorem sorts_between (h : WeakOrder lt [a, b, c, d]) (hab : lt b a = false) (hac : lt c a = false)
    (hbd : lt d b = false) (hcd : lt d c = false) :
    Sorts lt [a, b, c, d] (between lt a b c d) := by
  have hpair := sorts_inOrder (h.subset (List.subset_cons_of_subset a (by simp)) :
    WeakOrder lt [b, c])
  have had : lt d a = false := h.trans a (by simp) b (by simp) d (by simp) hab hbd
  have hends : ∀ x ∈ [(inOrder lt b c).1, (inOrder lt b c).2],
      lt x a = false ∧ lt d x = false := by
    intro x hx
    have hx : x = b ∨ x = c := by simpa using hpair.sifts.mem_iff.mpr hx
    rcases hx with rfl | rfl
    · exact ⟨hab, hbd⟩
    · exact ⟨hac, hcd⟩
  have hbehind : Ordered lt ([(inOrder lt b c).1, (inOrder lt b c).2] ++ [d]) :=
    hpair.ordered.append (.of_length_le_one (by simp)) (by simpa using fun x hx => (hends x hx).2)
  have hall : Ordered lt (a :: ([(inOrder lt b c).1, (inOrder lt b c).2] ++ [d])) := by
    refine List.pairwise_cons.mpr ⟨fun x hx => ?_, hbehind⟩
    rcases List.mem_append.mp hx with hx | hx
    · exact (hends x hx).1
    · obtain rfl := List.mem_singleton.mp hx
      exact had
  exact ⟨(hpair.sifts.append_right [d]).cons a, hall⟩

/-- Two sorted pairs are sorted together: an element of the second passes all those of the first
that it comes before. -/
theorem sorts_mergePairs (h : WeakOrder lt [a, b, c, d]) (hab : lt b a = false)
    (hcd : lt d c = false) : Sorts lt [a, b, c, d] (mergePairs lt a b c d) := by
  have ha : a ∈ [a, b, c, d] := by simp
  have hb : b ∈ [a, b, c, d] := by simp
  have hc : c ∈ [a, b, c, d] := by simp
  have hd : d ∈ [a, b, c, d] := by simp
  have sorts : ∀ {w x y z : α}, Sifts lt [a, b, c, d] [w, x, y, z] → lt x w = false →
      lt y w = false → lt z x = false → lt z y = false →
      Sorts lt [a, b, c, d] (between lt w x y z) := by
    intro w x y z hsifts hwx hwy hxz hyz
    have hbetween := sorts_between (h.subset hsifts.perm.symm.subset) hwx hwy hxz hyz
    exact ⟨hsifts.trans hbetween.sifts, hbetween.ordered⟩
  unfold mergePairs
  cases hca : lt c a with
  | false =>
      cases hdb : lt d b with
      | false => exact sorts (.refl _) hab hca hdb hcd
      | true =>
          have hcb : lt c b = true := h.lt_of_le_of_lt hc hd hb hcd hdb
          have hpass : Sifts lt ([b] ++ [c, d]) ([c, d] ++ [b]) :=
            Sifts.append_comm (by simp [hcb, hdb])
          exact sorts (hpass.cons a) hca (h.trans a ha c hc d hd hca hcd)
            (h.asymm c hc b hb hcb) (h.asymm d hd b hb hdb)
  | true =>
      have hcb : lt c b = true := h.lt_of_lt_of_le hc ha hb hca hab
      have hac : lt a c = false := h.asymm c hc a ha hca
      have hpass : Sifts lt ([a, b] ++ [c]) ([c] ++ [a, b]) :=
        Sifts.append_comm (by simp [hca, hcb])
      have hmoved : Sifts lt [a, b, c, d] [c, a, b, d] := hpass.append_right [d]
      cases hdb : lt d b with
      | false =>
          have hda : lt d a = false := h.trans a ha b hb d hd hab hdb
          exact sorts hmoved hac (h.asymm c hc b hb hcb) hda hdb
      | true =>
          have hlast : Sifts lt [b, d] [d, b] := .exchange [] hdb
          exact sorts (hmoved.trans (hlast.append_left [c, a])) hac hcd hab
            (h.asymm d hd b hb hdb)

/-- Four elements are put in order. -/
theorem sorts_sortFour (h : WeakOrder lt [a, b, c, d]) :
    Sorts lt [a, b, c, d] (sortFour lt a b c d) := by
  have hfirst := sorts_inOrder (h.subset (by simp) : WeakOrder lt [a, b])
  have hsecond := sorts_inOrder (h.subset (by simp) : WeakOrder lt [c, d])
  have hpairs := hfirst.sifts.append hsecond.sifts
  have hmerge := sorts_mergePairs (h.subset hpairs.perm.symm.subset)
    (by simpa [Ordered] using hfirst.ordered) (by simpa [Ordered] using hsecond.ordered)
  exact ⟨hpairs.trans hmerge.sifts, hmerge.ordered⟩

end Four

/-- Half of a few elements is put in order: four of them first if there are enough, and then the
others one by one. -/
theorem sorts_sortHalf {enough : Bool} {items : List α} (h : WeakOrder lt items) :
    Sorts lt items (sortHalf lt enough items) := by
  unfold sortHalf
  split
  next a b c d rest =>
    have hfour := sorts_sortFour (h.subset (by simp [List.subset_def]) : WeakOrder lt [a, b, c, d])
    have hsifts := hfour.sifts.append_right rest
    have hall := sorts_insertAll (h.subset hsifts.perm.symm.subset) hfour.ordered
    exact ⟨hsifts.trans hall.sifts, hall.ordered⟩
  next => exact sorts_insertionSort h

/-- A few elements are put in order: the two halves meet. -/
theorem exists_smallSort? {items : List α} (h : WeakOrder lt items) :
    ∃ sorted, smallSort? lt items = some sorted ∧ Sorts lt items sorted := by
  let half := items.length / 2
  let enough := decide (8 ≤ items.length)
  have hleft : Sorts lt (items.take half) (sortHalf lt enough (items.take half)) :=
    sorts_sortHalf (h.subset (List.take_subset half items))
  have hright : Sorts lt (items.drop half) (sortHalf lt enough (items.drop half)) :=
    sorts_sortHalf (h.subset (List.drop_subset half items))
  have hsifts := hleft.sifts.append hright.sifts
  rw [List.take_append_drop] at hsifts
  have hleftLength := hleft.sifts.perm.length_eq
  have hrightLength := hright.sifts.perm.length_eq
  rw [List.length_take] at hleftLength
  rw [List.length_drop] at hrightLength
  obtain ⟨sorted, hsorted, hsorts⟩ := exists_mergeHalves? (h.subset hsifts.perm.symm.subset)
    hleft.ordered hright.ordered (by omega) (by omega)
  exact ⟨sorted, hsorted, hsifts.trans hsorts.sifts, hsorts.ordered⟩

end Sorting

end TextTemplate
