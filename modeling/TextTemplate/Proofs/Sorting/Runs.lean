import TextTemplate.Proofs.Sorting.Merging
/-! # Sorting by runs and partitions

What is cut into runs stays in its place until neighbouring runs are merged, and what is partitioned
is apart already when its parts are sorted. Main statement: on a consistent comparison the sort has
a result, and it is a stable sort. So a breakdown tells that the comparison is not consistent.
-/

namespace TextTemplate

namespace Sorting

variable {α : Type} {lt : α → α → Bool} {items : List α}

/-- Whether a sort has a result, and a stable one, on every list on which the comparison is
consistent. -/
def SortsConsistent (lt : α → α → Bool) (sort? : List α → Option (List α)) : Prop :=
  ∀ items, WeakOrder lt items → ∃ sorted, sort? items = some sorted ∧ Sorts lt items sorted

/-! ## Stretches in order -/

/-- A chain of steps relates all elements if the relation is transitive on them. -/
theorem pairwise_of_isChain {r : α → α → Prop} (h : items.IsChain r)
    (htrans : ∀ a ∈ items, ∀ b ∈ items, ∀ c ∈ items, r a b → r b c → r a c) : items.Pairwise r := by
  induction items with
  | nil => exact .nil
  | cons first rest ih =>
      have hrest : rest.Pairwise r := ih h.of_cons fun a ha b hb c hc =>
        htrans a (List.mem_cons_of_mem _ ha) b (List.mem_cons_of_mem _ hb) c
          (List.mem_cons_of_mem _ hc)
      refine List.pairwise_cons.mpr ⟨fun value hvalue => ?_, hrest⟩
      cases rest with
      | nil => cases hvalue
      | cons second rest =>
          have hfirst : r first second := (List.isChain_cons_cons.mp h).1
          rcases List.mem_cons.mp hvalue with rfl | hmem
          · exact hfirst
          · exact htrans first (by simp) second (by simp) value (by simp [hmem]) hfirst
              (List.rel_of_pairwise_cons hrest hmem)

/-- A stretch of steady steps is a chain. -/
theorem isChain_take_steadyLength (step : α → α → Bool) (previous : α) (rest : List α) :
    ((previous :: rest).take (steadyLength step previous rest + 1)).IsChain
      fun a b => step a b = true := by
  induction rest generalizing previous with
  | nil => simp [steadyLength]
  | cons next rest ih =>
      rw [steadyLength]
      split
      next hstep =>
        have hrest := ih next
        rw [List.take_succ_cons] at hrest ⊢
        rw [List.take_succ_cons]
        exact List.isChain_cons_cons.mpr ⟨hstep, hrest⟩
      next => simp

/-- A leading run that descends does so at each step. -/
theorem isChain_take_leadingRun_descending (h : (leadingRun lt items).2 = true) :
    (items.take (leadingRun lt items).1).IsChain fun a b => lt b a = true := by
  revert h
  fun_cases leadingRun lt items with
  | case1 => nofun
  | case2 => nofun
  | case3 first second rest hlt => exact fun _ => isChain_take_steadyLength _ first _
  | case4 => nofun

/-- A leading run that does not descend never does. -/
theorem isChain_take_leadingRun_ascending (h : (leadingRun lt items).2 = false) :
    (items.take (leadingRun lt items).1).IsChain fun a b => lt b a = false := by
  revert h
  fun_cases leadingRun lt items with
  | case1 => simp
  | case2 => simp
  | case3 => nofun
  | case4 first second rest hle =>
      intro _
      exact (isChain_take_steadyLength (fun a b => !lt b a) first _).imp (by simp)

/-- The leading run, turned round if it descends, is in order. -/
theorem sorts_leadingRun (h : WeakOrder lt items) :
    let stretch := items.take (leadingRun lt items).1
    Sorts lt stretch (if (leadingRun lt items).2 then stretch.reverse else stretch) := by
  intro stretch
  have hstretch : WeakOrder lt stretch := h.subset (List.take_subset _ items)
  cases hdescends : (leadingRun lt items).2 with
  | true =>
      have hsteps := isChain_take_leadingRun_descending hdescends
      have hdescending : stretch.Pairwise fun a b => lt b a = true := by
        refine pairwise_of_isChain hsteps fun a ha b hb c hc hba hcb => ?_
        exact hstretch.lt_of_lt_of_le hc hb ha hcb (hstretch.asymm b hb a ha hba)
      refine ⟨.of_descending hdescending, List.pairwise_reverse.mpr ?_⟩
      exact hdescending.imp_of_mem fun ha hb hba => hstretch.asymm _ hb _ ha hba
  | false =>
      have hsteps := isChain_take_leadingRun_ascending hdescends
      exact ⟨.refl _, pairwise_of_isChain hsteps hstretch.trans⟩

/-! ## Runs -/

/-- Whether a run is in order if it says so. -/
def Run.Valid (lt : α → α → Bool) (run : Run α) : Prop := run.isSorted = true → Ordered lt run.items

/-- The next run is found, and is in order if it says so. Nothing but a sift is done to the
elements. -/
theorem exists_nextRun? (h : WeakOrder lt items) (eager : Bool) (least : Nat) :
    ∃ run rest, nextRun? lt eager least items = some (run, rest) ∧
      Sifts lt items (run.items ++ rest) ∧ run.Valid lt := by
  have hleading := sorts_leadingRun h
  unfold nextRun?
  dsimp only
  split
  · refine ⟨_, _, rfl, ?_, fun _ => hleading.ordered⟩
    have hsifts := hleading.sifts.append_right (items.drop (leadingRun lt items).1)
    rwa [List.take_append_drop] at hsifts
  split
  · obtain ⟨sorted, hsorted, hsorts⟩ :=
      exists_smallSort? (h.subset (List.take_subset fewElements items))
    have hsifts := hsorts.sifts.append_right (items.drop fewElements)
    rw [List.take_append_drop] at hsifts
    exact ⟨⟨sorted, true⟩, _, by rw [hsorted]; rfl, hsifts, fun _ => hsorts.ordered⟩
  · refine ⟨_, _, rfl, ?_, nofun⟩
    rw [List.take_append_drop]
    exact .refl items

/-- All elements are taken up by runs, and sifted at most. -/
theorem exists_runs? (h : WeakOrder lt items) (eager : Bool) (least bound : Nat) :
    ∃ runs, runs? lt eager least bound items = some runs ∧
      Sifts lt items (runs.flatMap Run.items) ∧ ∀ run ∈ runs, run.Valid lt := by
  induction bound generalizing items with
  | zero =>
      cases items with
      | nil => exact ⟨[], rfl, .refl _, by simp⟩
      | cons first rest => exact ⟨_, rfl, by simpa using Sifts.refl _, by simp [Run.Valid]⟩
  | succ bound ih =>
      cases items with
      | nil => exact ⟨[], rfl, .refl _, by simp⟩
      | cons first rest =>
          obtain ⟨run, others, hnext, hsifts, hrun⟩ := exists_nextRun? h eager least
          obtain ⟨runs, hruns, hrestSifts, hvalid⟩ :=
            ih (h.subset (List.Subset.trans (List.subset_append_right _ _)
              hsifts.perm.symm.subset))
          refine ⟨run :: runs, by simp [runs?, hnext, hruns], ?_, ?_⟩
          · rw [List.flatMap_cons]
            exact hsifts.trans (hrestSifts.append_left run.items)
          · exact List.forall_mem_cons.mpr ⟨hrun, hvalid⟩

section Joining

variable {sort? : List α → Option (List α)} (hsort : SortsConsistent lt sort?)

include hsort

/-- A run is sorted if it is not in order yet. -/
theorem exists_sorted? {run : Run α} (h : WeakOrder lt run.items) (hrun : run.Valid lt) :
    ∃ sorted, run.sorted? sort? = some sorted ∧ Sorts lt run.items sorted := by
  unfold Run.sorted?
  split
  next hsorted => exact ⟨_, rfl, .refl _, hrun hsorted⟩
  next => exact hsort _ h

/-- Joining two runs merges them, or leaves them for later as one run that is not in order. -/
theorem exists_joinRuns? {left right : Run α} (h : WeakOrder lt (left.items ++ right.items))
    (hleft : left.Valid lt) (hright : right.Valid lt) (room : Nat) :
    ∃ joined, joinRuns? lt sort? room left right = some joined ∧
      Sifts lt (left.items ++ right.items) joined.items ∧ joined.Valid lt := by
  unfold joinRuns?
  split
  · obtain ⟨leftItems, hleftItems, hleftSorts⟩ :=
      exists_sorted? hsort (h.subset (List.subset_append_left _ _)) hleft
    obtain ⟨rightItems, hrightItems, hrightSorts⟩ :=
      exists_sorted? hsort (h.subset (List.subset_append_right _ _)) hright
    have hsifts := hleftSorts.sifts.append hrightSorts.sifts
    have hmerge := sorts_merge (h.subset hsifts.perm.symm.subset) hleftSorts.ordered
      hrightSorts.ordered
    exact ⟨⟨merge lt leftItems rightItems, true⟩, by simp [hleftItems, hrightItems],
      hsifts.trans hmerge.sifts, fun _ => hmerge.ordered⟩
  · exact ⟨_, rfl, .refl _, nofun⟩

/-- The elements of the runs that wait, the last of which stands first in the list. -/
def waitingItems : List (Nat × Run α) → List α
  | [] => []
  | (_, run) :: waiting => waitingItems waiting ++ run.items

/-- Joining the runs that wait as deep as the new one leaves runs that wait, and nothing but sifts
is done. -/
theorem exists_collapse? (room depth : Nat) {waiting : List (Nat × Run α)} {run : Run α}
    (h : WeakOrder lt (waitingItems waiting ++ run.items))
    (hwaiting : ∀ other ∈ waiting, other.2.Valid lt) (hrun : run.Valid lt) :
    ∃ left joined, collapse? lt sort? room depth waiting run = some (left, joined) ∧
      Sifts lt (waitingItems waiting ++ run.items) (waitingItems left ++ joined.items) ∧
      (∀ other ∈ left, other.2.Valid lt) ∧ joined.Valid lt ∧ (depth = 0 → left = []) := by
  induction waiting generalizing run with
  | nil => exact ⟨[], run, rfl, .refl _, nofun, hrun, fun _ => rfl⟩
  | cons top waiting ih =>
      obtain ⟨waitingDepth, left⟩ := top
      obtain ⟨hleft, hrest⟩ := List.forall_mem_cons.mp hwaiting
      rw [waitingItems, List.append_assoc] at h
      rw [collapse?]
      split
      next =>
        obtain ⟨joined, hjoined, hsifts, hvalid⟩ :=
          exists_joinRuns? hsort (h.subset (List.subset_append_right _ _)) hleft hrun room
        have hall := hsifts.append_left (waitingItems waiting)
        obtain ⟨others, last, hcollapse, hlast⟩ :=
          ih (h.subset hall.perm.symm.subset) hrest hvalid
        refine ⟨others, last, by rw [hjoined]; exact hcollapse, ?_, hlast.2⟩
        rw [waitingItems, List.append_assoc]
        exact hall.trans hlast.1
      next hdepth => exact ⟨_, run, rfl, .refl _, hwaiting, hrun, by omega⟩

/-- Joining all runs leaves one, with all the elements. -/
theorem exists_joinAll? (room length : Nat) {waiting : List (Nat × Run α)} {run : Run α}
    {rest : List (Run α)}
    (h : WeakOrder lt (waitingItems waiting ++ run.items ++ rest.flatMap Run.items))
    (hwaiting : ∀ other ∈ waiting, other.2.Valid lt) (hrun : run.Valid lt)
    (hrest : ∀ other ∈ rest, other.Valid lt) (scanned : Nat) :
    ∃ joined, joinAll? lt sort? room length waiting run scanned rest = some joined ∧
      Sifts lt (waitingItems waiting ++ run.items ++ rest.flatMap Run.items) joined.items ∧
      joined.Valid lt := by
  induction rest generalizing waiting run scanned with
  | nil =>
      rw [List.flatMap_nil, List.append_nil] at h ⊢
      obtain ⟨left, joined, hcollapse, hsifts, -, hjoined, hnone⟩ :=
        exists_collapse? hsort room 0 h hwaiting hrun
      obtain rfl := hnone rfl
      exact ⟨joined, by rw [joinAll?, hcollapse]; rfl, hsifts, hjoined⟩
  | cons next rest ih =>
      obtain ⟨hnext, hothers⟩ := List.forall_mem_cons.mp hrest
      let depth := joinDepth length (scanned - run.items.length) scanned
        (scanned + next.items.length)
      obtain ⟨left, joined, hcollapse, hsifts, hleft, hjoined, -⟩ :=
        exists_collapse? hsort room depth (h.subset (List.subset_append_left _ _)) hwaiting hrun
      have hall : Sifts lt (waitingItems waiting ++ run.items ++ (next :: rest).flatMap Run.items)
          (waitingItems ((depth, joined) :: left) ++ next.items ++ rest.flatMap Run.items) := by
        have hsifts := hsifts.append_right ((next :: rest).flatMap Run.items)
        simpa [waitingItems, List.append_assoc] using hsifts
      have hpending : ∀ other ∈ (depth, joined) :: left, other.2.Valid lt :=
        List.forall_mem_cons.mpr ⟨hjoined, hleft⟩
      obtain ⟨last, hlast, hlastSifts, hvalid⟩ :=
        ih (h.subset hall.perm.symm.subset) hpending hnext hothers (scanned + next.items.length)
      exact ⟨last, by rw [joinAll?, hcollapse]; exact hlast, hall.trans hlastSifts, hvalid⟩

/-- A sort by runs is stable if that of the runs in no order is. -/
theorem sortsConsistent_runSort? (eager : Bool) (room : Nat) :
    SortsConsistent lt (runSort? lt sort? eager room) := by
  intro items h
  obtain ⟨runs, hruns, hsifts, hvalid⟩ :=
    exists_runs? h eager (leastRun items.length) items.length
  have hruns' := h.subset hsifts.perm.symm.subset
  cases runs with
  | nil =>
      refine ⟨[], by rw [runSort?, hruns]; rfl, ?_, .nil⟩
      obtain rfl : items = [] := hsifts.perm.eq_nil
      exact .refl _
  | cons first rest =>
      obtain ⟨hfirst, hrest⟩ := List.forall_mem_cons.mp hvalid
      have hstart : WeakOrder lt (waitingItems [] ++ first.items ++ rest.flatMap Run.items) :=
        hruns'
      obtain ⟨joined, hjoined, hjoinedSifts, hjoinedValid⟩ :=
        exists_joinAll? hsort room items.length hstart nofun hfirst hrest first.items.length
      have hall := hsifts.trans hjoinedSifts
      obtain ⟨sorted, hsorted, hsorts⟩ :=
        exists_sorted? hsort (h.subset hall.perm.symm.subset) hjoinedValid
      exact ⟨sorted, by simp [runSort?, hruns, hjoined, hsorted], hall.trans hsorts.sifts,
        hsorts.ordered⟩

end Joining

/-! ## Partitions -/

/-- The median of three elements is one of them. -/
theorem median_eq (lt : α → α → Bool) (a b c : α) :
    median lt a b c = a ∨ median lt a b c = b ∨ median lt a b c = c := by
  unfold median
  split
  · split
    · exact .inr (.inl rfl)
    · exact .inr (.inr rfl)
  · exact .inl rfl

/-- The pivot is one of the elements. -/
theorem sample_mem {length : Nat} {pivot : α} (h : sample lt length items = some pivot) :
    pivot ∈ items := by
  induction length using Nat.strongRecOn generalizing items pivot with
  | ind length ih =>
      rw [sample] at h
      split at h
      · exact List.mem_of_head? h
      · have hpart : length / 8 < length := by omega
        simp only [Option.bind_eq_bind, Option.bind_eq_some_iff, Option.pure_def] at h
        obtain ⟨a, ha, b, hb, c, hc, h⟩ := h
        obtain rfl := Option.some.inj h
        rcases median_eq lt a b c with heq | heq | heq <;> rw [heq]
        · exact ih _ hpart ha
        · exact List.mem_of_mem_drop (ih _ hpart hb)
        · exact List.mem_of_mem_drop (ih _ hpart hc)

theorem getD_sample_mem (lt : α → α → Bool) (length : Nat) (first : α) (rest : List α) :
    (sample lt length (first :: rest)).getD first ∈ first :: rest := by
  cases hsample : sample lt length (first :: rest) with
  | none => exact List.mem_cons_self
  | some pivot => exact sample_mem hsample

/-- Elements that are apart are sorted together if both parts are. -/
theorem Sorts.of_partition {p : α → Bool} {before behind : List α} (h : WeakOrder lt items)
    (hp : ∀ a ∈ items, ∀ b ∈ items, p a = true → p b = false → lt a b = true)
    (hbefore : Sorts lt (items.filter p) before)
    (hbehind : Sorts lt (items.filter fun item => !p item) behind) :
    Sorts lt items (before ++ behind) := by
  refine ⟨(Sifts.partition p hp).trans (hbefore.sifts.append hbehind.sifts), ?_⟩
  refine hbefore.ordered.append hbehind.ordered fun a ha b hb => ?_
  obtain ⟨ha, hpa⟩ := List.mem_filter.mp (hbefore.sifts.mem_iff.mpr ha)
  obtain ⟨hb, hpb⟩ := List.mem_filter.mp (hbehind.sifts.mem_iff.mpr hb)
  exact h.asymm a ha b hb (hp a ha b hb hpa (by simpa using hpb))

section Pivot

variable {pivot : α} (h : WeakOrder lt items) (hpivot : pivot ∈ items)

include h hpivot

/-- What comes before the pivot is apart from the others. -/
theorem Sorts.of_pivot {before behind : List α}
    (hbefore : Sorts lt (items.filter fun item => lt item pivot) before)
    (hbehind : Sorts lt (items.filter fun item => !lt item pivot) behind) :
    Sorts lt items (before ++ behind) :=
  Sorts.of_partition h
    (fun _ ha _ hb hbefore hbehind => h.lt_of_lt_of_le ha hpivot hb hbefore hbehind) hbefore hbehind

/-- If nothing comes before the pivot, the elements that do not come behind it are equal to it, so
they are in order already. -/
theorem Sorts.of_least (hleast : ∀ item ∈ items, lt item pivot = false) {above : List α}
    (habove : Sorts lt (items.filter fun item => lt pivot item) above) :
    Sorts lt items ((items.filter fun item => !lt pivot item) ++ above) := by
  refine Sorts.of_partition h (fun a ha b hb hequal habove => ?_) ⟨.refl _, ?_⟩
    (by simpa using habove)
  · exact h.lt_of_le_of_lt ha hpivot hb (by simpa using hequal) (by simpa using habove)
  · refine List.pairwise_of_forall_mem_list fun a ha b hb => ?_
    obtain ⟨ha, hequal⟩ := List.mem_filter.mp ha
    have hb := List.mem_of_mem_filter hb
    exact h.trans a ha pivot hpivot b hb (by simpa using hequal) (hleast b hb)

end Pivot

/-- Nothing comes before a pivot that no element is found to come before, or that does not come
behind a bound of all elements. -/
theorem least_of_isEmpty_or_bound {bound? : Option α} {pivot : α}
    (h : WeakOrder lt (bound?.toList ++ items)) (hpivot : pivot ∈ items)
    (hbound : ∀ bound ∈ bound?, ∀ item ∈ items, lt item bound = false)
    (hleast : ((items.filter fun item => lt item pivot).isEmpty ||
      bound?.any fun bound => !lt bound pivot) = true) :
    ∀ item ∈ items, lt item pivot = false := by
  rw [Bool.or_eq_true, List.isEmpty_iff, List.filter_eq_nil_iff, Option.any_eq_true] at hleast
  rcases hleast with hnone | ⟨bound, hmem, hbefore⟩
  · simpa using hnone
  · intro item hitem
    have hboundMem : bound ∈ bound?.toList ++ items :=
      List.mem_append_left _ (Option.mem_toList.mpr hmem)
    exact h.trans pivot (List.mem_append_right _ hpivot) bound hboundMem item
      (List.mem_append_right _ hitem) (by simpa using hbefore) (hbound bound hmem item hitem)

/-- A sort by partitions is stable. -/
theorem exists_partitionSort? (limit : Nat) {bound? : Option α}
    (h : WeakOrder lt (bound?.toList ++ items))
    (hbound : ∀ bound ∈ bound?, ∀ item ∈ items, lt item bound = false) :
    ∃ sorted, partitionSort? lt limit bound? items = some sorted ∧ Sorts lt items sorted := by
  have hitems : WeakOrder lt items := h.subset (List.subset_append_right _ _)
  induction limit generalizing bound? items with
  | zero =>
      rw [partitionSort?]
      split
      · exact exists_smallSort? hitems
      · exact sortsConsistent_runSort?
          (fun run hrun => ⟨_, rfl, sorts_insertionSort hrun⟩) true items.length items hitems
  | succ limit ih =>
      cases items with
      | nil => exact ⟨[], rfl, .refl _, .nil⟩
      | cons first rest =>
          have hpivot := getD_sample_mem lt (first :: rest).length first rest
          rw [partitionSort?]
          dsimp only
          split
          · exact exists_smallSort? hitems
          generalize (sample lt (first :: rest).length (first :: rest)).getD first = pivot
            at hpivot ⊢
          generalize first :: rest = items at h hbound hitems hpivot ⊢
          split
          next hleast =>
            have habove : WeakOrder lt (items.filter fun item => lt pivot item) :=
              hitems.subset (List.filter_subset_self items)
            obtain ⟨above, haboveEq, haboveSorts⟩ := @ih _ none habove nofun habove
            refine ⟨_, by rw [haboveEq]; rfl, ?_⟩
            exact Sorts.of_least hitems hpivot (least_of_isEmpty_or_bound h hpivot hbound hleast)
              haboveSorts
          next =>
            have hbehind : WeakOrder lt (pivot :: items.filter fun item => !lt item pivot) :=
              hitems.subset (List.cons_subset.mpr ⟨hpivot, List.filter_subset_self items⟩)
            have hbefore : WeakOrder lt (bound?.toList ++ items.filter fun item => lt item pivot) :=
              h.subset (append_subset_append (List.Subset.refl _) (List.filter_subset_self items))
            have hbound' : ∀ bound ∈ bound?, ∀ item ∈ items.filter fun item => lt item pivot,
                lt item bound = false := fun bound hmem item hitem =>
              hbound bound hmem item (List.mem_of_mem_filter hitem)
            obtain ⟨behind, hbehindEq, hbehindSorts⟩ := @ih _ (some pivot) hbehind (by simp)
              (hbehind.subset (List.subset_cons_self _ _))
            obtain ⟨before, hbeforeEq, hbeforeSorts⟩ := @ih _ bound? hbefore hbound'
              (hbefore.subset (List.subset_append_right _ _))
            refine ⟨_, by rw [hbehindEq, hbeforeEq]; rfl, ?_⟩
            exact Sorts.of_pivot hitems hpivot hbeforeSorts hbehindSorts

/-! ## The whole list -/

/-- On a consistent comparison the sort has a result, and it is a stable one. -/
theorem sortsConsistent_sort? : SortsConsistent lt (sort? lt) := by
  intro items h
  unfold sort?
  dsimp only
  split
  · exact ⟨_, rfl, sorts_insertionSort h⟩
  · exact sortsConsistent_runSort?
      (fun run hrun => exists_partitionSort? _ (by simpa using hrun) nofun) _ _ items h

/-- Few elements are sorted by any comparison. -/
theorem sort?_of_length_le (h : items.length ≤ insertionLimit) :
    sort? lt items = some (insertionSort lt items) := if_pos h

end Sorting

end TextTemplate
