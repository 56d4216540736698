import Mathlib.Data.List.Induction
import Mathlib.Data.List.Infix
import Mathlib.Order.Nat
import TextTemplate.Proofs.Render.Locality
/-! # Histories of a scope

A scope is changed by opening and closing frames and by binding names. What a name means after any
such changes, whether or not each frame that is opened is closed again, can be told from the changes
alone: by the latest binding that was not closed with its frame, in the innermost frame that has
one. Main statement: this is what a scope answers, and changes between an opening and the closing
that belongs to it leave no trace.
-/

namespace TextTemplate.Scope

/-- A change of a scope. -/
inductive Change where
  | push
  | pop
  | set (name : String) (value : Value)

namespace Change

/-- The scope after a change. -/
def apply (scope : Scope) : Change → Scope
  | .push => scope.push
  | .pop => scope.pop
  | .set name value => scope.set name value

/-- The number of frames above the first one after a change. The first one is never closed. -/
def heightAfter (height : Nat) : Change → Nat
  | .push => height + 1
  | .pop => height - 1
  | .set _ _ => height

/-- Whether a change opens a frame. -/
def opens : Change → Bool
  | .push => true
  | _ => false

/-- Whether a change closes a frame. -/
def closes : Change → Bool
  | .pop => true
  | _ => false

end Change

/-- The scope after changes, made in order. -/
def run (scope : Scope) (changes : List Change) : Scope := changes.foldl Change.apply scope

theorem run_append (scope : Scope) (changes more : List Change) :
    scope.run (changes ++ more) = (scope.run changes).run more := List.foldl_append

/-- The number of frames above the first one after changes. -/
def height (changes : List Change) : Nat := changes.foldl Change.heightAfter 0

/-- The number of frames above the first one after the first `time` changes. -/
def heightAt (changes : List Change) (time : Nat) : Nat := height (changes.take time)

/-- The change at a time binds a name, and the frame in which it does has not been closed since: the
height would have fallen below what it was then. -/
structure Survives (changes : List Change) (time : Nat) (name : String) (value : Value) :
    Prop where
  binds : changes[time]? = some (.set name value)
  stays : ∀ later, time ≤ later → heightAt changes time ≤ heightAt changes later

/-- Of the bindings of a name that survive, the latest one in the innermost frame that has one. -/
structure Prevails (changes : List Change) (time : Nat) (name : String) (value : Value) :
    Prop where
  survives : Survives changes time name value
  innermost : ∀ time' value', Survives changes time' name value' →
    heightAt changes time' ≤ heightAt changes time
  latest : ∀ time' value', Survives changes time' name value' →
    heightAt changes time' = heightAt changes time → time' ≤ time

/-- Changes in which every closing of a frame has an earlier opening, and every opening has a later
closing. -/
structure WellBracketed (changes : List Change) : Prop where
  opened : ∀ front, front <+: changes → front.countP Change.closes ≤ front.countP Change.opens
  closed : changes.countP Change.closes = changes.countP Change.opens

/-! ## Bindings that survive -/

section Survival

variable {changes : List Change} {change : Change} {time : Nat} {name : String} {value : Value}

theorem height_append_singleton :
    height (changes ++ [change]) = change.heightAfter (height changes) := List.foldl_append

theorem heightAt_of_length_le (h : changes.length ≤ time) :
    heightAt changes time = height changes := by
  rw [heightAt, List.take_of_length_le h]

theorem heightAt_append_of_le (h : time ≤ changes.length) :
    heightAt (changes ++ [change]) time = heightAt changes time := by
  rw [heightAt, heightAt, List.take_append_of_le_length h]

theorem heightAt_append_length :
    heightAt (changes ++ [change]) changes.length = height changes :=
  (heightAt_append_of_le le_rfl).trans (heightAt_of_length_le le_rfl)

theorem heightAt_append_of_lt (h : changes.length < time) :
    heightAt (changes ++ [change]) time = change.heightAfter (height changes) := by
  rw [heightAt_of_length_le (by simpa using Nat.succ_le_of_lt h), height_append_singleton]

theorem Survives.lt_length (h : Survives changes time name value) : time < changes.length :=
  (List.getElem?_eq_some_iff.mp h.binds).1

/-- A binding that survives is in a frame that is still open. -/
theorem Survives.heightAt_le (h : Survives changes time name value) :
    heightAt changes time ≤ height changes := by
  rw [← heightAt_of_length_le le_rfl]
  exact h.stays _ h.lt_length.le

/-- Behind one more change those bindings survive whose frames it does not close, and the one that
it makes. -/
theorem survives_append_iff :
    Survives (changes ++ [change]) time name value ↔
      (Survives changes time name value ∧
        heightAt changes time ≤ change.heightAfter (height changes)) ∨
      (time = changes.length ∧ change = .set name value) := by
  constructor
  · rintro ⟨hbinds, hstays⟩
    have hbound := (List.getElem?_eq_some_iff.mp hbinds).1
    rw [List.length_append, List.length_singleton] at hbound
    rcases (Nat.le_of_lt_succ hbound).lt_or_eq with hlt | rfl
    · -- an earlier binding: up to the new change the heights are those from before
      rw [List.getElem?_append_left hlt] at hbinds
      rw [heightAt_append_of_le hlt.le] at hstays
      refine .inl ⟨⟨hbinds, fun later hlater => ?_⟩, ?_⟩
      · rcases le_total later changes.length with hle | hle
        · rw [← heightAt_append_of_le hle]
          exact hstays later hlater
        · rw [heightAt_of_length_le hle, ← heightAt_append_length]
          exact hstays changes.length hlt.le
      · rw [← heightAt_append_of_lt (Nat.lt_succ_self _)]
        exact hstays _ hbound.le
    · exact .inr ⟨rfl, by simpa using hbinds⟩
  · rintro (⟨h, hheight⟩ | ⟨rfl, rfl⟩)
    · have hlt := h.lt_length
      refine ⟨by rw [List.getElem?_append_left hlt, h.binds], fun later hlater => ?_⟩
      rw [heightAt_append_of_le hlt.le]
      rcases le_or_gt later changes.length with hlast | hlast
      · rw [heightAt_append_of_le hlast]
        exact h.stays later hlater
      · rwa [heightAt_append_of_lt hlast]
    · refine ⟨by simp, fun later hlater => ?_⟩
      rw [heightAt_append_length]
      rcases hlater.eq_or_lt with rfl | hlast
      · exact heightAt_append_length.ge
      · rw [heightAt_append_of_lt hlast]
        rfl

end Survival

/-! ## What the frames bind -/

/-- A binding that survives, in the frame at a level. -/
structure SurvivesIn (changes : List Change) (level time : Nat) (name : String) (value : Value) :
    Prop where
  survives : Survives changes time name value
  level_eq : heightAt changes time = level

/-- A frame gives a name the value of the latest binding that survives at its level. -/
def Binds (changes : List Change) (level : Nat) (frame : Frame) : Prop :=
  ∀ name, match frame.lookup name with
    | some value => ∃ time, SurvivesIn changes level time name value ∧
        ∀ time' value', SurvivesIn changes level time' name value' → time' ≤ time
    | none => ∀ time value, ¬ SurvivesIn changes level time name value

/-- Each frame binds what survives at its level, which is the number of frames outside of it. -/
def FramesBind (changes : List Change) : List Frame → Prop
  | [] => True
  | frame :: outer => Binds changes outer.length frame ∧ FramesBind changes outer

section Frames

variable {changes : List Change} {change : Change} {level time : Nat} {name : String}
  {value : Value} {frame : Frame} {frames : List Frame}

/-- Levels that one more change leaves open keep their bindings; it may add one. -/
theorem survivesIn_append_iff (hlevel : level ≤ change.heightAfter (height changes)) :
    SurvivesIn (changes ++ [change]) level time name value ↔
      SurvivesIn changes level time name value ∨
      (time = changes.length ∧ change = .set name value ∧ height changes = level) := by
  constructor
  · rintro ⟨hsurvives, rfl⟩
    rcases survives_append_iff.mp hsurvives with ⟨h, -⟩ | ⟨rfl, hchange⟩
    · exact .inl ⟨h, (heightAt_append_of_le h.lt_length.le).symm⟩
    · exact .inr ⟨rfl, hchange, heightAt_append_length.symm⟩
  · rintro (⟨h, rfl⟩ | ⟨rfl, hchange, rfl⟩)
    · refine ⟨survives_append_iff.mpr (.inl ⟨h, hlevel⟩), ?_⟩
      exact heightAt_append_of_le h.lt_length.le
    · exact ⟨survives_append_iff.mpr (.inr ⟨rfl, hchange⟩), heightAt_append_length⟩

/-- A frame that stays open binds what it did, unless a binding is made in it. -/
theorem Binds.append (h : Binds changes level frame)
    (hlevel : level ≤ change.heightAfter (height changes))
    (hother : ∀ name value, change = .set name value → level < height changes) :
    Binds (changes ++ [change]) level frame := by
  have hsame : ∀ time name value, SurvivesIn (changes ++ [change]) level time name value ↔
      SurvivesIn changes level time name value := by
    intro time name value
    rw [survivesIn_append_iff hlevel, or_iff_left]
    rintro ⟨-, hchange, heq⟩
    exact (hother name value hchange).ne' heq
  simpa only [Binds, hsame] using h

/-- Frames record a further change if none of them is touched by it. -/
theorem FramesBind.append (h : FramesBind changes frames)
    (hlevel : frames.length ≤ change.heightAfter (height changes) + 1)
    (hother : ∀ name value, change = .set name value → frames.length ≤ height changes) :
    FramesBind (changes ++ [change]) frames := by
  induction frames with
  | nil => trivial
  | cons frame outer ih =>
      obtain ⟨hframe, houter⟩ := h
      exact ⟨hframe.append (Nat.le_of_succ_le_succ hlevel) hother,
        ih houter (Nat.le_of_succ_le hlevel)
          fun name value hchange => Nat.le_of_succ_le (hother name value hchange)⟩

/-- A frame that has just been opened binds nothing. -/
theorem binds_push : Binds (changes ++ [.push]) (height changes + 1) [] := by
  rintro name time value ⟨hsurvives, hlevel⟩
  rcases survives_append_iff.mp hsurvives with ⟨h, -⟩ | ⟨-, hchange⟩
  · rw [heightAt_append_of_le h.lt_length.le] at hlevel
    have hle := h.heightAt_le
    omega
  · cases hchange

/-- A new binding hides those of the same name in its frame. -/
theorem Binds.set (h : Binds changes (height changes) frame) (name : String) (value : Value) :
    Binds (changes ++ [.set name value]) (height changes) ((name, value) :: frame) := by
  have hlevel : height changes ≤ (Change.set name value).heightAfter (height changes) := le_rfl
  intro other
  by_cases hname : other = name
  · subst hname
    rw [List.lookup_cons_self]
    refine ⟨changes.length, (survivesIn_append_iff hlevel).mpr (.inr ⟨rfl, rfl, rfl⟩), ?_⟩
    intro time' value' h'
    rcases (survivesIn_append_iff hlevel).mp h' with h' | ⟨rfl, -⟩
    · exact h'.survives.lt_length.le
    · exact le_rfl
  · have hsame : ∀ time value',
        SurvivesIn (changes ++ [.set name value]) (height changes) time other value' ↔
          SurvivesIn changes (height changes) time other value' := by
      intro time value'
      rw [survivesIn_append_iff hlevel, or_iff_left]
      rintro ⟨-, hchange, -⟩
      cases hchange
      exact hname rfl
    have hlookup : ((name, value) :: frame).lookup other = frame.lookup other := by
      rw [List.lookup_cons, beq_eq_false_iff_ne.mpr hname]
    simpa only [hlookup, hsame] using h other

/-- The latest binding in the innermost of the frames that have one. -/
theorem binding?_of_framesBind (h : FramesBind changes frames) (name : String) :
    match binding? name frames with
    | some value => ∃ time, Survives changes time name value ∧
        ∀ time' value', Survives changes time' name value' →
          heightAt changes time' < frames.length →
            heightAt changes time' ≤ heightAt changes time ∧
              (heightAt changes time' = heightAt changes time → time' ≤ time)
    | none => ∀ time value, Survives changes time name value →
        frames.length ≤ heightAt changes time := by
  induction frames with
  | nil => exact fun _ _ _ => Nat.zero_le _
  | cons frame outer ih =>
      obtain ⟨hframe, houter⟩ := h
      have hhere := hframe name
      cases hlookup : frame.lookup name with
      | some value =>
          simp only [binding?, hlookup] at hhere ⊢
          obtain ⟨time, ⟨hsurvives, hlevel⟩, hlatest⟩ := hhere
          refine ⟨time, hsurvives, fun time' value' h' hbound => ⟨?_, fun heq => ?_⟩⟩
          · rw [hlevel]
            exact Nat.le_of_lt_succ hbound
          · exact hlatest time' value' ⟨h', heq.trans hlevel⟩
      | none =>
          simp only [binding?, hlookup] at hhere ⊢
          -- the frame has no such binding, so a level below its own is as good as one up to it
          have hinner : ∀ {time value}, Survives changes time name value →
              heightAt changes time ≠ outer.length :=
            fun h' heq => hhere _ _ ⟨h', heq⟩
          specialize ih houter
          cases hrest : binding? name outer with
          | some value =>
              simp only [hrest] at ih ⊢
              obtain ⟨time, hsurvives, hbest⟩ := ih
              refine ⟨time, hsurvives, fun time' value' h' hbound => hbest time' value' h' ?_⟩
              exact lt_of_le_of_ne (Nat.le_of_lt_succ hbound) (hinner h')
          | none =>
              simp only [hrest] at ih ⊢
              exact fun time value h' => lt_of_le_of_ne (ih time value h') (hinner h').symm

end Frames

/-! ## What a scope records -/

/-- A scope over a document with the frames that changes leave open, and with their bindings. -/
structure Records (root : Value) (changes : List Change) (scope : Scope) : Prop where
  root_eq : scope.root = root
  length_outer : scope.outer.length = height changes
  framesBind : FramesBind changes (scope.inner :: scope.outer)

/-- Over a document alone, nothing is bound. -/
theorem records_ofDocument (root : Value) : Records root [] (ofDocument root) where
  root_eq := rfl
  length_outer := rfl
  framesBind := by
    refine ⟨fun name time value h => ?_, trivial⟩
    exact absurd h.survives.lt_length (Nat.not_lt_zero time)

section Records

variable {root : Value} {changes : List Change} {scope : Scope}

/-- Opening a frame is recorded by an empty frame. -/
theorem Records.push (h : Records root changes scope) :
    Records root (changes ++ [.push]) scope.push := by
  obtain ⟨hroot, hlength, hframes⟩ := h
  have hlevel : (scope.inner :: scope.outer).length = height changes + 1 :=
    congrArg Nat.succ hlength
  have hheight : height (changes ++ [.push]) = height changes + 1 := height_append_singleton
  refine ⟨hroot, hlevel.trans hheight.symm, ?_, hframes.append ?_ nofun⟩
  · change Binds _ (scope.inner :: scope.outer).length []
    rw [hlevel]
    exact binds_push
  · rw [hlevel]
    exact Nat.le_succ _

/-- Closing a frame is recorded by leaving it out. Where only the first frame is left, it stays. -/
theorem Records.pop (h : Records root changes scope) :
    Records root (changes ++ [.pop]) scope.pop := by
  obtain ⟨root', inner, outer⟩ := scope
  obtain ⟨hroot, hlength, hframes⟩ := h
  have hheight : height (changes ++ [.pop]) = height changes - 1 := height_append_singleton
  rw [← hlength] at hheight
  cases outer with
  | nil => exact ⟨hroot, hheight.symm, hframes.append (Nat.le_add_left _ _) nofun⟩
  | cons frame rest =>
      refine ⟨hroot, hheight.symm, hframes.2.append ?_ nofun⟩
      rw [← hlength]
      exact le_rfl

/-- A binding is recorded in the innermost frame. -/
theorem Records.set (h : Records root changes scope) (name : String) (value : Value) :
    Records root (changes ++ [.set name value]) (scope.set name value) := by
  obtain ⟨hroot, hlength, hinner, houter⟩ := h
  have hheight : height (changes ++ [.set name value]) = height changes := height_append_singleton
  refine ⟨hroot, hlength.trans hheight.symm, ?_, houter.append ?_ fun _ _ _ => hlength.le⟩
  · change Binds _ scope.outer.length _
    rw [hlength] at hinner ⊢
    exact hinner.set name value
  · rw [hlength]
    exact Nat.le_succ _

/-- One more change is recorded. -/
theorem Records.apply (h : Records root changes scope) (change : Change) :
    Records root (changes ++ [change]) (change.apply scope) := by
  cases change with
  | push => exact h.push
  | pop => exact h.pop
  | set name value => exact h.set name value

end Records

/-- Whatever was changed, a scope records it. -/
theorem records_run (root : Value) (changes : List Change) :
    Records root changes ((ofDocument root).run changes) := by
  induction changes using List.reverseRecOn with
  | nil => exact records_ofDocument root
  | append_singleton changes change ih =>
      rw [run_append]
      exact ih.apply change

/-- A name means what the binding says that prevails, and what it means in the document if none
survives. -/
theorem get?_run (root : Value) (changes : List Change) (name : String) :
    (∃ time value, Prevails changes time name value ∧
        ((ofDocument root).run changes).get? name = some value) ∨
      (∀ time value, ¬ Survives changes time name value) ∧
        ((ofDocument root).run changes).get? name = fromDocument? root name := by
  obtain ⟨hroot, hlength, hframes⟩ := records_run root changes
  generalize (ofDocument root).run changes = scope at hroot hlength hframes ⊢
  have hbelow : ∀ {time value}, Survives changes time name value →
      heightAt changes time < (scope.inner :: scope.outer).length := fun h =>
    Nat.lt_succ_of_le (hlength ▸ h.heightAt_le)
  have hbinding := binding?_of_framesBind hframes name
  cases hfound : binding? name (scope.inner :: scope.outer) with
  | some value =>
      simp only [hfound] at hbinding
      obtain ⟨time, hsurvives, hbest⟩ := hbinding
      refine .inl ⟨time, value, ⟨hsurvives, ?_, ?_⟩, by rw [get?, hfound]⟩
      · exact fun time' value' h => (hbest time' value' h (hbelow h)).1
      · exact fun time' value' h => (hbest time' value' h (hbelow h)).2
  | none =>
      simp only [hfound] at hbinding
      refine .inr ⟨fun time value h => ?_, by rw [get?, hfound, hroot]⟩
      exact absurd (hbelow h) (not_lt.mpr (hbinding time value h))

/-! ## Brackets -/

section Brackets

variable {scope : Scope} {above below : List Frame} {changes : List Change}

/-- A change that closes no frame but those above a part of the stack leaves that part as it is. -/
theorem exists_outer_apply {change : Change} (houter : scope.outer = above ++ below)
    (h : [change].countP Change.closes ≤ [change].countP Change.opens + above.length) :
    ∃ above', (change.apply scope).root = scope.root ∧
      (change.apply scope).outer = above' ++ below ∧
      above'.length + [change].countP Change.closes =
        above.length + [change].countP Change.opens := by
  cases change with
  | push => exact ⟨scope.inner :: above, rfl, congrArg (scope.inner :: ·) houter, rfl⟩
  | pop =>
      obtain ⟨root, inner, outer⟩ := scope
      cases above with
      | nil => exact absurd h (by decide)
      | cons frame above =>
          obtain rfl : outer = frame :: (above ++ below) := houter
          exact ⟨above, rfl, rfl, rfl⟩
  | set name value => exact ⟨above, rfl, houter, rfl⟩

/-- Changes that never close more frames than they have opened and there are above a part of the
stack leave that part as it is. -/
theorem exists_outer_run (houter : scope.outer = above ++ below)
    (h : ∀ front, front <+: changes →
      front.countP Change.closes ≤ front.countP Change.opens + above.length) :
    ∃ above', (scope.run changes).root = scope.root ∧
      (scope.run changes).outer = above' ++ below ∧
      above'.length + changes.countP Change.closes =
        above.length + changes.countP Change.opens := by
  induction changes generalizing scope above with
  | nil => exact ⟨above, rfl, houter, rfl⟩
  | cons change rest ih =>
      have hcount : ∀ p front,
          (change :: front).countP p = [change].countP p + front.countP p := by
        intro p front
        rw [← List.singleton_append, List.countP_append]
      -- what is above after the first change is what the rest may close
      obtain ⟨middle, hroot, hmiddle, hstep⟩ :=
        exists_outer_apply houter (h [change] ⟨rest, rfl⟩)
      have hfront : ∀ front, front <+: rest →
          front.countP Change.closes ≤ front.countP Change.opens + middle.length := by
        intro front hprefix
        have hle := h (change :: front) (List.cons_prefix_cons.mpr ⟨rfl, hprefix⟩)
        rw [hcount Change.closes front, hcount Change.opens front] at hle
        omega
      obtain ⟨above', hroot', houter', hrest⟩ := ih hmiddle hfront
      refine ⟨above', hroot'.trans hroot, houter', ?_⟩
      rw [hcount Change.closes rest, hcount Change.opens rest]
      omega

/-- Well-bracketed changes touch the innermost frame only. -/
theorem WellBracketed.sameAround (h : WellBracketed changes) (scope : Scope) :
    scope.SameAround (scope.run changes) := by
  have houter : scope.outer = [] ++ scope.outer := rfl
  obtain ⟨above, hroot, houter, hcount⟩ := exists_outer_run houter h.opened
  rw [h.closed, Nat.add_right_cancel_iff] at hcount
  rw [List.eq_nil_of_length_eq_zero hcount] at houter
  exact ⟨hroot, houter⟩

/-- What happens between an opening and the closing that belongs to it leaves no trace. -/
theorem run_bracket (scope : Scope) {body : List Change} (h : WellBracketed body) :
    scope.run (.push :: body ++ [.pop]) = scope := by
  have hrun : scope.run (.push :: body ++ [.pop]) = (scope.push.run body).pop :=
    run_append scope (.push :: body) [.pop]
  rw [hrun]
  exact (h.sameAround scope.push).pop rfl rfl

/-- Closing frames where there is only the first one changes nothing. -/
theorem run_pops (h : scope.depth = 1) (n : Nat) :
    scope.run (List.replicate n .pop) = scope := by
  have hpop : scope.pop = scope := by
    obtain ⟨root, inner, outer⟩ := scope
    cases outer with
    | nil => rfl
    | cons frame rest => cases h
  induction n with
  | zero => rfl
  | succ n ih =>
      have hrun : scope.run (List.replicate (n + 1) .pop) =
          scope.pop.run (List.replicate n .pop) := rfl
      rw [hrun, hpop, ih]

end Brackets

/-! ## Any history -/

/-- After any changes there is at least one frame, and one more for each that was opened and not
closed. A name means what the latest binding says that has not been closed with its frame, in the
innermost frame that has one; where there is none, `model` means the whole document, and another
name the member of the document under that name. Opening a frame and closing it again, with
well-bracketed changes between, leaves every name its meaning, and closing frames where there is
only the first one changes nothing. -/
theorem meaning_of_history (root : Value) (changes : List Change) :
    let scope := (ofDocument root).run changes
    (1 ≤ scope.depth ∧ scope.depth = height changes + 1) ∧
    (∀ name,
      (∃ time value, Prevails changes time name value ∧ scope.get? name = some value) ∨
      (∀ time value, ¬ Survives changes time name value) ∧
        scope.get? name =
          if name = "model" then some root
          else
            match root with
            | .object members => Value.member? name members
            | _ => none) ∧
    (∀ body, WellBracketed body →
      (scope.run (.push :: body ++ [.pop])).depth = scope.depth ∧
        ∀ name, (scope.run (.push :: body ++ [.pop])).get? name = scope.get? name) ∧
    (scope.depth = 1 → ∀ n, scope.run (List.replicate n .pop) = scope) := by
  intro scope
  have hdepth : scope.depth = height changes + 1 :=
    congrArg Nat.succ (records_run root changes).length_outer
  refine ⟨⟨Nat.le_add_left _ _, hdepth⟩, get?_run root changes, fun body h => ?_,
    fun h => run_pops h⟩
  rw [run_bracket scope h]
  exact ⟨rfl, fun _ => rfl⟩

/-- A name bound to null in the innermost frame hides the bindings outside of it and the member of
the document, and has this meaning again behind a bracket in which it is bound anew. -/
theorem meaning_of_history_null :
    let root := Value.object [("x", .bool true), ("model", .null)]
    let changes := [Change.set "x" (.string "a"), .push, .set "x" .null, .push,
      .set "x" (.string "b"), .pop]
    let body := [Change.set "x" (.bool false), .push, .set "y" .null, .pop]
    let scope := (ofDocument root).run changes
    (∃ time, Prevails changes time "x" .null) ∧ scope.get? "x" = some .null ∧
      scope.get? "model" = some root ∧ WellBracketed body ∧
      (scope.run (.push :: body ++ [.pop])).get? "x" = some .null ∧
      scope.pop.depth = 1 ∧ scope.pop.run [.pop, .pop] = scope.pop := by
  intro root changes body scope
  have hbody : WellBracketed body := by
    have hopened : ∀ front ∈ body.inits,
        front.countP Change.closes ≤ front.countP Change.opens := by decide
    exact ⟨fun front hprefix => hopened front ((List.mem_inits _ _).mpr hprefix), rfl⟩
  have hx : scope.get? "x" = some .null := rfl
  obtain ⟨-, hmeaning, hbracket, -⟩ := meaning_of_history root changes
  obtain ⟨-, -, -, hpops⟩ := meaning_of_history root (changes ++ [.pop])
  have hprevails : ∃ time, Prevails changes time "x" .null := by
    rcases hmeaning "x" with ⟨time, value, hprevails, hget⟩ | ⟨-, hget⟩
    · cases hx.symm.trans hget
      exact ⟨time, hprevails⟩
    · cases hx.symm.trans hget
  have hmodel : scope.get? "model" = some root := by
    rcases hmeaning "model" with ⟨time, value, hprevails, -⟩ | ⟨-, hget⟩
    · have hmem := List.mem_of_getElem? hprevails.survives.binds
      simp [changes] at hmem
    · exact hget
  exact ⟨hprevails, hx, hmodel, hbody, (hbracket body hbody).2 "x", rfl, hpops rfl 2⟩

end TextTemplate.Scope
