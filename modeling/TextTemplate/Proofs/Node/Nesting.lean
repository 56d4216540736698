import Mathlib.Data.List.Chain
import TextTemplate.Parser.Expression
import TextTemplate.Proofs.Node.UnknownFilter
/-! # How deep a template is nested

Loops, branches, captures, lookups and ranges each make a level of nesting. `Fragment.Within` bounds
the levels on every way down from a fragment of a template; there is one rule for each shape that
parsing builds.
-/

namespace TextTemplate

/-- A fragment of a template: a node, an expression in one, or a step of a path. -/
inductive Fragment where
  | node (node : Node)
  | expr (expr : Expr)
  | segment (segment : Segment)

/-- The expressions in the tag of a loop. -/
def LoopHeader.exprs (header : LoopHeader) : List Expr :=
  header.iterable :: (header.limit?.toList ++ header.offset?.toList)

/-- The fragments in an arm of a branch. -/
def Arm.fragments (arm : Arm) : List Fragment := .expr arm.condition :: arm.body.map .node

namespace Fragment

/-- The fragments that a fragment is directly made of. -/
def children : Fragment → List Fragment
  | .node (.text _) => []
  | .node (.output shown _) => [.expr shown]
  | .node (.loop header body otherwise) => header.exprs.map .expr ++ (body ++ otherwise).map .node
  | .node (.branch condition body arms otherwise _) =>
    .expr condition :: (body.map .node ++ (arms.flatMap Arm.fragments ++ otherwise.map .node))
  | .node (.assign _ value _) => [.expr value]
  | .node (.capture _ body _) => body.map .node
  | .expr (.literal _) => []
  | .expr (.path segments) => segments.map .segment
  | .expr (.filtered base calls) => .expr base :: calls.flatMap fun call => call.args.map .expr
  | .expr (.binary _ left right) => [.expr left, .expr right]
  | .expr (.not operand) => [.expr operand]
  | .expr (.range first last _) => [.expr first, .expr last]
  | .segment (.field _) | .segment (.index _) => []
  | .segment (.lookup key) => [.expr key]

/-- Loops, branches, captures, lookups and ranges are levels of nesting. -/
def isLevel : Fragment → Bool
  | .node (.loop _ _ _) | .node (.branch _ _ _ _ _) | .node (.capture _ _ _) => true
  | .segment (.lookup _) | .expr (.range _ _ _) => true
  | _ => false

/-- Each fragment is one of those that the one in front of it is made of. -/
def IsWayDown (way : List Fragment) : Prop :=
  way.IsChain fun fragment child => child ∈ fragment.children

/-- The number of levels on a way. -/
def levels (way : List Fragment) : Nat := way.countP isLevel

/-- On no way down from the fragment are there more than `budget` levels. -/
inductive Within : Nat → Fragment → Prop
  | plain {budget : Nat} {fragment : Fragment} (kind : fragment.isLevel = false)
      (inside : ∀ child ∈ fragment.children, Within budget child) : Within budget fragment
  | level {budget : Nat} {fragment : Fragment}
      (inside : ∀ child ∈ fragment.children, Within budget child) : Within (budget + 1) fragment

/-- What lies within a budget lies within a greater one. -/
theorem Within.succ {budget : Nat} {fragment : Fragment} (h : Within budget fragment) :
    Within (budget + 1) fragment := by
  induction h with
  | plain kind inside ih => exact .plain kind ih
  | level inside ih => exact .level ih

/-- The bound holds of every way down, wherever it leads. -/
theorem Within.levels_le {budget : Nat} {top : Fragment} {way : List Fragment}
    (h : Within budget top) (hway : IsWayDown (top :: way)) : levels (top :: way) ≤ budget := by
  induction way generalizing budget top with
  | nil =>
      cases h with
      | plain kind inside => simp [levels, kind]
      | level inside =>
          have hone : levels [top] ≤ [top].length := List.countP_le_length
          exact Nat.le_trans hone (Nat.succ_le_succ (Nat.zero_le _))
  | cons child way ih =>
      obtain ⟨hchild, hrest⟩ := List.isChain_cons_cons.mp hway
      cases h with
      | plain kind inside =>
          have hbehind := ih (inside child hchild) hrest
          rwa [levels, List.countP_cons_of_neg (by simp [kind])]
      | level inside =>
          have hbehind := ih (inside child hchild) hrest
          have hhere : levels (top :: child :: way) ≤ levels (child :: way) + 1 := by
            rw [levels, levels, List.countP_cons]
            split <;> omega
          exact Nat.le_trans hhere (Nat.succ_le_succ hbehind)

section Rules

variable {budget : Nat} {condition first last : Expr} {body otherwise : List Node}
  {position : Position}

theorem within_literal (value : Value) : Within budget (.expr (.literal value)) := .plain rfl nofun

theorem within_path {segments : List Segment}
    (h : ∀ segment ∈ segments, Within budget (.segment segment)) :
    Within budget (.expr (.path segments)) :=
  .plain rfl (List.forall_mem_map.mpr h)

theorem within_filtered {base : Expr} {calls : List FilterCall} (hbase : Within budget (.expr base))
    (hcalls : ∀ call ∈ calls, ∀ arg ∈ call.args, Within budget (.expr arg)) :
    Within budget (.expr (.filtered base calls)) := by
  refine .plain rfl (List.forall_mem_cons.mpr ⟨hbase, ?_⟩)
  intro child hchild
  obtain ⟨call, hcall, hchild⟩ := List.mem_flatMap.mp hchild
  obtain ⟨arg, harg, rfl⟩ := List.mem_map.mp hchild
  exact hcalls call hcall arg harg

theorem within_binary (op : BinaryOp) (hfirst : Within budget (.expr first))
    (hlast : Within budget (.expr last)) : Within budget (.expr (.binary op first last)) :=
  .plain rfl (by simp [children, hfirst, hlast])

/-- A chain of operands is as deep as the deepest of them, however long it is. -/
theorem within_balanced (op : BinaryOp) {rest : List Expr}
    (h : ∀ operand ∈ first :: rest, Within budget (.expr operand)) :
    Within budget (.expr (.balanced op first rest)) := by
  revert h
  refine Expr.balanced_induction (motive := fun operands joined =>
    (∀ operand ∈ operands, Within budget (.expr operand)) → Within budget (.expr joined)) ?_ ?_
    first rest
  · intro operand h
    exact h operand (List.mem_singleton_self operand)
  · intro lefts rights left right hleft hright h
    rw [List.forall_mem_append] at h
    exact within_binary op (hleft h.1) (hright h.2)

theorem within_not (h : Within budget (.expr condition)) :
    Within budget (.expr (.not condition)) :=
  .plain rfl (by simp [children, h])

/-- A range takes a level of its own. -/
theorem within_range (hfirst : Within budget (.expr first)) (hlast : Within budget (.expr last)) :
    Within (budget + 1) (.expr (.range first last position)) :=
  .level (by simp [children, hfirst, hlast])

/-- A bracket is a lookup at most. -/
theorem within_bracketSegment {key : Expr} (h : Within budget (.expr key)) :
    Within (budget + 1) (.segment (Parser.bracketSegment key)) := by
  unfold Parser.bracketSegment
  split
  · exact .plain rfl nofun
  · exact .plain rfl nofun
  · exact .level (by simp [children, h])

/-- A loop takes a level of its own for what it repeats, and none for its header. -/
theorem within_loop {header : LoopHeader}
    (hheader : ∀ expr ∈ header.exprs, Within budget (.expr expr))
    (hbody : ∀ node ∈ body, Within budget (.node node))
    (hotherwise : ∀ node ∈ otherwise, Within budget (.node node)) :
    Within (budget + 1) (.node (.loop header body otherwise)) := by
  refine .level (List.forall_mem_append.mpr ⟨List.forall_mem_map.mpr hheader, ?_⟩)
  exact List.forall_mem_map.mpr (List.forall_mem_append.mpr ⟨hbody, hotherwise⟩)

/-- A branch takes one level for all its bodies. -/
theorem within_branch {arms : List Arm} (hcondition : Within budget (.expr condition))
    (hbody : ∀ node ∈ body, Within budget (.node node))
    (harms : ∀ arm ∈ arms, ∀ fragment ∈ arm.fragments, Within budget fragment)
    (hotherwise : ∀ node ∈ otherwise, Within budget (.node node)) :
    Within (budget + 1) (.node (.branch condition body arms otherwise position)) := by
  have harms' : ∀ fragment ∈ arms.flatMap Arm.fragments, Within budget fragment := by
    intro fragment hfragment
    obtain ⟨arm, harm, hfragment⟩ := List.mem_flatMap.mp hfragment
    exact harms arm harm fragment hfragment
  refine .level (List.forall_mem_cons.mpr ⟨hcondition, ?_⟩)
  refine List.forall_mem_append.mpr ⟨List.forall_mem_map.mpr hbody, ?_⟩
  exact List.forall_mem_append.mpr ⟨harms', List.forall_mem_map.mpr hotherwise⟩

theorem within_capture {name : String} (hbody : ∀ node ∈ body, Within budget (.node node)) :
    Within (budget + 1) (.node (.capture name body position)) :=
  .level (List.forall_mem_map.mpr hbody)

end Rules

end Fragment

end TextTemplate
