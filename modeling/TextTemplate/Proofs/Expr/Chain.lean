import Mathlib.Data.Nat.Log
import TextTemplate.Eval
import TextTemplate.Proofs.Node.UnknownFilter
/-! # Chains of `and` and of `or`

A chain is kept as a tree of its operator over its operands. Main statement: no way down this tree
to an operand is longer than the binary logarithm of the number of operands, and the tree has the
value of the chain, whose operands are evaluated from left to right up to the first that decides.
-/

namespace TextTemplate

/-- The truth value with which an operand decides a chain. Other operators make no chains. -/
def BinaryOp.deciding? : BinaryOp → Option Bool
  | .and => some false
  | .or => some true
  | _ => none

/-! ## The depth of the tree -/

namespace Expr

/-- A tree of one operator over operands, in their order, and the greatest number of operators on
a way down to one of them. -/
inductive JoinedBy (op : BinaryOp) : Nat → List Expr → Expr → Prop
  | operand (operand : Expr) : JoinedBy op 0 [operand] operand
  | node {leftDepth rightDepth : Nat} {lefts rights : List Expr} {left right : Expr}
      (hleft : JoinedBy op leftDepth lefts left) (hright : JoinedBy op rightDepth rights right) :
      JoinedBy op (max leftDepth rightDepth + 1) (lefts ++ rights) (.binary op left right)

/-- Halving takes one off the logarithm, and the second half is the one that counts. -/
theorem clog_halves {m n : Nat} (hm : 0 < m) (hhalf : m = (m + n) / 2) :
    max (Nat.clog 2 m) (Nat.clog 2 n) + 1 = Nat.clog 2 (m + n) := by
  have hsecond : (m + n + 2 - 1) / 2 = n := by omega
  have hle : Nat.clog 2 m ≤ Nat.clog 2 n := Nat.clog_mono_right 2 (by omega)
  have htwo : 2 ≤ m + n := by omega
  rw [Nat.clog_of_two_le (by decide) htwo, hsecond, max_eq_right hle]

/-- The tree over a chain has the operands of the chain from left to right, and no binary tree over
as many is lower. -/
theorem joinedBy_balanced (op : BinaryOp) (first : Expr) (rest : List Expr) :
    JoinedBy op (Nat.clog 2 (first :: rest).length) (first :: rest) (balanced op first rest) := by
  refine balanced_induction_halves (motive := fun operands joined =>
    JoinedBy op (Nat.clog 2 operands.length) operands joined) ?_ ?_ first rest
  · intro operand
    rw [List.length_singleton, Nat.clog_one_right]
    exact .operand operand
  · intro lefts rights left right hsome hhalf hleft hright
    rw [List.length_append] at hhalf ⊢
    rw [← clog_halves hsome hhalf]
    exact .node hleft hright

/-- With more than one operand the tree has the operator at its root. -/
theorem exists_balanced_eq_binary (op : BinaryOp) (first : Expr) {rest : List Expr}
    (h : rest ≠ []) : ∃ left right, balanced op first rest = .binary op left right := by
  have hmany : 1 < (first :: rest).length := by
    simpa using List.length_pos_iff.mpr h
  revert hmany
  refine balanced_induction (motive := fun operands joined =>
    1 < operands.length → ∃ left right, joined = .binary op left right) ?_ ?_ first rest
  · exact fun operand hmany => absurd hmany (lt_irrefl 1)
  · exact fun _ _ left right _ _ _ => ⟨left, right, rfl⟩

end Expr

/-! ## The value of the tree -/

namespace Context

variable {context : Context} {op : BinaryOp} {deciding : Bool}

/-- The truth value of a chain: its operands are evaluated in order, up to the first that has the
truth value `deciding`. -/
def scan (context : Context) (deciding : Bool) : List Expr → Except TemplateError Bool
  | [] => .ok !deciding
  | operand :: rest => do
    if (← context.holds operand) = deciding then pure deciding else scan context deciding rest

/-- Evaluating a chain from left to right comes to an operand: none in front of it decides. -/
def Reaches (context : Context) (deciding : Bool) (operands : List Expr) (operand : Expr) : Prop :=
  ∃ passed behind, operands = passed ++ operand :: behind ∧
    ∀ other ∈ passed, context.holds other = .ok !deciding

section Scan

variable {operand : Expr}

theorem holds_eq_error_iff {error : TemplateError} :
    context.holds operand = .error error ↔ context.evaluate operand = .error error := by
  unfold holds
  cases context.evaluate operand with
  | error other => constructor <;> rintro ⟨⟩ <;> rfl
  | ok value => exact iff_of_false nofun nofun

/-- An operand lets the scan pass, decides the chain, or fails. -/
theorem holds_cases (context : Context) (deciding : Bool) (operand : Expr) :
    context.holds operand = .ok !deciding ∨ context.holds operand = .ok deciding ∨
      ∃ error, context.holds operand = .error error := by
  rcases context.holds operand with error | outcome
  · exact .inr (.inr ⟨error, rfl⟩)
  · cases outcome <;> cases deciding <;> simp

/-- An operand that does not decide is passed over. -/
theorem scan_cons_of_passed (h : context.holds operand = .ok !deciding) (rest : List Expr) :
    context.scan deciding (operand :: rest) = context.scan deciding rest := by
  rw [scan, h]
  cases deciding <;> rfl

theorem scan_cons_of_decided (h : context.holds operand = .ok deciding) (rest : List Expr) :
    context.scan deciding (operand :: rest) = .ok deciding := by
  rw [scan, h]
  cases deciding <;> rfl

/-- An operand that fails ends the scan, and nothing behind it is evaluated. -/
theorem scan_cons_of_error {error : TemplateError} (h : context.holds operand = .error error)
    (rest : List Expr) : context.scan deciding (operand :: rest) = .error error := by
  rw [scan, h]
  rfl

theorem scan_singleton (context : Context) (deciding : Bool) (operand : Expr) :
    context.scan deciding [operand] = context.holds operand := by
  rcases context.holds_cases deciding operand with h | h | ⟨error, h⟩
  · rw [scan_cons_of_passed h, h, scan]
  · rw [scan_cons_of_decided h, h]
  · rw [scan_cons_of_error h, h]

/-- A chain can be scanned in two parts. The second is looked at only if the first does not
decide. -/
theorem scan_append (lefts rights : List Expr) :
    context.scan deciding (lefts ++ rights) =
      (do
        if (← context.scan deciding lefts) = deciding then pure deciding
        else context.scan deciding rights) := by
  -- the first operand ends both scans alike, or is dropped from both
  induction lefts with
  | nil => cases deciding <;> rfl
  | cons left lefts ih =>
      rw [List.cons_append]
      rcases context.holds_cases deciding left with h | h | ⟨error, h⟩
      · rw [scan_cons_of_passed h, scan_cons_of_passed h, ih]
      · rw [scan_cons_of_decided h, scan_cons_of_decided h]
        cases deciding <;> rfl
      · rw [scan_cons_of_error h, scan_cons_of_error h]
        rfl

/-! ### How a scan ends -/

theorem reaches_cons_self (operand : Expr) (rest : List Expr) :
    context.Reaches deciding (operand :: rest) operand := ⟨[], rest, rfl, nofun⟩

theorem Reaches.cons {first : Expr} {rest : List Expr} (h : context.Reaches deciding rest operand)
    (hfirst : context.holds first = .ok !deciding) :
    context.Reaches deciding (first :: rest) operand := by
  obtain ⟨passed, behind, rfl, hpassed⟩ := h
  exact ⟨first :: passed, behind, rfl, List.forall_mem_cons.mpr ⟨hfirst, hpassed⟩⟩

/-- A scan ends as the first operand does that does not let it pass. -/
theorem scan_of_reaches {operands : List Expr} (h : context.Reaches deciding operands operand)
    (hends : context.holds operand ≠ .ok !deciding) :
    context.scan deciding operands = context.holds operand := by
  obtain ⟨passed, behind, rfl, hpassed⟩ := h
  induction passed with
  | nil =>
      rcases context.holds_cases deciding operand with h | h | ⟨error, h⟩
      · exact absurd h hends
      · rw [List.nil_append, scan_cons_of_decided h, h]
      · rw [List.nil_append, scan_cons_of_error h, h]
  | cons first passed ih =>
      obtain ⟨hfirst, hrest⟩ := List.forall_mem_cons.mp hpassed
      rw [List.cons_append, scan_cons_of_passed hfirst, ih hrest]

/-- If every operand is passed, the chain has the other truth value. -/
theorem scan_of_passed {operands : List Expr}
    (h : ∀ operand ∈ operands, context.holds operand = .ok !deciding) :
    context.scan deciding operands = .ok !deciding := by
  induction operands with
  | nil => rfl
  | cons first rest ih =>
      obtain ⟨hfirst, hrest⟩ := List.forall_mem_cons.mp h
      rw [scan_cons_of_passed hfirst, ih hrest]

/-- Either all operands let the scan pass, or there is one that ends it. -/
theorem exists_reaches (context : Context) (deciding : Bool) (operands : List Expr) :
    (∀ operand ∈ operands, context.holds operand = .ok !deciding) ∨
      ∃ operand, context.Reaches deciding operands operand ∧
        context.holds operand ≠ .ok !deciding := by
  induction operands with
  | nil => exact .inl nofun
  | cons first rest ih =>
      by_cases hfirst : context.holds first = .ok !deciding
      · rcases ih with hrest | ⟨operand, hreaches, hends⟩
        · exact .inl (List.forall_mem_cons.mpr ⟨hfirst, hrest⟩)
        · exact .inr ⟨operand, hreaches.cons hfirst, hends⟩
      · exact .inr ⟨first, reaches_cons_self first rest, hfirst⟩

/-- A chain fails exactly if an operand is reached that fails, and with its error. -/
theorem scan_eq_error_iff {operands : List Expr} {error : TemplateError} :
    context.scan deciding operands = .error error ↔
      ∃ operand, context.Reaches deciding operands operand ∧
        context.evaluate operand = .error error := by
  constructor
  · intro h
    rcases context.exists_reaches deciding operands with hpassed | ⟨operand, hreaches, hends⟩
    · cases (scan_of_passed hpassed).symm.trans h
    · exact ⟨operand, hreaches,
        holds_eq_error_iff.mp ((scan_of_reaches hreaches hends).symm.trans h)⟩
  · rintro ⟨operand, hreaches, hfails⟩
    have hholds := holds_eq_error_iff.mpr hfails
    rw [scan_of_reaches hreaches (by rw [hholds]; nofun), hholds]

/-- A chain has the deciding truth value if an operand that has it is reached, and the other one if
all operands are passed. -/
theorem scan_eq_ok_iff {operands : List Expr} {outcome : Bool} :
    context.scan deciding operands = .ok outcome ↔
      (outcome = deciding ∧ ∃ operand, context.Reaches deciding operands operand ∧
        context.holds operand = .ok deciding) ∨
      (outcome = !deciding ∧
        ∀ operand ∈ operands, context.holds operand = .ok !deciding) := by
  constructor
  · intro h
    rcases context.exists_reaches deciding operands with hpassed | ⟨operand, hreaches, hends⟩
    · rw [scan_of_passed hpassed, Except.ok.injEq] at h
      exact .inr ⟨h.symm, hpassed⟩
    · rw [scan_of_reaches hreaches hends] at h
      rcases context.holds_cases deciding operand with hresult | hresult | ⟨error, hresult⟩
      · exact absurd hresult hends
      · rw [hresult, Except.ok.injEq] at h
        exact .inl ⟨h.symm, operand, hreaches, hresult⟩
      · cases hresult.symm.trans h
  · rintro (⟨rfl, operand, hreaches, hdecides⟩ | ⟨rfl, hpassed⟩)
    · have hends : context.holds operand ≠ .ok !outcome := by
        rw [hdecides]
        cases outcome <;> simp
      rw [scan_of_reaches hreaches hends, hdecides]
    · exact scan_of_passed hpassed

end Scan

/-! ### The tree and the scan -/

/-- What an operator of a chain makes of two operands. -/
theorem evaluate_binary (hop : op.deciding? = some deciding) (left right : Expr) :
    context.evaluate (.binary op left right) =
      Except.map Value.bool
        (do if (← context.holds left) = deciding then pure deciding else context.holds right) := by
  simp only [holds, evaluate]
  cases context.evaluate left with
  | error error => rfl
  | ok first =>
      -- only `and` and `or` decide, one on a false operand and one on a true
      cases op <;> cases hop
      all_goals
        simp only [bind, Except.bind, pure, Except.pure]
        cases first.isTruthy with
        | true => cases context.evaluate right <;> rfl
        | false => cases context.evaluate right <;> rfl

theorem holds_binary (hop : op.deciding? = some deciding) (left right : Expr) :
    context.holds (.binary op left right) =
      (do if (← context.holds left) = deciding then pure deciding else context.holds right) := by
  rw [holds, evaluate_binary hop]
  generalize (do if (← context.holds left) = deciding then pure deciding else context.holds right) =
    outcome
  cases outcome <;> rfl

/-- However the operators are nested, the tree over a chain holds if scanning the chain from left to
right does. -/
theorem holds_balanced (hop : op.deciding? = some deciding) (first : Expr) (rest : List Expr) :
    context.holds (Expr.balanced op first rest) = context.scan deciding (first :: rest) := by
  refine Expr.balanced_induction (motive := fun operands joined =>
    context.holds joined = context.scan deciding operands) ?_ ?_ first rest
  · intro operand
    rw [scan_singleton]
  · intro lefts rights left right hleft hright
    rw [holds_binary hop, hleft, hright, scan_append]

/-- A single operand is left as it is, with any value; more make a tree that has a truth value. -/
theorem evaluate_balanced (hop : op.deciding? = some deciding) (first : Expr) {rest : List Expr}
    (hrest : rest ≠ []) :
    context.evaluate (Expr.balanced op first rest) =
      (context.scan deciding (first :: rest)).map .bool := by
  obtain ⟨left, right, htree⟩ := Expr.exists_balanced_eq_binary op first hrest
  rw [← holds_balanced hop, htree, evaluate_binary hop, holds_binary hop]

end Context

/-- A chain of `and` or of `or` is kept as a tree whose depth above its operands is the binary
logarithm of their number, rounded up. From two operands on, the tree has the value of evaluating
them from left to right: it fails exactly if an operand that is reached fails, with the error of
that one, decides for `deciding` exactly if an operand that is reached has that truth value, and for
the other truth value if none has. What is behind the operand that ends the evaluation does not
count. -/
theorem Expr.balanced_short_circuits {op : BinaryOp} {deciding : Bool}
    (hop : op.deciding? = some deciding) (first : Expr) (rest : List Expr) :
    JoinedBy op (Nat.clog 2 (first :: rest).length) (first :: rest) (balanced op first rest) ∧
    ∀ context : Context, rest ≠ [] →
      context.evaluate (balanced op first rest) =
        (context.scan deciding (first :: rest)).map .bool ∧
      (∀ error, context.evaluate (balanced op first rest) = .error error ↔
        ∃ operand, context.Reaches deciding (first :: rest) operand ∧
          context.evaluate operand = .error error) ∧
      (∀ value, context.evaluate (balanced op first rest) = .ok value ↔
        (value = .bool deciding ∧ ∃ operand, context.Reaches deciding (first :: rest) operand ∧
          context.holds operand = .ok deciding) ∨
        (value = .bool !deciding ∧
          ∀ operand ∈ first :: rest, context.holds operand = .ok !deciding)) := by
  refine ⟨joinedBy_balanced op first rest, fun context hrest => ?_⟩
  have hvalue := context.evaluate_balanced hop first hrest
  refine ⟨hvalue, fun error => ?_, fun value => ?_⟩
  · rw [hvalue, ← Context.scan_eq_error_iff]
    cases context.scan deciding (first :: rest) <;> simp [Except.map]
  · have houtcome : context.evaluate (balanced op first rest) = .ok value ↔
        ∃ outcome, value = .bool outcome ∧ context.scan deciding (first :: rest) = .ok outcome := by
      rw [hvalue]
      cases context.scan deciding (first :: rest) <;> simp [Except.map, eq_comm]
    simp only [houtcome, Context.scan_eq_ok_iff]
    constructor
    · rintro ⟨outcome, rfl, ⟨rfl, h⟩ | ⟨rfl, h⟩⟩
      · exact .inl ⟨rfl, h⟩
      · exact .inr ⟨rfl, h⟩
    · rintro (⟨rfl, h⟩ | ⟨rfl, h⟩)
      · exact ⟨_, rfl, .inl ⟨rfl, h⟩⟩
      · exact ⟨_, rfl, .inr ⟨rfl, h⟩⟩

/-- Of three operands of an `and` the second decides, and the third, which would fail, is not
reached. -/
theorem Expr.balanced_short_circuits_and :
    let unknown := Expr.filtered (.literal .null) [⟨"nope", [], Position.start⟩]
    let chain := balanced .and (.literal (.bool true)) [.literal .null, unknown]
    let context : Context := ⟨Scope.ofDocument .null, 0⟩
    context.evaluate unknown = .error (.unknownFilter "nope" Position.start) ∧
      JoinedBy .and 2 [.literal (.bool true), .literal .null, unknown] chain ∧
      context.evaluate chain = .ok (.bool false) := by
  intro unknown chain context
  have hunknown : context.evaluate unknown = .error (.unknownFilter "nope" Position.start) := rfl
  have hdepth : Nat.clog 2 3 = 2 := by decide
  have hand : BinaryOp.and.deciding? = some false := rfl
  obtain ⟨hjoined, hvalues⟩ :=
    balanced_short_circuits hand (.literal (.bool true)) [.literal .null, unknown]
  obtain ⟨-, -, hok⟩ := hvalues context (by simp)
  refine ⟨hunknown, hdepth ▸ hjoined, (hok _).mpr (.inl ⟨rfl, .literal .null, ?_, rfl⟩)⟩
  exact ⟨[.literal (.bool true)], [unknown], rfl, List.forall_mem_singleton.mpr rfl⟩

end TextTemplate
