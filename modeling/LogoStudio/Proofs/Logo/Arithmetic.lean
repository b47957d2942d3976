import LogoStudio.Proofs.Logo.Evaluation

/-!
# Checked arithmetic

Expressions are checked at every node: a value that is not finite is a fault, and so is a
division by zero. Here the same expressions are evaluated without any check, so that numbers
may overflow on the way, and a node breaks where a check would have been needed. As long as no
node that is reached breaks, checking changes nothing, and as soon as one breaks the checked
evaluation ends in one of the two faults. So a number that is not finite is never hidden by
what is done with it later.
-/
namespace LogoStudio.Logo

def Fault.IsArithmetic (fault : Fault) : Prop := fault = .overflow ∨ fault = .divisionByZero

lemma finite_of_isFinite {x : Float} (h : x.isFinite = true) : finite x = pure x := if_pos h

lemma finite_of_not_isFinite {x : Float} (h : x.isFinite = false) : finite x = throw .overflow :=
  if_neg (Bool.eq_false_iff.mp h)

namespace Expr

variable (frames : List Frame) (canvas : Option Size)

/-- The value of an expression without checks; it may be infinite, or not a number. -/
def plain : Expr → Eval Float
  | .num x => return x
  | .var name =>
      match lookup? frames name with
      | some x => return x
      | none => throw (.unknownVariable name)
  | .neg e => do return -(← e.plain)
  | .op l o r => do
      let x ← l.plain
      let y ← r.plain
      return o.apply x y
  | .query q => q.value canvas

/-- Evaluating an expression without checks comes to one of its nodes, and these answers are
left there. -/
inductive Reaches : Expr → List Input → Expr → List Input → Prop
  | here {e : Expr} {answers : List Input} : Reaches e answers e answers
  | neg {e n : Expr} {answers rest : List Input} (h : Reaches e answers n rest) :
      Reaches (.neg e) answers n rest
  | left {l r n : Expr} {o : Operator} {answers rest : List Input}
      (h : Reaches l answers n rest) : Reaches (.op l o r) answers n rest
  | right {l r n : Expr} {o : Operator} {x : Float} {answers middle rest : List Input}
      (hleft : (l.plain frames canvas).outcome answers = (.ok x, middle))
      (h : Reaches r middle n rest) : Reaches (.op l o r) answers n rest

/-- The value of a node is not finite, or it divides by zero. -/
def Breaks (n : Expr) (answers : List Input) : Prop :=
  (∃ x rest, (n.plain frames canvas).outcome answers = (.ok x, rest) ∧ x.isFinite = false) ∨
    ∃ l r x y middle rest, n = .op l .div r ∧
      (l.plain frames canvas).outcome answers = (.ok x, middle) ∧
      (r.plain frames canvas).outcome middle = (.ok y, rest) ∧ (y == 0) = true

/-- No node breaks that is reached. -/
def Unbroken (e : Expr) (answers : List Input) : Prop :=
  ∀ n rest, Reaches frames canvas e answers n rest → ¬Breaks frames canvas n rest

variable {frames canvas} {e l r : Expr} {o : Operator} {answers middle rest : List Input}
  {x y : Float} {fault : Fault}

lemma Unbroken.isFinite (h : Unbroken frames canvas e answers)
    (hx : (e.plain frames canvas).outcome answers = (.ok x, rest)) : x.isFinite = true := by
  by_contra hnot
  exact h e answers .here (.inl ⟨x, rest, hx, Bool.eq_false_iff.mpr hnot⟩)

lemma eval_var (name : String) :
    (var name).eval frames canvas = (var name).plain frames canvas >>= finite := by
  rw [eval, plain]
  cases lookup? frames name <;> rfl

/-- A sign in front of a value that needs no check. -/
lemma outcome_eval_neg
    (h : (e.eval frames canvas).outcome answers = (e.plain frames canvas).outcome answers) :
    ((neg e).eval frames canvas).outcome answers =
      ((neg e).plain frames canvas >>= finite).outcome answers := by
  simp only [eval, plain, bind_assoc, pure_bind, Eval.outcome_bind, h]

/-- An operator between values that need no check. -/
lemma outcome_eval_op (hx : (l.eval frames canvas).outcome answers = (.ok x, middle))
    (hy : (r.eval frames canvas).outcome middle = (.ok y, rest)) :
    ((op l o r).eval frames canvas).outcome answers =
      if o = .div ∧ y == 0 then (.error .divisionByZero, rest)
      else (finite (o.apply x y)).outcome rest := by
  simp only [eval, Eval.outcome_bind, hx, hy]
  split <;> rfl

/-- An operator fails if one of its sides does. -/
lemma outcome_eval_op_of_left
    (h : (l.eval frames canvas).outcome answers = (.error fault, rest)) :
    ((op l o r).eval frames canvas).outcome answers = (.error fault, rest) := by
  simp only [eval, Eval.outcome_bind, h]

lemma outcome_eval_op_of_right
    (hx : (l.eval frames canvas).outcome answers = (.ok x, middle))
    (h : (r.eval frames canvas).outcome middle = (.error fault, rest)) :
    ((op l o r).eval frames canvas).outcome answers = (.error fault, rest) := by
  simp only [eval, Eval.outcome_bind, hx, h]

/-- A finite value passes the check. -/
lemma outcome_of_unbroken (h : Unbroken frames canvas e answers)
    (heval : (e.eval frames canvas).outcome answers =
      (e.plain frames canvas >>= finite).outcome answers) :
    (e.eval frames canvas).outcome answers = (e.plain frames canvas).outcome answers := by
  rw [heval, Eval.outcome_bind]
  rcases hx : (e.plain frames canvas).outcome answers with ⟨fault | x, rest⟩
  · rfl
  · simp only [finite_of_isFinite (h.isFinite hx), Eval.outcome_pure]

/-- A node that breaks, and is no division, does not pass the check. -/
lemma outcome_of_breaks (h : Breaks frames canvas e answers) (hop : ∀ l r, e ≠ .op l .div r)
    (heval : (e.eval frames canvas).outcome answers =
      (e.plain frames canvas >>= finite).outcome answers) :
    ∃ fault rest, fault.IsArithmetic ∧
      (e.eval frames canvas).outcome answers = (.error fault, rest) := by
  obtain ⟨x, rest, hx, hinfinite⟩ | ⟨l, r, _, _, _, _, heq, -⟩ := h
  · refine ⟨.overflow, rest, .inl rfl, ?_⟩
    simp only [heval, Eval.outcome_bind, hx, finite_of_not_isFinite hinfinite,
      Eval.outcome_throw]
  · exact absurd heq (hop l r)

/-- An expression without parts. -/
def isLeaf : Expr → Bool
  | .num _ | .var _ | .query _ => true
  | .neg _ | .op .. => false

lemma breaks_of_isLeaf (hleaf : e.isLeaf = true) (h : ¬Unbroken frames canvas e answers) :
    Breaks frames canvas e answers := by
  by_contra hbreaks
  apply h
  intro n rest hn
  cases hn with
  | here => exact hbreaks
  | neg | left | right => cases hleaf

lemma Unbroken.neg (h : Unbroken frames canvas e answers)
    (hneg : ¬Breaks frames canvas (neg e) answers) : Unbroken frames canvas (neg e) answers := by
  intro n rest hn
  cases hn with
  | here => exact hneg
  | neg hn => exact h n rest hn

lemma Unbroken.op (hl : Unbroken frames canvas l answers)
    (hr : ∀ x middle, (l.plain frames canvas).outcome answers = (.ok x, middle) →
      Unbroken frames canvas r middle)
    (hop : ¬Breaks frames canvas (op l o r) answers) :
    Unbroken frames canvas (op l o r) answers := by
  intro n rest hn
  cases hn with
  | here => exact hop
  | left hn => exact hl n rest hn
  | right hx hn => exact hr _ _ hx n rest hn

/-- An operator breaks only when both sides have values. -/
lemma Breaks.sides (h : Breaks frames canvas (.op l o r) answers) :
    ∃ x y middle rest, (l.plain frames canvas).outcome answers = (.ok x, middle) ∧
      (r.plain frames canvas).outcome middle = (.ok y, rest) ∧
      ((o.apply x y).isFinite = false ∨ (o = .div ∧ y == 0)) := by
  obtain ⟨z, rest, hz, hinfinite⟩ | ⟨l', r', x, y, middle, rest, heq, hx, hy, hzero⟩ := h
  · obtain ⟨x, middle, hx, hz⟩ := Eval.outcome_bind_eq_ok.mp hz
    obtain ⟨y, last, hy, hz⟩ := Eval.outcome_bind_eq_ok.mp hz
    obtain ⟨rfl, rfl⟩ : o.apply x y = z ∧ last = rest := by simpa using hz
    exact ⟨x, y, middle, last, hx, hy, .inl hinfinite⟩
  · cases heq
    exact ⟨x, y, middle, rest, hx, hy, .inr ⟨rfl, hzero⟩⟩

/-- Where nothing breaks, checking changes nothing. -/
lemma outcome_eval_of_unbroken (h : Unbroken frames canvas e answers) :
    (e.eval frames canvas).outcome answers = (e.plain frames canvas).outcome answers := by
  induction e generalizing answers with
  | num x => exact outcome_of_unbroken h rfl
  | var name => exact outcome_of_unbroken h (by rw [eval_var])
  | neg e ih =>
      have he : Unbroken frames canvas e answers := fun n rest hn => h n rest hn.neg
      exact outcome_of_unbroken h (outcome_eval_neg (ih he))
  | op l o r ihl ihr =>
      have hl : Unbroken frames canvas l answers := fun n rest hn => h n rest hn.left
      rcases hx : (l.plain frames canvas).outcome answers with ⟨fault | x, middle⟩
      · simp only [eval, plain, Eval.outcome_bind, ihl hl, hx]
      · have hr : Unbroken frames canvas r middle := fun n rest hn => h n rest (hn.right hx)
        rcases hy : (r.plain frames canvas).outcome middle with ⟨fault | y, rest⟩
        · simp only [eval, plain, Eval.outcome_bind, ihl hl, hx, ihr hr, hy]
        · have hvalue : ((op l o r).plain frames canvas).outcome answers =
              (.ok (o.apply x y), rest) := by
            simp only [plain, Eval.outcome_bind, hx, hy, Eval.outcome_pure]
          have hnonzero : ¬(o = .div ∧ y == 0) := by
            rintro ⟨rfl, hzero⟩
            exact h _ _ .here (.inr ⟨l, r, x, y, middle, rest, rfl, hx, hy, hzero⟩)
          rw [outcome_eval_op ((ihl hl).trans hx) ((ihr hr).trans hy), if_neg hnonzero,
            finite_of_isFinite (h.isFinite hvalue), hvalue, Eval.outcome_pure]
  | query q => exact outcome_of_unbroken h rfl

/-- Where a node breaks that is reached, the checked evaluation fails. -/
lemma outcome_eval_of_not_unbroken (h : ¬Unbroken frames canvas e answers) :
    ∃ fault rest, fault.IsArithmetic ∧
      (e.eval frames canvas).outcome answers = (.error fault, rest) := by
  induction e generalizing answers with
  | num x => exact outcome_of_breaks (breaks_of_isLeaf rfl h) nofun rfl
  | var name => exact outcome_of_breaks (breaks_of_isLeaf rfl h) nofun (by rw [eval_var])
  | neg e ih =>
      by_cases he : Unbroken frames canvas e answers
      · have hbreaks : Breaks frames canvas (neg e) answers := by
          by_contra hbreaks
          exact h (he.neg hbreaks)
        exact outcome_of_breaks hbreaks nofun (outcome_eval_neg (outcome_eval_of_unbroken he))
      · obtain ⟨fault, rest, hfault, heval⟩ := ih he
        exact ⟨fault, rest, hfault, by simp only [eval, Eval.outcome_bind, heval]⟩
  | op l o r ihl ihr =>
      by_cases hl : Unbroken frames canvas l answers
      · have hleft := outcome_eval_of_unbroken hl
        by_cases hr : ∀ x middle, (l.plain frames canvas).outcome answers = (.ok x, middle) →
            Unbroken frames canvas r middle
        · have hbreaks : Breaks frames canvas (op l o r) answers := by
            by_contra hbreaks
            exact h (hl.op hr hbreaks)
          obtain ⟨x, y, middle, rest, hx, hy, hwhy⟩ := hbreaks.sides
          have heval := outcome_eval_op (o := o) (hleft.trans hx)
            ((outcome_eval_of_unbroken (hr x middle hx)).trans hy)
          by_cases hzero : o = .div ∧ y == 0
          · rw [if_pos hzero] at heval
            exact ⟨.divisionByZero, rest, .inr rfl, heval⟩
          · rw [if_neg hzero, finite_of_not_isFinite (hwhy.resolve_right hzero)] at heval
            exact ⟨.overflow, rest, .inl rfl, heval⟩
        · push Not at hr
          obtain ⟨x, middle, hx, hr⟩ := hr
          obtain ⟨fault, rest, hfault, heval⟩ := ihr hr
          exact ⟨fault, rest, hfault, outcome_eval_op_of_right (hleft.trans hx) heval⟩
      · obtain ⟨fault, rest, hfault, heval⟩ := ihl hl
        exact ⟨fault, rest, hfault, outcome_eval_op_of_left heval⟩
  | query q => exact outcome_of_breaks (breaks_of_isLeaf rfl h) nofun rfl

/-- An expression has a value exactly if it has the same value without checks and nothing
breaks on the way. -/
lemma outcome_eval_eq_ok_iff :
    (e.eval frames canvas).outcome answers = (.ok x, rest) ↔
      (e.plain frames canvas).outcome answers = (.ok x, rest) ∧
        Unbroken frames canvas e answers := by
  constructor
  · intro h
    have hunbroken : Unbroken frames canvas e answers := by
      by_contra hbroken
      obtain ⟨fault, rest', -, hfault⟩ := outcome_eval_of_not_unbroken hbroken
      rw [hfault] at h
      cases h
    exact ⟨(outcome_eval_of_unbroken hunbroken).symm.trans h, hunbroken⟩
  · rintro ⟨h, hunbroken⟩
    exact (outcome_eval_of_unbroken hunbroken).trans h

end Expr

end LogoStudio.Logo
