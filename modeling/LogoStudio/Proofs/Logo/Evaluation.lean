import LogoStudio.Logo.Machine
import Mathlib.Tactic.Common

/-!
# Outcomes of evaluations

An evaluation takes answers from the front of a list and gives a value or a fault. Its
outcome pairs the two, and the lemmas below open a computation one step at a time. After
them no proof looks at how the monad is built.
-/
namespace LogoStudio.Logo

namespace Eval

variable {α β : Type}

/-- The value or fault of an evaluation, and the answers that are left. -/
def outcome (x : Eval α) (answers : List Input) : Except Fault α × List Input :=
  x.run.run answers

@[simp] lemma outcome_pure (a : α) (answers : List Input) :
    outcome (pure a) answers = (.ok a, answers) := rfl

@[simp] lemma outcome_throw (fault : Fault) (answers : List Input) :
    outcome (throw fault : Eval α) answers = (.error fault, answers) := rfl

lemma outcome_bind (x : Eval α) (f : α → Eval β) (answers : List Input) :
    outcome (x >>= f) answers =
      match outcome x answers with
      | (.ok a, rest) => outcome (f a) rest
      | (.error fault, rest) => (.error fault, rest) := by
  rcases h : outcome x answers with ⟨_ | a, rest⟩ <;>
    simp only [outcome, ExceptT.run_bind, StateT.run_bind] at * <;> rw [h] <;> rfl

lemma outcome_map (x : Eval α) (f : α → β) (answers : List Input) :
    outcome (f <$> x) answers = ((outcome x answers).1.map f, (outcome x answers).2) := by
  rw [← bind_pure_comp, outcome_bind]
  rcases outcome x answers with ⟨_ | a, rest⟩ <;> rfl

lemma outcome_bind_eq_ok {x : Eval α} {f : α → Eval β} {answers rest : List Input} {b : β} :
    outcome (x >>= f) answers = (.ok b, rest) ↔
      ∃ a middle, outcome x answers = (.ok a, middle) ∧ outcome (f a) middle = (.ok b, rest) := by
  rw [outcome_bind]
  rcases outcome x answers with ⟨_ | a, middle⟩ <;> simp

lemma outcome_bind_eq_error {x : Eval α} {f : α → Eval β} {answers rest : List Input}
    {fault : Fault} :
    outcome (x >>= f) answers = (.error fault, rest) ↔
      outcome x answers = (.error fault, rest) ∨
        ∃ a middle, outcome x answers = (.ok a, middle) ∧
          outcome (f a) middle = (.error fault, rest) := by
  rw [outcome_bind]
  rcases outcome x answers with ⟨_ | a, middle⟩ <;> simp

end Eval

namespace Machine

/-- The current instruction is executed on the answers that are left. -/
lemma advance_eq (m : Machine) :
    m.advance =
      match m.program.code[m.pc]? with
      | none => { m with status := .halted }
      | some instr =>
          match (m.execute instr).outcome m.answers with
          | (.ok next, answers) => { next with answers }
          | (.error fault, answers) =>
              { m.emit (m.faultEvent fault) with answers, status := .halted } := rfl

end Machine

end LogoStudio.Logo
