import LogoStudio.Logo.Primitive
import LogoStudio.Logo.Tree

/-!
# Flat code

A compiled program is a list of instructions in which control flow has become jumps, so
that a machine can stop after any instruction and go on later. The code of the main
program stands first and ends in `halt`; the code of each procedure follows and ends in
`ret`.
-/
namespace LogoStudio.Logo

/-- An expression without lines. -/
inductive Expr where
  | num (x : Float)
  | var (name : String)
  | neg (e : Expr)
  | op (l : Expr) (o : Operator) (r : Expr)
  | query (q : Query)

/-- An input that is handed to a primitive. -/
inductive Actual where
  | num (e : Expr)
  | word (w : String)

structure Cond where
  lhs : Expr
  comparison : Comparison
  rhs : Expr

inductive Instr where
  | primitive (p : Primitive) (args : List Actual)
  | make (name : String) (value : Expr)
  | call (proc : Nat) (args : List Expr)
  /-- Leave the current procedure, or end the program if there is none. -/
  | ret
  | jumpUnless (cond : Cond) (target : Nat)
  /-- Start a loop, or go on at `exit` if it has no turns. -/
  | loopStart (count : Expr) (exit : Nat)
  /-- Count down the innermost loop and go back to `body` unless it is finished. -/
  | loopNext (body : Nat)
  | halt

structure Procedure where
  name : String
  params : List String
  /-- The place of its first instruction. -/
  entry : Nat

structure Program where
  code : Array Instr
  /-- The source line of each instruction. -/
  lines : Array Nat
  procs : Array Procedure

/-- The source line of the instruction at a place; zero past the end of the code. -/
def Program.line (p : Program) (pc : Nat) : Nat := p.lines.getD pc 0

/-- An expression without lines. The sign of a literal becomes part of it. -/
def NumExpr.lower : NumExpr → Expr
  | .lit x => .num x
  | .var v => .var v.name
  | .neg e =>
      match e.lower with
      | .num x => .num (-x)
      | e' => .neg e'
  | .op l o r => .op l.lower o r.lower
  | .query q => .query q

end LogoStudio.Logo
