/-!
# The syntax tree of LOGO

A program is a list of statements. Names carry the line on which they stand, since later
checks report problems by line. Calls have no marks around their inputs: a call takes all
the inputs that follow it.
-/
namespace LogoStudio.Logo

/-- A name in a program, with its line. -/
structure Ident where
  name : String
  line : Nat
  deriving DecidableEq

inductive Operator where
  | add
  | sub
  | mul
  | div
  deriving DecidableEq

inductive Comparison where
  | equal
  | less
  | greater
  deriving DecidableEq

/-- A value that comes from outside the program. -/
inductive Query where
  /-- The next prompt answer, as a number. -/
  | prompt
  /-- The next confirmation, as one or zero. -/
  | confirm
  | canvasWidth
  | canvasHeight
  deriving DecidableEq

/-- The word for a value from outside. -/
def Query.name : Query → String
  | .prompt => "prompt"
  | .confirm => "confirm"
  | .canvasWidth => "canvaswidth"
  | .canvasHeight => "canvasheight"

/-- A numeric expression as it is written. -/
inductive NumExpr where
  | lit (x : Float)
  | var (v : Ident)
  | neg (e : NumExpr)
  | op (l : NumExpr) (o : Operator) (r : NumExpr)
  | query (q : Query)

structure Condition where
  lhs : NumExpr
  comparison : Comparison
  rhs : NumExpr

inductive Arg where
  | num (e : NumExpr)
  /-- A quoted word, without its quote. -/
  | word (w : Ident)

inductive Statement where
  /-- A procedure definition; `endLine` is the line of its closing word. -/
  | define (name : Ident) (params : List Ident) (body : List Statement) (endLine : Nat)
  | call (name : Ident) (args : List Arg)
  /-- Run the body if the condition holds. -/
  | branch (line : Nat) (cond : Condition) (body : List Statement)
  /-- Run the body a number of times. -/
  | loop (line : Nat) (count : NumExpr) (body : List Statement)
  | make (name : Ident) (value : NumExpr)

end LogoStudio.Logo
