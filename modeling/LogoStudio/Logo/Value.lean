import LogoStudio.Input
import LogoStudio.Logo.Code
import LogoStudio.Logo.Problem
import LogoStudio.Number.Reader
import LogoStudio.Schedule.Interpreter
import LogoStudio.Text.Blank

/-!
# Variables and expressions

A call makes a frame with its parameters; the last frame holds the global variables. A
variable is looked up in all frames from the innermost on. Expressions take answers from
the front of a queue as they go, from left to right, and answers taken stay taken when an
expression fails. Every value, also of a part of an expression, must be finite.
-/
namespace LogoStudio.Logo

/-- The state of one call, or of the main program. -/
structure Frame where
  /-- Of two variables with one name the first counts. -/
  vars : List (String × Float)
  /-- The turns left of the running loops, innermost first. -/
  loops : List Nat
  returnTo : Nat

/-- The frame of a main program that has not started. -/
def Frame.empty : Frame := ⟨[], [], 0⟩

def lookup? (frames : List Frame) (name : String) : Option Float :=
  frames.findSome? fun f => f.vars.lookup name

/-- Change the value of a variable that is there. -/
def replaceVar (name : String) (x : Float) : List (String × Float) → List (String × Float)
  | [] => []
  | (n, y) :: rest => if n = name then (n, x) :: rest else (n, y) :: replaceVar name x rest

/-- Assign to the innermost variable with a name, or make a global one. -/
def assign (name : String) (x : Float) : List Frame → List Frame
  | [] => []
  | f :: outer =>
      if (f.vars.lookup name).isSome then { f with vars := replaceVar name x f.vars } :: outer
      else match outer with
        | [] => [{ f with vars := (name, x) :: f.vars }]
        | _ :: _ => f :: assign name x outer

/-- What is left of the answers after an evaluation, and its value or its fault. -/
abbrev Eval := ExceptT Fault (StateM (List Input))

def nextAnswer (q : Query) : Eval Input := do
  match ← get with
  | [] => throw (.noInput q.name)
  | answer :: rest =>
      set rest
      return answer

/-- What is shown of an answer of the wrong kind. -/
def describe : Input → String
  | .confirm b => "a confirmation (" ++ (if b then "true" else "false") ++ ")"
  | .prompt s => Text.quoted s
  | .interaction i => "a " ++ i.name ++ " interaction"

/-- The finite number that a prompt answer spells between blanks. -/
def answerNumber? (s : String) : Option Float :=
  (Number.read? (String.ofList (Text.trim s.toList))).filter Float.isFinite

/-- The value of a query, given the size of the canvas if there is one. -/
def Query.value (canvas : Option Size) (q : Query) : Eval Float :=
  match q with
  | .prompt => do
      let answer ← nextAnswer q
      let wrong := Fault.unexpectedInput q.name "a number" (describe answer)
      match answer with
      | .prompt s =>
          match answerNumber? s with
          | some x => return x
          | none => throw wrong
      | _ => throw wrong
  | .confirm => do
      let answer ← nextAnswer q
      match answer with
      | .confirm b => return if b then 1 else 0
      | _ => throw (.unexpectedInput q.name "a confirmation" (describe answer))
  | .canvasWidth =>
      match canvas with
      | some size => return size.width.toFloat
      | none => throw .noCanvas
  | .canvasHeight =>
      match canvas with
      | some size => return size.height.toFloat
      | none => throw .noCanvas

def Operator.apply : Operator → Float → Float → Float
  | .add, x, y => x + y
  | .sub, x, y => x - y
  | .mul, x, y => x * y
  | .div, x, y => x / y

def Comparison.holds : Comparison → Float → Float → Bool
  | .equal, x, y => x == y
  | .less, x, y => x < y
  | .greater, x, y => y < x

/-- A value, which must be finite. -/
def finite (x : Float) : Eval Float := if x.isFinite then return x else throw .overflow

def Expr.eval (frames : List Frame) (canvas : Option Size) : Expr → Eval Float
  | .num x => finite x
  | .var name =>
      match lookup? frames name with
      | some x => finite x
      | none => throw (.unknownVariable name)
  | .neg e => do finite (-(← e.eval frames canvas))
  | .op l o r => do
      let x ← l.eval frames canvas
      let y ← r.eval frames canvas
      if o = .div ∧ y == 0 then throw .divisionByZero
      finite (o.apply x y)
  | .query q => do finite (← q.value canvas)

/-- A number as programs print it: whole numbers below `1e15` without a sign on zero, and
others with all their digits. -/
def numberText (x : Float) : String :=
  if Number.isWhole x && x.abs < 1000000000000000 then
    let n := Number.toInt64Range x
    if n < 0 then "-" ++ Number.digitText n.natAbs else Number.digitText n.natAbs
  else Number.plainText x

end LogoStudio.Logo
