import LogoStudio.Proofs.Logo.Evaluation

/-!
# The meaning of a program

A direct semantics of the syntax tree, without code, places or loop counters. A statement
turns a scene into the next one, or ends the procedure it stands in, or fails. The meaning
of procedure calls is a parameter of the meaning of statements. It is supplied by recursion
on the room that is left for nested calls; since loops are counted and calls are limited,
every program has a meaning.
-/
namespace LogoStudio.Logo

/-- The variables of one call, or the global ones. Of two with one name the first counts. -/
abbrev Scope := List (String × Float)

/-- What statements work on. -/
structure Scene where
  /-- The variables of the running calls, innermost first; the last scope is the global one. -/
  scopes : List Scope
  turtle : Turtle
  /-- The answers that are left for prompts and confirmations. -/
  answers : List Input
  /-- Everything shown so far, the newest event first. -/
  shown : List Event

/-- How a statement ends. -/
inductive Course where
  /-- The next statement follows. -/
  | onward (s : Scene)
  /-- The procedure around the statement, or the whole program, is over. -/
  | stopped (s : Scene)
  /-- The program has failed, and this is all it has shown. -/
  | failed (shown : List Event)

/-- Assign to the innermost variable with a name, or make a global one. -/
def setVariable (name : String) (x : Float) : List Scope → List Scope
  | [] => []
  | [globals] =>
      if (globals.lookup name).isSome then [replaceVar name x globals]
      else [(name, x) :: globals]
  | scope :: outer =>
      if (scope.lookup name).isSome then replaceVar name x scope :: outer
      else scope :: setVariable name x outer

/-- The value of an expression where `scopes` are visible. -/
def NumExpr.value (scopes : List Scope) (canvas : Option Size) : NumExpr → Eval Float
  | .lit x => finite x
  | .var v =>
      match scopes.findSome? (·.lookup v.name) with
      | some x => finite x
      | none => throw (.unknownVariable v.name)
  | .neg e => do finite (-(← e.value scopes canvas))
  | .op l o r => do
      let x ← l.value scopes canvas
      let y ← r.value scopes canvas
      if o = .div ∧ y == 0 then throw .divisionByZero
      finite (o.apply x y)
  | .query q => do finite (← q.value canvas)

/-- Whether a comparison holds; its left side is evaluated first. -/
def Condition.value (scopes : List Scope) (canvas : Option Size) (c : Condition) : Eval Bool := do
  let x ← c.lhs.value scopes canvas
  let y ← c.rhs.value scopes canvas
  return c.comparison.holds x y

def turnsOf (count : Float) : Eval Nat :=
  if count < 0 ∨ !Number.isWhole count then throw (.badRepeatCount count)
  else return Number.toNat64 count

inductive Value where
  | number (x : Float)
  | word (w : String)

/-- A value as it is printed. -/
def Value.text : Value → String
  | .number x => numberText x
  | .word w => w

def Arg.value (scopes : List Scope) (canvas : Option Size) : Arg → Eval Value
  | .num e => do return .number (← e.value scopes canvas)
  | .word w => return .word w.name

/-- The values of inputs, from left to right. -/
def inputValues (scopes : List Scope) (canvas : Option Size) : List Arg → Eval (List Value)
  | [] => return []
  | arg :: rest => do
      let v ← arg.value scopes canvas
      return v :: (← inputValues scopes canvas rest)

/-- The parameters of a call with the values of its inputs, from left to right. -/
def inputScope (scopes : List Scope) (canvas : Option Size) : List Ident → List Arg → Eval Scope
  | param :: params, .num e :: args => do
      let x ← e.value scopes canvas
      return (param.name, x) :: (← inputScope scopes canvas params args)
  | _, _ => return []

open Machine (unit byte circle align spaced)

/-- The turtle after a move, and the line it drew. -/
def drawn (move : Turtle × Option TurtleLine) : Turtle × List Event :=
  (move.1, move.2.toList.map .turtle)

/-- What a primitive makes of its inputs: the turtle, and the events it shows in order.
Waiting shows nothing. -/
def Primitive.perform (t : Turtle) : Primitive → List Value → Eval (Turtle × List Event)
  | .forward, [.number d] => return drawn (t.forward d)
  | .back, [.number d] => return drawn (t.back d)
  | .left, [.number a] => return (t.left a, [])
  | .right, [.number a] => return (t.right a, [])
  | .penUp, [] => return ({ t with penDown := false }, [])
  | .penDown, [] => return ({ t with penDown := true }, [])
  | .home, [] => return drawn t.home
  | .setColor, [.number r, .number g, .number b] =>
      return ({ t with color := ⟨unit r, unit g, unit b, 1⟩ }, [])
  | .arc, [.number degrees, .number radius] => return (t, (t.arc degrees radius).map .turtle)
  | .wait, [] => return (t, [])
  | .print, [v] => return (t, [.print v.text])
  | .error, [v] => throw (.user v.text)
  | .clear, [] => return (t, [.canvas .clear])
  | .setFillColor, [.number r, .number g, .number b, .number a] =>
      return (t, [.canvas (.setFillColor ⟨unit r, unit g, unit b, unit a⟩)])
  | .setLineColor, [.number r, .number g, .number b, .number a] =>
      return (t, [.canvas (.setLineColor ⟨unit r, unit g, unit b, unit a⟩)])
  | .setOpacity, [.number a] => return (t, [.canvas (.setOpacity (unit a))])
  | .setFont, [v] => return (t, [.canvas (.setFont (spaced v.text))])
  | .setTextAlign, [v] => do return (t, [.canvas (.setTextAlign (← align .setTextAlign v.text))])
  | .fillRect, [.number x, .number y, .number x', .number y'] =>
      return (t, [.canvas (.fillRect ⟨x, y⟩ ⟨x', y'⟩)])
  | .frameRect, [.number x, .number y, .number x', .number y'] =>
      return (t, [.canvas (.frameRect ⟨x, y⟩ ⟨x', y'⟩)])
  | .fillCircle, [.number x, .number y, .number r] => do
      return (t, [.canvas (.fillEllipse ⟨x, y⟩ (← circle r))])
  | .frameCircle, [.number x, .number y, .number r] => do
      return (t, [.canvas (.frameEllipse ⟨x, y⟩ (← circle r))])
  | .line, [.number x, .number y, .number x', .number y'] =>
      return (t, [.canvas (.line ⟨x, y⟩ ⟨x', y'⟩)])
  | .text, [.number x, .number y, v] => return (t, [.canvas (.text v.text ⟨x, y⟩)])
  | .setPixel, [.number x, .number y, .number r, .number g, .number b, .number a] =>
      return (t, [.canvas (.setPixel ⟨x, y⟩ ⟨byte r, byte g, byte b, byte a⟩)])
  | p, values => throw (.wrongInputs p.name values.length)

namespace Scene

/-- The program fails in a statement on `line`. -/
def fail (s : Scene) (line : Nat) (fault : Fault) : Course :=
  .failed (.runtimeError ("Line " ++ Number.digitText line ++ ": " ++ fault.message) :: s.shown)

/-- Evaluate for a statement on `line` and go on with the value. -/
def attempt {α : Type} (s : Scene) (line : Nat) (x : Eval α) (next : α → Scene → Course) : Course :=
  match x.outcome s.answers with
  | (.ok a, answers) => next a { s with answers }
  | (.error fault, _) => s.fail line fault

/-- Show events, oldest first, with the turtle that they leave. -/
def present (s : Scene) (turtle : Turtle) (events : List Event) : Scene :=
  { s with turtle, shown := events.reverse ++ s.shown }

end Scene

namespace Course

/-- Go on unless the statement was the last one. -/
def andThen (c : Course) (next : Scene → Course) : Course :=
  match c with
  | .onward s => next s
  | .stopped s => .stopped s
  | .failed shown => .failed shown

/-- Leave a procedure: its variables are gone, and stopping ends here. -/
def leave : Course → Course
  | .onward s => .onward { s with scopes := s.scopes.tail }
  | .stopped s => .onward { s with scopes := s.scopes.tail }
  | .failed shown => .failed shown

def shown : Course → List Event
  | .onward s => s.shown
  | .stopped s => s.shown
  | .failed shown => shown

end Course

def times (body : Scene → Course) : Nat → Scene → Course
  | 0, s => .onward s
  | n + 1, s => (body s).andThen (times body n)

/-- What a call of a procedure on a line does. -/
abbrev CallMeaning := Definition → Nat → List Arg → Scene → Course

section

variable (procs : List Definition) (canvas : Option Size)

/-- The meaning of a call statement: `stop`, a primitive or a procedure. -/
def callMeaning (enter : CallMeaning) (name : Ident) (args : List Arg) (s : Scene) : Course :=
  if name.name = stopName then .stopped s
  else match Primitive.ofName? name.name with
    | some p => s.attempt name.line
        (do p.perform s.turtle (← inputValues s.scopes canvas args))
        fun (turtle, events) s => .onward (s.present turtle events)
    | none =>
        match procs.find? (·.name.name == name.name) with
        | some d => enter d name.line args s
        | none => .onward s

mutual
/-- The meaning of a statement, given the meaning of procedure calls. -/
def Statement.meaning (enter : CallMeaning) : Statement → Scene → Course
  | .define .., s => .onward s
  | .call name args, s => callMeaning procs canvas enter name args s
  | .make name value, s => s.attempt name.line (value.value s.scopes canvas)
      fun x s => .onward { s with scopes := setVariable name.name x s.scopes }
  | .branch line cond body, s => s.attempt line (cond.value s.scopes canvas)
      fun holds s => if holds then meaningOf enter body s else .onward s
  | .loop line count body, s => s.attempt line (do turnsOf (← count.value s.scopes canvas))
      fun turns s => times (meaningOf enter body) turns s
termination_by structural s => s

/-- The meaning of statements one after the other. -/
def meaningOf (enter : CallMeaning) : List Statement → Scene → Course
  | [], s => .onward s
  | first :: rest, s => (first.meaning enter s).andThen (meaningOf enter rest)
termination_by structural l => l
end

/-- What a procedure call does when `room` more calls may nest: its inputs are evaluated in
the scopes of the caller, and its body runs with a scope of its own. -/
def enterProcedure (limit : Nat) : Nat → CallMeaning
  | 0, _, line, _, s => s.fail line (.tooManyCalls limit)
  | room + 1, d, line, args, s => s.attempt line (inputScope s.scopes canvas d.params args)
      fun scope s => Course.leave
        (meaningOf procs canvas (enterProcedure limit room) d.body
          { s with scopes := scope.reverse :: s.scopes })

end

def Scene.start (answers : List Input) : Scene := ⟨[[]], .initial, answers, []⟩

/-- Everything a program shows, in order: `limit` calls may nest, and the answers are taken
from the front of a list. Definitions count wherever they stand. -/
def programMeaning (limit : Nat) (canvas : Option Size) (answers : List Input)
    (program : List Statement) : List Event :=
  let procs := definitionsIn program
  (meaningOf procs canvas (enterProcedure procs canvas limit limit) program
    (.start answers)).shown.reverse

end LogoStudio.Logo
