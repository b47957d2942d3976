import LogoStudio.Logo.Compile
import LogoStudio.Logo.Value
import LogoStudio.Turtle

/-!
# The machine

The machine runs a compiled program one instruction a step. It has a queue of events from
outside, which it handles before it goes on with the program. An instruction is executed
as a whole or not at all: one that meets a fault leaves the machine as it was, except that
answers it has taken are gone, and the run ends with a message.
-/
namespace LogoStudio.Logo

open Plane (Point)

structure Machine where
  program : Program
  /-- How deeply procedure calls may nest. -/
  depthLimit : Nat
  /-- The inputs the machine was made with. -/
  supply : List Input
  pc : Nat
  /-- The running calls, innermost first; the main program is the last one. -/
  frames : List Frame
  turtle : Turtle
  status : Status
  /-- Whether the last step asked to end the slice. -/
  yielded : Bool
  /-- Everything shown so far, the newest event first. -/
  shown : List Event
  /-- The answers that are left for prompts and confirmations. -/
  answers : List Input
  /-- The events from outside that have not been handled, oldest first. -/
  queue : List (Nat × HostEvent)
  /-- The last token that was given out. -/
  issued : Nat
  timer : Option Nat
  /-- Whether the program waits for a timer event. -/
  waiting : Bool
  canvas : Option Size

namespace Machine

/-- A machine that has not started. -/
def new (program : Program) (supply : List Input) (depthLimit : Nat) : Machine where
  program
  depthLimit
  supply
  pc := 0
  frames := [.empty]
  turtle := .initial
  status := .notStarted
  yielded := false
  shown := []
  answers := []
  queue := []
  issued := 0
  timer := none
  waiting := false
  canvas := none

/-- Everything shown so far, in order. -/
def events (m : Machine) : List Event := m.shown.reverse

def emit (m : Machine) (e : Event) : Machine := { m with shown := e :: m.shown }

def draw (m : Machine) (c : CanvasCommand) : Machine := m.emit (.canvas c)

/-- Move the turtle, with the line it drew. -/
def moved (m : Machine) (move : Turtle × Option TurtleLine) : Machine :=
  let m := { m with turtle := move.1 }
  match move.2 with
  | some line => m.emit (.turtle line)
  | none => m

/-- The value of an expression in the current frames. -/
def eval (m : Machine) (e : Expr) : Eval Float := e.eval m.frames m.canvas

/-- The value of an input in a slot for numbers. -/
def numberInput (m : Machine) (p : Primitive) : Actual → Eval Float
  | .num e => m.eval e
  | .word w => throw (.badInput p.name ("\"" ++ w))

/-- The values of the inputs in slots for numbers, in order. -/
def numberInputs (m : Machine) (p : Primitive) : List (Actual × Slot) → Eval (List Float)
  | [] => return []
  | (arg, .num) :: rest => do
      let x ← m.numberInput p arg
      return x :: (← m.numberInputs p rest)
  | _ :: rest => m.numberInputs p rest

/-- The text of the input at a place, a word or a number. -/
def textInput (m : Machine) (p : Primitive) (args : List Actual) (place : Nat) : Eval String :=
  match args[place]? with
  | some (.num e) => do return numberText (← m.eval e)
  | some (.word w) => return w
  | none => throw (.wrongInputs p.name args.length)

/-- A channel moved into the range from zero to one. -/
def unit (x : Float) : Float := Number.clamp x 0 1

/-- A channel from zero to 255 as a byte. -/
def byte (x : Float) : UInt8 := (Number.clamp (Number.round x) 0 255).toUInt8

/-- The squared radii of a circle. -/
def circle (r : Float) : Eval Point := do
  let square ← finite (r * r)
  return ⟨square, square⟩

/-- The alignment that a word names. -/
def align (p : Primitive) : String → Eval TextAlign
  | "left" | "start" => return .left
  | "center" => return .center
  | "right" | "end" => return .right
  | w => throw (.badInput p.name ("\"" ++ w))

/-- Spaces in place of underscores. -/
def spaced (s : String) : String := s.map fun c => if c = '_' then ' ' else c

/-- Execute a primitive. Inputs in slots for numbers are evaluated first, others where
they are used. -/
def primitive (m : Machine) (p : Primitive) (args : List Actual) : Eval Machine := do
  let numbers ← m.numberInputs p (args.zip p.slots)
  match p, numbers with
  | .forward, [d] => return m.moved (m.turtle.forward d)
  | .back, [d] => return m.moved (m.turtle.back d)
  | .left, [a] => return { m with turtle := m.turtle.left a }
  | .right, [a] => return { m with turtle := m.turtle.right a }
  | .penUp, [] => return { m with turtle.penDown := false }
  | .penDown, [] => return { m with turtle.penDown := true }
  | .home, [] => return m.moved m.turtle.home
  | .setColor, [r, g, b] => return { m with turtle.color := ⟨unit r, unit g, unit b, 1⟩ }
  | .arc, [degrees, radius] =>
      return (m.turtle.arc degrees radius).foldl (fun m line => m.emit (.turtle line)) m
  | .wait, [] => return { m with waiting := true, status := .waiting, yielded := true }
  | .print, _ => return m.emit (.print (← m.textInput p args 0))
  | .error, _ => throw (.user (← m.textInput p args 0))
  | .clear, [] => return m.draw .clear
  | .setFillColor, [r, g, b, a] =>
      return m.draw (.setFillColor ⟨unit r, unit g, unit b, unit a⟩)
  | .setLineColor, [r, g, b, a] =>
      return m.draw (.setLineColor ⟨unit r, unit g, unit b, unit a⟩)
  | .setOpacity, [a] => return m.draw (.setOpacity (unit a))
  | .setFont, [] => return m.draw (.setFont (spaced (← m.textInput p args 0)))
  | .setTextAlign, [] => return m.draw (.setTextAlign (← align p (← m.textInput p args 0)))
  | .fillRect, [x, y, x', y'] => return m.draw (.fillRect ⟨x, y⟩ ⟨x', y'⟩)
  | .frameRect, [x, y, x', y'] => return m.draw (.frameRect ⟨x, y⟩ ⟨x', y'⟩)
  | .fillCircle, [x, y, r] => return m.draw (.fillEllipse ⟨x, y⟩ (← circle r))
  | .frameCircle, [x, y, r] => return m.draw (.frameEllipse ⟨x, y⟩ (← circle r))
  | .line, [x, y, x', y'] => return m.draw (.line ⟨x, y⟩ ⟨x', y'⟩)
  | .text, [x, y] => return m.draw (.text (← m.textInput p args 2) ⟨x, y⟩)
  | .setPixel, [x, y, r, g, b, a] =>
      return m.draw (.setPixel ⟨x, y⟩ ⟨byte r, byte g, byte b, byte a⟩)
  | _, _ => throw (.wrongInputs p.name args.length)

/-- The values of the inputs of a call with the names of its parameters. -/
def bindInputs (m : Machine) : List (String × Expr) → Eval (List (String × Float))
  | [] => return []
  | (name, e) :: rest => do
      let x ← m.eval e
      return (name, x) :: (← m.bindInputs rest)

/-- Call a procedure: of two parameters with one name the last one counts. -/
def call (m : Machine) (proc : Procedure) (args : List Expr) : Eval Machine := do
  let bound ← m.bindInputs (proc.params.zip args)
  return { m with
    frames := ⟨bound.reverse, [], m.pc + 1⟩ :: m.frames
    pc := proc.entry }

/-- Leave the innermost call, or end the program if only the main program is left. -/
def leave (m : Machine) : Machine :=
  match m.frames with
  | f :: g :: outer => { m with frames := g :: outer, pc := f.returnTo }
  | _ => { m with status := .halted }

/-- Go on at a place with other loop counters in the innermost frame. -/
def withLoops (m : Machine) (change : List Nat → List Nat) (pc : Nat) : Machine :=
  match m.frames with
  | f :: outer => { m with frames := { f with loops := change f.loops } :: outer, pc }
  | [] => { m with pc }

def startLoop (m : Machine) (count : Float) (exit : Nat) : Eval Machine :=
  if count < 0 ∨ !Number.isWhole count then throw (.badRepeatCount count)
  else if count == 0 then return { m with pc := exit }
  else return m.withLoops (Number.toNat64 count :: ·) (m.pc + 1)

/-- End a turn of the innermost loop. -/
def nextTurn (m : Machine) (body : Nat) : Machine :=
  match m.frames.head?.bind (·.loops.head?) with
  | some left =>
      if 1 < left then m.withLoops (fun loops => (left - 1) :: loops.tail) body
      else m.withLoops List.tail (m.pc + 1)
  | none => { m with pc := m.pc + 1 }

def execute (m : Machine) : Instr → Eval Machine
  | .primitive p args => do
      let next ← m.primitive p args
      return { next with pc := m.pc + 1 }
  | .make name value => do
      let x ← m.eval value
      return { m with frames := assign name x m.frames, pc := m.pc + 1 }
  | .call proc args =>
      if m.depthLimit < m.frames.length then throw (.tooManyCalls m.depthLimit)
      else match m.program.procs[proc]? with
        | some target => m.call target args
        | none => return { m with status := .halted }
  | .ret => return m.leave
  | .jumpUnless cond target => do
      let x ← m.eval cond.lhs
      let y ← m.eval cond.rhs
      return { m with pc := if cond.comparison.holds x y then m.pc + 1 else target }
  | .loopStart count exit => do m.startLoop (← m.eval count) exit
  | .loopNext body => return m.nextTurn body
  | .halt => return { m with status := .halted }

def faultEvent (m : Machine) (fault : Fault) : Event :=
  .runtimeError
    ("Line " ++ Number.digitText (m.program.line m.pc) ++ ": " ++ fault.message)

/-- Execute the current instruction. -/
def advance (m : Machine) : Machine :=
  match m.program.code[m.pc]? with
  | none => { m with status := .halted }
  | some instr =>
      match (m.execute instr).run.run m.answers with
      | (.ok next, answers) => { next with answers }
      | (.error fault, answers) =>
          { m.emit (m.faultEvent fault) with answers, status := .halted }

/-- Put an event into the queue and give out a token for it. -/
def enqueue (m : Machine) (e : HostEvent) : Machine :=
  { m with issued := m.issued + 1, queue := m.queue ++ [(m.issued + 1, e)] }

/-- Handle an event from outside. -/
def handle (m : Machine) (token : Nat) : HostEvent → Machine
  | .timer =>
      { m with timer := if m.timer = some token then none else m.timer, waiting := false }
  | .interaction _ => m

/-- One step: handle the oldest event, or go on waiting, or execute an instruction. -/
def step (m : Machine) : Machine :=
  let m := { m with yielded := false }
  if m.status = .running then
    match m.queue with
    | (token, e) :: rest => { m with queue := rest }.handle token e
    | [] => if m.waiting then { m with status := .waiting, yielded := true } else m.advance
  else m

/-- Hand out the inputs: interactions are events, everything else is an answer. -/
def refill (m : Machine) : List Input → Machine
  | [] => m
  | .interaction i :: rest => (m.enqueue (.interaction i)).refill rest
  | answer :: rest => { m with answers := m.answers ++ [answer] }.refill rest

/-- Go back to the start of the program. Tokens are not given out twice. -/
def reset (m : Machine) : Machine :=
  let m := { m with
    pc := 0
    frames := [.empty]
    turtle := .initial
    answers := []
    queue := []
    timer := none
    waiting := false
    yielded := false
    status := .running }
  m.refill m.supply

/-- Abandon what is being executed. -/
def stop (m : Machine) : Machine :=
  { m with queue := [], timer := none, waiting := false, status := .halted }

end Machine

def interpreter : Interpreter Machine where
  status := Machine.status
  setStatus status m := { m with status }
  step := Machine.step
  yielded := Machine.yielded
  reset := Machine.reset
  stop := Machine.stop
  enqueue e _ m := (some (m.issued + 1), m.enqueue e)
  timer := Machine.timer
  setTimer timer m := { m with timer }
  bindCanvas size m := { m with canvas := some size }
  events := Machine.events

/-- How deeply procedure calls may nest unless something else is said. -/
def defaultDepthLimit : Nat := 256

def Problem.diagnostic (p : Problem) : Diagnostic := ⟨p.reportedLine, p.message⟩

def language (depthLimit : Nat) : Language Program Machine where
  toInterpreter := interpreter
  compile source := (compile source).mapError (·.map Problem.diagnostic)
  instantiate program inputs := .new program inputs depthLimit

end LogoStudio.Logo
