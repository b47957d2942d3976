import LogoStudio.Event.Basic
import LogoStudio.Input

/-!
# Interpreters

What a host needs of a running program to drive it: a status, single steps, a queue for
events from outside and a token for the pending timer among them. The status, the wish to
yield, the pending timer and the events are functions of the state, so reading them does not
change it. Nothing is assumed of what the other operations make of a state; the host has to
keep its side of the protocol with all of them.
-/
namespace LogoStudio

inductive Status where
  | notStarted
  /-- Suspended until an event from outside arrives. -/
  | waiting
  | running
  /-- Finished, normally or with an error. -/
  | halted
  deriving DecidableEq

/-- The size of a surface in pixels. -/
structure Size where
  width : Nat
  height : Nat

/-- Something that happened outside the program and is delivered to it. -/
inductive HostEvent where
  /-- Fired between slices of time. -/
  | timer
  | interaction (i : Interaction)

/-- A problem that a compiler reports. -/
structure Diagnostic where
  line : UInt32
  message : String

def Diagnostic.event (d : Diagnostic) : Event := .compileError d.line d.message

/-- The operations of an interpreter with states of type `σ`. -/
structure Interpreter (σ : Type) where
  status : σ → Status
  setStatus : Status → σ → σ
  /-- Do a small, bounded amount of work. -/
  step : σ → σ
  /-- Whether the last step asked to end the slice. -/
  yielded : σ → Bool
  /-- Go back to the start of the program, ready to run. -/
  reset : σ → σ
  /-- Abandon what is being executed. -/
  stop : σ → σ
  /-- Queue an event; no token is given for an event the program does not listen for. -/
  enqueue : HostEvent → Json → σ → Option Nat × σ
  /-- The token of the pending timer event. -/
  timer : σ → Option Nat
  setTimer : Option Nat → σ → σ
  /-- Give the program a surface it can measure. -/
  bindCanvas : Size → σ → σ
  /-- Everything the program has shown so far, in order. -/
  events : σ → List Event

/-- A language: a compiler to programs of type `π`, and an interpreter for them. -/
structure Language (π σ : Type) extends Interpreter σ where
  compile : String → Except (List Diagnostic) π
  instantiate : π → List Input → σ

end LogoStudio
