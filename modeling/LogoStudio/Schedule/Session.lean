import LogoStudio.Schedule.Interpreter
import LogoStudio.Schedule.Timeout

/-!
# Sessions

A session drives an interpreter in slices of time, puts a timer event into its queue
between slices, and cuts it off at a deadline. It is a machine that moves once for every
reading of the clock: which reading comes next, and what is compared with it, is its
phase. The clock is a parameter, so that a run is a function of the readings.
-/
namespace LogoStudio.Schedule

/-- What bounds a session, in nanoseconds. -/
structure Limits where
  /-- How long to go on stepping before a timer event. -/
  slice : Nat
  timeout : Nat
  /-- The last instant of the clock. A deadline past it is as good as none. -/
  lastInstant : Nat

/-- What the next reading of the clock is for. -/
inductive Phase where
  /-- It is the start of the session. -/
  | starting
  /-- It is compared with the deadline. -/
  | checking (deadline : Nat)
  /-- It is the start of a slice. -/
  | opening
  /-- It is compared with the end of the slice that started at `since`. -/
  | stepping (since : Nat)
  /-- There is none: the session is over, and was perhaps cut off. -/
  | finished (timedOut : Bool)

/-- A session of an interpreter with states of type `σ`. -/
structure Session (σ : Type) where
  state : σ
  deadline : Option Nat
  phase : Phase

variable {σ : Type}

namespace Session

def new (state : σ) : Session σ := ⟨state, none, .starting⟩

/-- Whether there is nothing left to do. -/
def isFinished (s : Session σ) : Bool :=
  match s.phase with
  | .finished _ => true
  | _ => false

/-- Past the deadline check: wake a waiting program, and open a slice if it runs. -/
def enter (i : Interpreter σ) (s : Session σ) : Session σ :=
  let state := if i.status s.state = .waiting then i.setStatus .running s.state else s.state
  if i.status state = .running then { s with state, phase := .opening }
  else { s with state, phase := .finished false }

/-- Back to the deadline check, if there is a deadline. -/
def again (i : Interpreter σ) (s : Session σ) : Session σ :=
  match s.deadline with
  | some deadline => { s with phase := .checking deadline }
  | none => s.enter i

/-- After a slice: queue a timer event unless one is pending. -/
def close (i : Interpreter σ) (s : Session σ) : Session σ :=
  let state :=
    if (i.timer s.state).isNone then
      let (token, state) := i.enqueue .timer .null s.state
      i.setTimer token state
    else s.state
  { s with state }.again i

/-- Go on with the slice while the program runs. -/
def proceed (i : Interpreter σ) (since : Nat) (s : Session σ) : Session σ :=
  if i.status s.state = .running then { s with phase := .stepping since } else s.close i

/-- Move on with the next reading of the clock. -/
def advance (i : Interpreter σ) (limits : Limits) (now : Nat) (s : Session σ) : Session σ :=
  match s.phase with
  | .starting =>
      let deadline := now + limits.timeout
      { s with deadline := if deadline ≤ limits.lastInstant then some deadline else none }.again i
  | .checking deadline =>
      if deadline ≤ now then { s with phase := .finished true } else s.enter i
  | .opening => s.proceed i now
  | .stepping since =>
      if now - since < limits.slice then
        let s := { s with state := i.step s.state }
        if i.yielded s.state then s.close i else s.proceed i since
      else s.close i
  | .finished _ => s

/-- Move on with the readings from number `k` on, at most `fuel` of them, until the session
is over. -/
def run (i : Interpreter σ) (limits : Limits) (clock : Nat → Nat) :
    (fuel k : Nat) → Session σ → Session σ
  | 0, _, s => s
  | fuel + 1, k, s =>
      if s.isFinished then s else run i limits clock fuel (k + 1) (s.advance i limits (clock k))

/-- Everything the program has shown, and a last event if it was cut off. -/
def events (i : Interpreter σ) (s : Session σ) : List Event :=
  match s.phase with
  | .finished true => i.events s.state ++ [.timeout]
  | _ => i.events s.state

end Session

structure Config where
  /-- The length of a slice in nanoseconds. -/
  slice : Nat
  /-- The limit in seconds where nothing else is said. -/
  defaultTimeout : Float

/-- Slices of 14 milliseconds and a limit of three seconds. -/
def Config.default : Config := ⟨14000000, 3⟩

/-- A clock: its readings in order, and the last instant it can show. -/
structure Clock where
  reading : Nat → Nat
  lastInstant : Nat

inductive Start (σ : Type) where
  /-- The limit is no time limit. -/
  | badTimeout
  | diagnostics (list : List Diagnostic)
  | ready (limits : Limits) (session : Session σ)

/-- Compile a program and make its session ready. -/
def prepare (l : Language π σ) (config : Config) (lastInstant : Nat) (source : String)
    (seconds : Float) (inputs : List Input) (surface : Option Size) : Start σ :=
  match nanoseconds? seconds with
  | none => .badTimeout
  | some timeout =>
      match l.compile source with
      | .error list => .diagnostics list
      | .ok program =>
          let state := l.instantiate program inputs
          let state := match surface with
            | some size => l.bindCanvas size state
            | none => state
          .ready ⟨config.slice, timeout, lastInstant⟩ (.new (l.reset (l.stop state)))

inductive Ending (σ : Type) where
  | badTimeout
  | diagnostics (list : List Diagnostic)
  /-- The program ran; `session` is over if enough readings were allowed. -/
  | ran (session : Session σ)

/-- Compile a program and run it, for at most `fuel` readings of the clock. -/
def run (l : Language π σ) (config : Config) (clock : Clock) (fuel : Nat) (source : String)
    (seconds : Float) (inputs : List Input) (surface : Option Size) : Ending σ :=
  match prepare l config clock.lastInstant source seconds inputs surface with
  | .badTimeout => .badTimeout
  | .diagnostics list => .diagnostics list
  | .ready limits session =>
      .ran (session.run l.toInterpreter limits clock.reading fuel 0)

/-- The events of a run, unless its limit was no time limit. -/
def Ending.events? (i : Interpreter σ) : Ending σ → Option (List Event)
  | .badTimeout => none
  | .diagnostics list => some (list.map Diagnostic.event)
  | .ran session => some (session.events i)

end LogoStudio.Schedule
