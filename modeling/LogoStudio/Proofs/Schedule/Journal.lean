import LogoStudio.Schedule.Session
import Mathlib.Logic.Function.Iterate

/-!
# Journals

A journal says what a language and its interpreter were asked to do, in order, and in which
state. A language that keeps a journal does what it did before and writes down every call that
can change something; looking at a status, a timer or the events is no such call. A session
reaches an interpreter through its operations alone, so the journal of a run holds the calls
that the run made, and keeping one does not change the run.
-/
namespace LogoStudio.Schedule

variable {π σ : Type}

/-- A call of an interpreter that can change its state. -/
inductive Call where
  | bindCanvas (size : Size)
  | stop
  | reset
  | setStatus (status : Status)
  | step
  | enqueue (e : HostEvent) (payload : Json)
  | setTimer (token : Option Nat)

def Call.apply (i : Interpreter σ) : Call → σ → σ
  | .bindCanvas size => i.bindCanvas size
  | .stop => i.stop
  | .reset => i.reset
  | .setStatus status => i.setStatus status
  | .step => i.step
  | .enqueue e payload => fun m => (i.enqueue e payload m).2
  | .setTimer token => i.setTimer token

inductive Entry (σ : Type) where
  | compile (source : String)
  | instantiate (inputs : List Input)
  /-- The call of an interpreter that was in the state `m`. -/
  | on (m : σ) (call : Call)

/-- A state with everything that was asked for so far, oldest first. -/
structure Recorded (σ : Type) where
  state : σ
  journal : List (Entry σ)

/-- Make a call and write it down. -/
def Recorded.ask (i : Interpreter σ) (call : Call) (r : Recorded σ) : Recorded σ :=
  ⟨call.apply i r.state, r.journal ++ [.on r.state call]⟩

/-- The interpreter that keeps a journal. -/
def recorder (i : Interpreter σ) : Interpreter (Recorded σ) where
  status r := i.status r.state
  setStatus status := Recorded.ask i (.setStatus status)
  step := Recorded.ask i .step
  yielded r := i.yielded r.state
  reset := Recorded.ask i .reset
  stop := Recorded.ask i .stop
  enqueue e payload r := ((i.enqueue e payload r.state).1, r.ask i (.enqueue e payload))
  timer r := i.timer r.state
  setTimer token := Recorded.ask i (.setTimer token)
  bindCanvas size := Recorded.ask i (.bindCanvas size)
  events r := i.events r.state

section

variable (i : Interpreter σ) (r : Recorded σ)

@[simp] lemma status_recorder : (recorder i).status r = i.status r.state := rfl

@[simp] lemma yielded_recorder : (recorder i).yielded r = i.yielded r.state := rfl

@[simp] lemma step_recorder : (recorder i).step r = r.ask i .step := rfl

end

/-- The language that keeps a journal; a compiled program remembers its source. -/
def recording (l : Language π σ) : Language (String × π) (Recorded σ) where
  toInterpreter := recorder l.toInterpreter
  compile source := (l.compile source).map (source, ·)
  instantiate program inputs :=
    ⟨l.instantiate program.2 inputs, [.compile program.1, .instantiate inputs]⟩

/-- The calls of a journal lead from one state to another. -/
def Replays (i : Interpreter σ) : σ → List (Entry σ) → σ → Prop
  | m, [], m' => m = m'
  | m, .on asked call :: rest, m' => asked = m ∧ Replays i (call.apply i m) rest m'
  | _, _ :: _, _ => False

lemma replays_append {i : Interpreter σ} {m m' : σ} {first second : List (Entry σ)} :
    Replays i m (first ++ second) m' ↔
      ∃ middle, Replays i m first middle ∧ Replays i middle second m' := by
  induction first generalizing m with
  | nil => simp [Replays]
  | cons e rest ih =>
      cases e with
      | on asked call => simp [Replays, ih, and_assoc]
      | compile source => simp [Replays]
      | instantiate inputs => simp [Replays]

/-- The state after a waiting program was set running. -/
def woken (i : Interpreter σ) (m : σ) : σ :=
  if i.status m = .waiting then i.setStatus .running m else m

/-- The state after a timer event was queued, unless one is pending. -/
def timed (i : Interpreter σ) (m : σ) : σ :=
  if (i.timer m).isNone then
    i.setTimer (i.enqueue .timer .null m).1 (i.enqueue .timer .null m).2
  else m

lemma Session.enter_eq (i : Interpreter σ) (s : Session σ) :
    s.enter i = ⟨woken i s.state, s.deadline,
      if i.status (woken i s.state) = .running then .opening else .finished false⟩ := by
  change (if i.status (woken i s.state) = .running
    then { s with state := woken i s.state, phase := .opening }
    else { s with state := woken i s.state, phase := .finished false }) = _
  split <;> rfl

lemma Session.close_eq (i : Interpreter σ) (s : Session σ) :
    s.close i = { s with state := timed i s.state }.again i := rfl

def Session.forget (s : Session (Recorded σ)) : Session σ := ⟨s.state.state, s.deadline, s.phase⟩

def Ending.forget : Ending (Recorded σ) → Ending σ
  | .badTimeout => .badTimeout
  | .diagnostics list => .diagnostics list
  | .ran session => .ran session.forget

/-- What a run of a source asked for. Without a program there is no interpreter to ask. -/
def Ending.journal (source : String) : Ending (Recorded σ) → List (Entry σ)
  | .badTimeout => []
  | .diagnostics _ => [.compile source]
  | .ran session => session.state.journal

section Forget

variable (i : Interpreter σ) (s : Session (Recorded σ))

@[simp] lemma state_woken_recorder (r : Recorded σ) :
    (woken (recorder i) r).state = woken i r.state := by
  unfold woken
  rw [apply_ite Recorded.state]
  rfl

@[simp] lemma state_timed_recorder (r : Recorded σ) :
    (timed (recorder i) r).state = timed i r.state := by
  unfold timed
  rw [apply_ite Recorded.state]
  rfl

lemma forget_enter : (s.enter (recorder i)).forget = s.forget.enter i := by
  simp only [Session.enter_eq, Session.forget, status_recorder, state_woken_recorder]

lemma forget_again : (s.again (recorder i)).forget = s.forget.again i := by
  obtain ⟨r, deadline, phase⟩ := s
  cases deadline with
  | none => exact forget_enter i _
  | some deadline => rfl

lemma forget_close : (s.close (recorder i)).forget = s.forget.close i := by
  rw [Session.close_eq, Session.close_eq, forget_again]
  simp only [Session.forget, state_timed_recorder]

lemma forget_proceed (since : Nat) :
    (s.proceed (recorder i) since).forget = s.forget.proceed i since := by
  unfold Session.proceed
  rw [apply_ite Session.forget, forget_close]
  rfl

lemma forget_advance (limits : Limits) (now : Nat) :
    (s.advance (recorder i) limits now).forget = s.forget.advance i limits now := by
  obtain ⟨r, deadline, phase⟩ := s
  cases phase with
  | starting => exact forget_again i _
  | checking deadline =>
      simp only [Session.advance, Session.forget]
      rw [← Session.forget, apply_ite Session.forget, forget_enter]
      rfl
  | opening => exact forget_proceed i _ now
  | stepping since =>
      simp only [Session.advance]
      rw [apply_ite Session.forget, apply_ite Session.forget, forget_close, forget_close,
        forget_proceed]
      rfl
  | finished timedOut => rfl

lemma forget_run (limits : Limits) (clock : Nat → Nat) (fuel k : Nat) :
    (s.run (recorder i) limits clock fuel k).forget = s.forget.run i limits clock fuel k := by
  induction fuel generalizing k s with
  | zero => rfl
  | succ fuel ih =>
      unfold Session.run
      rw [apply_ite Session.forget, ih, forget_advance]
      rfl

end Forget

/-- Keeping a journal does not change a run. -/
lemma forget_run_recording (l : Language π σ) (config : Config) (clock : Clock) (fuel : Nat)
    (source : String) (seconds : Float) (inputs : List Input) (surface : Option Size) :
    (run (recording l) config clock fuel source seconds inputs surface).forget =
      run l config clock fuel source seconds inputs surface := by
  unfold run prepare
  cases nanoseconds? seconds with
  | none => rfl
  | some timeout =>
      dsimp only [recording]
      cases l.compile source with
      | error list => rfl
      | ok program =>
          have hrun := forget_run l.toInterpreter
          cases surface <;> exact congrArg Ending.ran (hrun _ _ _ _ _)

end LogoStudio.Schedule
