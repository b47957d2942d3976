import LogoStudio.Proofs.Logo.Evaluation
import Mathlib.Logic.Function.Iterate

/-!
# What an instruction sees

Some fields of a machine belong to its host: the inputs it was made with, the queue of
events, the tokens it gave out and the pending timer. No instruction reads or changes them,
and no instruction looks at what was shown before. Settling a machine
forgets these fields together with the queue, the waiting and the suspension, and keeps
what the program itself can see. On settled machines the program is one deterministic
sequence of ticks; every step of a machine is a tick or changes nothing.
-/
namespace LogoStudio.Logo.Machine

/-- An event that a primitive can show. -/
def IsOutput : Event → Prop
  | .print _ => True
  | .turtle _ => True
  | .canvas _ => True
  | _ => False

/-- What is the same after a primitive other than waiting: it moves the turtle and shows
events, and touches nothing else. -/
def Performed (m m' : Machine) : Prop :=
  ∃ turtle new, (∀ e ∈ new, IsOutput e) ∧ m' = { m with turtle, shown := new ++ m.shown }

lemma performed_turtle (m : Machine) (turtle : Turtle) : Performed m { m with turtle } :=
  ⟨turtle, [], by simp, rfl⟩

lemma performed_emit (m : Machine) {e : Event} (he : IsOutput e) : Performed m (m.emit e) :=
  ⟨m.turtle, [e], by simpa using he, rfl⟩

lemma performed_moved (m : Machine) (move : Turtle × Option TurtleLine) :
    Performed m (m.moved move) := by
  obtain ⟨turtle, _ | line⟩ := move
  · exact performed_turtle m turtle
  · exact ⟨turtle, [.turtle line], by simp [IsOutput], rfl⟩

lemma foldl_emit (lines : List TurtleLine) (m : Machine) :
    lines.foldl (fun m line => m.emit (.turtle line)) m =
      { m with shown := (lines.map Event.turtle).reverse ++ m.shown } := by
  induction lines generalizing m with
  | nil => rfl
  | cons line rest ih =>
      rw [List.foldl_cons, ih]
      simp [emit]

lemma performed_foldl_emit (m : Machine) (lines : List TurtleLine) :
    Performed m (lines.foldl (fun m line => m.emit (.turtle line)) m) := by
  rw [foldl_emit]
  refine ⟨m.turtle, (lines.map Event.turtle).reverse, ?_, rfl⟩
  intro e he
  obtain ⟨line, _, rfl⟩ := List.mem_map.mp (List.mem_reverse.mp he)
  trivial

/-- The machine that waits for a timer. -/
def suspended (m : Machine) : Machine :=
  { m with waiting := true, status := .waiting, yielded := true }

/-- A primitive that meets no fault performs, or suspends the machine. -/
lemma primitive_eq_ok {m m' : Machine} {p : Primitive} {args : List Actual}
    {answers rest : List Input} (h : (m.primitive p args).outcome answers = (.ok m', rest)) :
    Performed m m' ∨ (p = .wait ∧ m' = m.suspended) := by
  unfold primitive at h
  obtain ⟨numbers, middle, -, h⟩ := Eval.outcome_bind_eq_ok.mp h
  split at h
  all_goals simp only [Eval.outcome_pure, Eval.outcome_throw, Eval.outcome_bind_eq_ok,
    Prod.mk.injEq, Except.ok.injEq, reduceCtorEq, false_and, and_false, exists_false] at h
  all_goals try obtain ⟨rfl, -⟩ := h
  all_goals try obtain ⟨-, -, -, rfl, -⟩ := h
  all_goals try obtain ⟨-, -, -, -, -, -, rfl, -⟩ := h
  all_goals first
    | exact .inl (performed_turtle _ _)
    | exact .inl (performed_moved _ _)
    | exact .inl (performed_emit _ trivial)
    | exact .inl (performed_foldl_emit _ _)
    | exact .inr ⟨rfl, rfl⟩

/-- What an instruction that meets no fault can make of a machine. The values that it
computes are left open; where it goes on and what it does to the frames is not. -/
def Does (m : Machine) : Instr → Machine → Prop
  | .primitive p _, m' => ∃ next, (Performed m next ∨ (p = .wait ∧ next = m.suspended)) ∧
      m' = { next with pc := m.pc + 1 }
  | .make name _, m' => ∃ x, m' = { m with frames := assign name x m.frames, pc := m.pc + 1 }
  | .call proc _, m' => m.frames.length ≤ m.depthLimit ∧
      match m.program.procs[proc]? with
      | some target => ∃ vars,
          m' = { m with frames := ⟨vars, [], m.pc + 1⟩ :: m.frames, pc := target.entry }
      | none => m' = { m with status := .halted }
  | .ret, m' => m' = m.leave
  | .jumpUnless _ target, m' => m' = { m with pc := m.pc + 1 } ∨ m' = { m with pc := target }
  | .loopStart _ exit, m' => m' = { m with pc := exit } ∨
      ∃ count, m' = m.withLoops (count :: ·) (m.pc + 1)
  | .loopNext body, m' => m' = m.nextTurn body
  | .halt, m' => m' = { m with status := .halted }

lemma startLoop_eq_ok {m m' : Machine} {count : Float} {exit : Nat} {answers rest : List Input}
    (h : (m.startLoop count exit).outcome answers = (.ok m', rest)) :
    m' = { m with pc := exit } ∨ m' = m.withLoops (Number.toNat64 count :: ·) (m.pc + 1) := by
  unfold startLoop at h
  split at h
  · simp at h
  · split at h
    all_goals simp only [Eval.outcome_pure, Prod.mk.injEq, Except.ok.injEq] at h
    · exact .inl h.1.symm
    · exact .inr h.1.symm

lemma execute_eq_ok {m m' : Machine} {instr : Instr} {answers rest : List Input}
    (h : (m.execute instr).outcome answers = (.ok m', rest)) : m.Does instr m' := by
  cases instr with
  | primitive p args =>
      obtain ⟨next, middle, hp, h⟩ := Eval.outcome_bind_eq_ok.mp h
      simp only [Eval.outcome_pure, Prod.mk.injEq, Except.ok.injEq] at h
      exact ⟨next, primitive_eq_ok hp, h.1.symm⟩
  | make name value =>
      obtain ⟨x, middle, -, h⟩ := Eval.outcome_bind_eq_ok.mp h
      simp only [Eval.outcome_pure, Prod.mk.injEq, Except.ok.injEq] at h
      exact ⟨x, h.1.symm⟩
  | call proc args =>
      simp only [execute] at h
      split at h
      · simp at h
      · next hdepth =>
          refine ⟨by omega, ?_⟩
          cases hproc : m.program.procs[proc]? with
          | none =>
              simp only [hproc, Eval.outcome_pure, Prod.mk.injEq, Except.ok.injEq] at h
              exact h.1.symm
          | some target =>
              simp only [hproc] at h
              obtain ⟨bound, middle, -, h⟩ := Eval.outcome_bind_eq_ok.mp h
              simp only [Eval.outcome_pure, Prod.mk.injEq, Except.ok.injEq] at h
              exact ⟨bound.reverse, h.1.symm⟩
  | ret =>
      simp only [execute, Eval.outcome_pure, Prod.mk.injEq, Except.ok.injEq] at h
      exact h.1.symm
  | jumpUnless cond target =>
      obtain ⟨x, middle, -, h⟩ := Eval.outcome_bind_eq_ok.mp h
      obtain ⟨y, last, -, h⟩ := Eval.outcome_bind_eq_ok.mp h
      simp only [Eval.outcome_pure, Prod.mk.injEq, Except.ok.injEq] at h
      obtain ⟨rfl, -⟩ := h
      by_cases hc : cond.comparison.holds x y
      · exact .inl (by simp [hc])
      · exact .inr (by simp [hc])
  | loopStart count exit =>
      obtain ⟨x, middle, -, h⟩ := Eval.outcome_bind_eq_ok.mp h
      exact (startLoop_eq_ok h).imp id fun h => ⟨_, h⟩
  | loopNext body =>
      simp only [execute, Eval.outcome_pure, Prod.mk.injEq, Except.ok.injEq] at h
      exact h.1.symm
  | halt =>
      simp only [execute, Eval.outcome_pure, Prod.mk.injEq, Except.ok.injEq] at h
      exact h.1.symm

/-- The events shown grow by outputs. -/
def Shows (m m' : Machine) : Prop := ∃ new, (∀ e ∈ new, IsOutput e) ∧ m'.shown = new ++ m.shown

lemma shows_of_eq {m m' : Machine} (h : m'.shown = m.shown) : Shows m m' :=
  ⟨[], by simp, by simpa using h⟩

@[simp] lemma shown_withLoops (m : Machine) (change : List Nat → List Nat) (pc : Nat) :
    (m.withLoops change pc).shown = m.shown := by
  unfold withLoops
  split <;> rfl

@[simp] lemma status_withLoops (m : Machine) (change : List Nat → List Nat) (pc : Nat) :
    (m.withLoops change pc).status = m.status := by
  unfold withLoops
  split <;> rfl

@[simp] lemma shown_leave (m : Machine) : m.leave.shown = m.shown := by
  unfold leave
  split <;> rfl

@[simp] lemma shown_nextTurn (m : Machine) (body : Nat) : (m.nextTurn body).shown = m.shown := by
  unfold nextTurn
  split
  · split <;> simp
  · rfl

@[simp] lemma status_nextTurn (m : Machine) (body : Nat) :
    (m.nextTurn body).status = m.status := by
  unfold nextTurn
  split
  · split <;> simp
  · rfl

lemma Does.shows {m m' : Machine} {instr : Instr} (h : m.Does instr m') : Shows m m' := by
  cases instr with
  | primitive p args =>
      obtain ⟨next, ⟨turtle, new, hnew, rfl⟩ | ⟨-, rfl⟩, rfl⟩ := h
      · exact ⟨new, hnew, rfl⟩
      · exact shows_of_eq rfl
  | make name value => obtain ⟨x, rfl⟩ := h; exact shows_of_eq rfl
  | call proc args =>
      obtain ⟨-, h⟩ := h
      split at h
      · obtain ⟨vars, rfl⟩ := h; exact shows_of_eq rfl
      · subst h; exact shows_of_eq rfl
  | ret => subst h; exact shows_of_eq (by simp)
  | jumpUnless cond target => obtain rfl | rfl := h <;> exact shows_of_eq rfl
  | loopStart count exit => obtain rfl | ⟨n, rfl⟩ := h <;> exact shows_of_eq (by simp)
  | loopNext body => subst h; exact shows_of_eq (by simp)
  | halt => subst h; exact shows_of_eq rfl

lemma Does.status {m m' : Machine} {instr : Instr} (h : m.Does instr m') :
    m'.status = m.status ∨ m'.status = .waiting ∨ m'.status = .halted := by
  cases instr with
  | primitive p args =>
      obtain ⟨next, ⟨turtle, new, -, rfl⟩ | ⟨-, rfl⟩, rfl⟩ := h
      · exact .inl rfl
      · exact .inr (.inl rfl)
  | make name value => obtain ⟨x, rfl⟩ := h; exact .inl rfl
  | call proc args =>
      obtain ⟨-, h⟩ := h
      split at h
      · obtain ⟨vars, rfl⟩ := h; exact .inl rfl
      · subst h; exact .inr (.inr rfl)
  | ret =>
      subst h
      unfold leave
      split
      · exact .inl rfl
      · exact .inr (.inr rfl)
  | jumpUnless cond target => obtain rfl | rfl := h <;> exact .inl rfl
  | loopStart count exit => obtain rfl | ⟨n, rfl⟩ := h <;> simp
  | loopNext body => subst h; simp
  | halt => subst h; exact .inr (.inr rfl)

/-- What no instruction changes. -/
structure Kept (m m' : Machine) : Prop where
  program : m'.program = m.program
  depthLimit : m'.depthLimit = m.depthLimit
  queue : m'.queue = m.queue
  timer : m'.timer = m.timer

lemma kept_withLoops (m : Machine) (change : List Nat → List Nat) (pc : Nat) :
    Kept m (m.withLoops change pc) := by
  unfold withLoops
  split <;> exact ⟨rfl, rfl, rfl, rfl⟩

lemma Does.kept {m m' : Machine} {instr : Instr} (h : m.Does instr m') : Kept m m' := by
  cases instr with
  | primitive p args =>
      obtain ⟨next, ⟨turtle, new, -, rfl⟩ | ⟨-, rfl⟩, rfl⟩ := h <;> exact ⟨rfl, rfl, rfl, rfl⟩
  | make name value =>
      obtain ⟨x, rfl⟩ := h
      exact ⟨rfl, rfl, rfl, rfl⟩
  | call proc args =>
      obtain ⟨-, h⟩ := h
      split at h
      · obtain ⟨vars, rfl⟩ := h
        exact ⟨rfl, rfl, rfl, rfl⟩
      · subst h
        exact ⟨rfl, rfl, rfl, rfl⟩
  | ret =>
      subst h
      unfold leave
      split <;> exact ⟨rfl, rfl, rfl, rfl⟩
  | jumpUnless cond target => obtain rfl | rfl := h <;> exact ⟨rfl, rfl, rfl, rfl⟩
  | loopStart count exit =>
      obtain rfl | ⟨n, rfl⟩ := h
      · exact ⟨rfl, rfl, rfl, rfl⟩
      · exact kept_withLoops m _ _
  | loopNext body =>
      subst h
      unfold nextTurn
      split
      · split <;> exact kept_withLoops m _ _
      · exact ⟨rfl, rfl, rfl, rfl⟩
  | halt =>
      subst h
      exact ⟨rfl, rfl, rfl, rfl⟩

/-- Executing the current instruction, with a fault or without, touches nothing of the host. -/
lemma kept_advance (m : Machine) : Kept m m.advance := by
  rw [advance_eq]
  split
  · exact ⟨rfl, rfl, rfl, rfl⟩
  · split
    · next next answers hok =>
        have hkept := (execute_eq_ok hok).kept
        exact ⟨hkept.program, hkept.depthLimit, hkept.queue, hkept.timer⟩
    · exact ⟨rfl, rfl, rfl, rfl⟩

/-- What a step of a running machine does: it handles an event, finds nothing to do, or
executes an instruction. -/
lemma step_cases {m : Machine} (h : m.status = .running) :
    (∃ token e rest, m.queue = (token, e) :: rest ∧
        m.step = { m with yielded := false, queue := rest }.handle token e) ∨
      (m.queue = [] ∧ m.waiting = true ∧
        m.step = { m with status := .waiting, yielded := true }) ∨
      (m.queue = [] ∧ m.waiting = false ∧ m.step = { m with yielded := false }.advance) := by
  cases hqueue : m.queue with
  | cons first rest =>
      obtain ⟨token, e⟩ := first
      exact .inl ⟨token, e, rest, rfl, by simp [step, h, hqueue]⟩
  | nil =>
      cases hwait : m.waiting with
      | true => exact .inr (.inl ⟨rfl, rfl, by simp [step, h, hqueue, hwait]⟩)
      | false => exact .inr (.inr ⟨rfl, rfl, by simp [step, h, hqueue, hwait]⟩)

lemma step_of_not_running {m : Machine} (h : m.status ≠ .running) :
    m.step = { m with yielded := false } := by
  simp [step, h]

/-- A machine that has started stays so. -/
lemma status_step {m : Machine} (h : m.status ≠ .notStarted) : m.step.status ≠ .notStarted := by
  unfold step
  dsimp only
  split
  · next hrun =>
      split
      · next token e rest _ => cases e <;> exact h
      · split
        · simp
        · rw [advance_eq]
          split
          · simp
          · next instr _ =>
              split
              · next next answers hok =>
                  have hstatus := (execute_eq_ok hok).status
                  simp only [hrun] at hstatus
                  obtain h | h | h := hstatus <;> simp [h]
              · simp
  · exact h

def withHost (m : Machine) (supply : List Input) (issued : Nat) (timer : Option Nat) : Machine :=
  { m with supply, issued, timer }

/-- The inputs of a primitive depend on the frames and the canvas only. -/
lemma numberInputs_congr {m m' : Machine} (hframes : m'.frames = m.frames)
    (hcanvas : m'.canvas = m.canvas) (p : Primitive) (args : List (Actual × Slot)) :
    m'.numberInputs p args = m.numberInputs p args := by
  have hinput (arg : Actual) : m'.numberInput p arg = m.numberInput p arg := by
    cases arg <;> simp only [numberInput, eval, hframes, hcanvas]
  fun_induction numberInputs m p args with
  | case1 => rfl
  | case2 arg rest ih => rw [numberInputs, hinput, ih]
  | case3 first rest hfirst ih => simp only [numberInputs, ih]

lemma bindInputs_congr {m m' : Machine} (hframes : m'.frames = m.frames)
    (hcanvas : m'.canvas = m.canvas) (inputs : List (String × Expr)) :
    m'.bindInputs inputs = m.bindInputs inputs := by
  fun_induction bindInputs m inputs with
  | case1 => rfl
  | case2 name e rest ih => simp only [bindInputs, ih, eval, hframes, hcanvas]

/-- What is around the program of a machine and out of its reach. -/
structure Surroundings where
  supply : List Input
  queue : List (Nat × HostEvent)
  issued : Nat
  timer : Option Nat
  /-- Events that were shown before all others, the newest first. -/
  earlier : List Event

def amid (m : Machine) (s : Surroundings) : Machine :=
  { m with
    supply := s.supply
    queue := s.queue
    issued := s.issued
    timer := s.timer
    shown := m.shown ++ s.earlier }

section Surroundings

variable (m : Machine) (s : Surroundings)

lemma numberInputs_amid (p : Primitive) (args : List (Actual × Slot)) :
    (m.amid s).numberInputs p args = m.numberInputs p args :=
  numberInputs_congr (by rfl) (by rfl) p args

lemma bindInputs_amid (inputs : List (String × Expr)) :
    (m.amid s).bindInputs inputs = m.bindInputs inputs :=
  bindInputs_congr (by rfl) (by rfl) inputs

lemma moved_amid (move : Turtle × Option TurtleLine) :
    (m.amid s).moved move = (m.moved move).amid s := by
  obtain ⟨turtle, _ | line⟩ := move <;> rfl

lemma foldl_emit_amid (lines : List TurtleLine) :
    lines.foldl (fun m line => m.emit (.turtle line)) (m.amid s) =
      (lines.foldl (fun m line => m.emit (.turtle line)) m).amid s := by
  rw [foldl_emit, foldl_emit]
  simp [amid]

lemma primitive_amid (p : Primitive) (args : List Actual) :
    (m.amid s).primitive p args = (·.amid s) <$> m.primitive p args := by
  simp only [primitive, numberInputs_amid, map_bind]
  congr 1
  funext numbers
  split
  all_goals try simp only [map_bind, map_pure, moved_amid, foldl_emit_amid]
  all_goals rfl

lemma withLoops_amid (change : List Nat → List Nat) (pc : Nat) :
    (m.amid s).withLoops change pc = (m.withLoops change pc).amid s := by
  obtain ⟨_, _, _, _, _ | _⟩ := m <;> rfl

lemma leave_amid : (m.amid s).leave = m.leave.amid s := by
  obtain ⟨_, _, _, _, _ | ⟨_, _ | _⟩⟩ := m <;> rfl

lemma startLoop_amid (count : Float) (exit : Nat) :
    (m.amid s).startLoop count exit = (·.amid s) <$> m.startLoop count exit := by
  unfold startLoop
  split
  · rfl
  · split
    · rfl
    · rw [map_pure, ← withLoops_amid]
      rfl

lemma nextTurn_amid (body : Nat) : (m.amid s).nextTurn body = (m.nextTurn body).amid s := by
  unfold nextTurn
  simp only [withLoops_amid]
  simp only [amid]
  split
  · split <;> rfl
  · rfl

lemma execute_amid (instr : Instr) :
    (m.amid s).execute instr = (·.amid s) <$> m.execute instr := by
  cases instr with
  | primitive p args =>
      simp only [execute, primitive_amid, bind_map_left, map_bind]
      rfl
  | make name value => simp only [execute, map_bind]; rfl
  | call proc args =>
      simp only [execute]
      split
      · next hdepth =>
          rw [if_pos (show m.depthLimit < m.frames.length from hdepth)]
          rfl
      · next hdepth =>
          rw [if_neg (show ¬m.depthLimit < m.frames.length from hdepth)]
          simp only [amid]
          split
          · simp only [call, map_bind]
            rw [← bindInputs_amid m s]
            rfl
          · rfl
  | ret => simp only [execute, map_pure, leave_amid]
  | jumpUnless cond target => simp only [execute, map_bind]; rfl
  | loopStart count exit => simp only [execute, map_bind, startLoop_amid]; rfl
  | loopNext body => simp only [execute, map_pure, nextTurn_amid]
  | halt => rfl

/-- An instruction does the same in all surroundings, and leaves them as they are. -/
lemma advance_amid : (m.amid s).advance = m.advance.amid s := by
  simp only [advance_eq, execute_amid, Eval.outcome_map]
  simp only [amid]
  split
  · rfl
  · next instr _ => rcases (m.execute instr).outcome m.answers with ⟨_ | next, answers⟩ <;> rfl

end Surroundings

lemma advance_withHost (m : Machine) (supply : List Input) (issued : Nat) (timer : Option Nat) :
    (m.withHost supply issued timer).advance = m.advance.withHost supply issued timer := by
  have hamid : m.withHost supply issued timer = m.amid ⟨supply, m.queue, issued, timer, []⟩ := by
    simp [withHost, amid]
  rw [hamid, advance_amid]
  simp [withHost, amid, m.kept_advance.queue]

/-- What the program itself can see of a machine: nothing of the host's fields, of the
queue or of a suspension is left. -/
def settle (m : Machine) : Machine :=
  { m with
    supply := []
    queue := []
    issued := 0
    timer := none
    waiting := false
    yielded := false
    status := if m.status = .halted then .halted else .running }

/-- Execute the current instruction of a settled machine that has not halted. -/
def tick (m : Machine) : Machine := if m.status = .running then m.advance.settle else m

@[simp] lemma events_settle (m : Machine) : m.settle.events = m.events := rfl

@[simp] lemma settle_settle (m : Machine) : m.settle.settle = m.settle := by
  simp only [settle]
  split <;> rfl

lemma status_settle_eq_halted (m : Machine) : m.settle.status = .halted ↔ m.status = .halted := by
  simp only [settle]
  split <;> simp_all

lemma tick_of_halted {m : Machine} (h : m.status = .halted) : m.tick = m := by
  simp [tick, h]

lemma iterate_tick_of_halted {m : Machine} (h : m.status = .halted) (n : Nat) :
    tick^[n] m = m := Function.iterate_fixed (tick_of_halted h) n

/-- Whether the next step of a machine executes an instruction. -/
def IsIdle (m : Machine) : Prop := m.status = .running ∧ m.queue = [] ∧ m.waiting = false

lemma step_of_isIdle {m : Machine} (h : m.IsIdle) :
    m.step = { m with yielded := false }.advance := by
  simp [step, h.1, h.2.1, h.2.2]

/-- A step that executes an instruction is a tick of what the program sees. -/
lemma settle_step_of_isIdle {m : Machine} (h : m.IsIdle) : m.step.settle = m.settle.tick := by
  have hstep := step_of_isIdle h
  obtain ⟨hrun, hqueue, hwait⟩ := h
  let ready : Machine := { m with yielded := false }
  have hsettle : m.settle = ready.withHost [] 0 none := by
    simp [settle, withHost, ready, hrun, hqueue, hwait]
  have hrunning : (ready.withHost [] 0 none).status = .running := hrun
  rw [hstep, hsettle, tick, if_pos hrunning, advance_withHost]
  rfl

/-- Every other step leaves what the program sees as it is. -/
lemma settle_step_of_not_isIdle {m : Machine} (h : ¬m.IsIdle) : m.step.settle = m.settle := by
  unfold step
  dsimp only
  split
  · next hrun =>
      split
      · next token e rest hqueue => cases e <;> rfl
      · next hqueue =>
          have hwait : m.waiting = true := by
            by_contra hw
            exact h ⟨hrun, hqueue, by simpa using hw⟩
          have hrun' : m.status = .running := hrun
          simp [settle, hwait, hrun']
  · rfl

/-- An event that a running program can show: an output or the message of a fault. -/
def IsShown : Event → Prop
  | .runtimeError _ => True
  | e => IsOutput e

lemma IsOutput.isShown {e : Event} (h : IsOutput e) : IsShown e := by
  cases e <;> trivial

lemma advance_shown (m : Machine) :
    ∃ new, (∀ e ∈ new, IsShown e) ∧ m.advance.shown = new ++ m.shown := by
  rw [advance_eq]
  split
  · exact ⟨[], by simp, rfl⟩
  · next instr _ =>
      rcases h : (m.execute instr).outcome m.answers with ⟨fault | next, answers⟩
      · exact ⟨[m.faultEvent fault], by simp [faultEvent, IsShown], rfl⟩
      · obtain ⟨new, hnew, hshown⟩ := (execute_eq_ok h).shows
        exact ⟨new, fun e he => (hnew e he).isShown, hshown⟩

lemma events_prefix_tick (m : Machine) : m.events <+: m.tick.events := by
  unfold tick
  split
  · obtain ⟨new, -, h⟩ := m.advance_shown
    exact ⟨new.reverse, by simp [events, settle, h]⟩
  · exact List.prefix_refl _

lemma events_prefix_iterate_tick (m : Machine) {k n : Nat} (h : k ≤ n) :
    (tick^[k] m).events <+: (tick^[n] m).events := by
  obtain ⟨d, rfl⟩ := Nat.exists_eq_add_of_le h
  clear h
  induction d with
  | zero => exact List.prefix_refl _
  | succ d ih =>
      rw [← Nat.add_assoc, Function.iterate_succ_apply']
      exact ih.trans (events_prefix_tick _)

lemma isShown_iterate_tick {m : Machine} (h : ∀ e ∈ m.shown, IsShown e) (n : Nat) :
    ∀ e ∈ (tick^[n] m).shown, IsShown e := by
  induction n with
  | zero => exact h
  | succ n ih =>
      rw [Function.iterate_succ_apply', tick]
      split
      · obtain ⟨new, hnew, hshown⟩ := (tick^[n] m).advance_shown
        intro e he
        rw [show (tick^[n] m).advance.settle.shown = new ++ (tick^[n] m).shown from hshown] at he
        exact (List.mem_append.mp he).elim (hnew e) (ih e)
      · exact ih

/-- Whether an input answers prompts or confirmations. -/
def isAnswer : Input → Bool
  | .interaction _ => false
  | _ => true

/-- What a program sees when it starts. -/
def opening (program : Program) (depthLimit : Nat) (canvas : Option Size)
    (answers : List Input) : Machine :=
  { new program [] depthLimit with status := .running, canvas, answers }

lemma settle_refill (inputs : List Input) (m : Machine) :
    (m.refill inputs).settle =
      { m with answers := m.answers ++ inputs.filter isAnswer }.settle := by
  induction inputs generalizing m with
  | nil => simp [refill]
  | cons input rest ih =>
      cases input with
      | interaction i => simp only [refill, ih]; rfl
      | confirm answer => simp only [refill, ih, List.append_assoc, List.singleton_append]; rfl
      | prompt answer => simp only [refill, ih, List.append_assoc, List.singleton_append]; rfl

@[simp] lemma status_refill (inputs : List Input) (m : Machine) :
    (m.refill inputs).status = m.status := by
  induction inputs generalizing m with
  | nil => rfl
  | cons input rest ih => cases input <;> simp [refill, ih, enqueue]

@[simp] lemma status_reset (m : Machine) : m.reset.status = .running := by simp [reset]

/-- After a reset nothing of an earlier run is left but the events shown. -/
lemma settle_reset (m : Machine) :
    m.reset.settle =
      { opening m.program m.depthLimit m.canvas (m.supply.filter isAnswer) with
        shown := m.shown } := by
  rw [reset, settle_refill]
  simp [settle, opening, new]

end LogoStudio.Logo.Machine
