import LogoStudio.Proofs.Logo.Simulation

/-!
# Driven machines show what programs mean

A host that steps a machine, and wakes it with a timer event whenever it is suspended,
brings every compiled program to an end. Events from outside and suspensions only delay the
ticks of the program: a timer event is in the queue exactly while one is pending, so a
suspended machine is released after finitely many steps. The events shown in the end are
the meaning of the program.
-/
namespace LogoStudio.Logo.Machine

/-- Wake a suspended program: queue a timer event unless one is pending, and let it run. -/
def wake (m : Machine) : Machine :=
  let m :=
    if (interpreter.timer m).isNone then
      let (token, m) := interpreter.enqueue .timer .null m
      interpreter.setTimer token m
    else m
  interpreter.setStatus .running m

/-- What a host does next: it wakes a suspended program and steps any other. -/
def drive (m : Machine) : Machine :=
  if interpreter.status m = .waiting then m.wake else interpreter.step m

/-- The tokens of the timer events in a queue. -/
def timersIn : List (Nat × HostEvent) → List Nat
  | [] => []
  | (token, .timer) :: rest => token :: timersIn rest
  | (_, .interaction _) :: rest => timersIn rest

lemma timersIn_append_timer (queue : List (Nat × HostEvent)) (token : Nat) :
    timersIn (queue ++ [(token, .timer)]) = timersIn queue ++ [token] := by
  fun_induction timersIn queue with
  | case1 => rfl
  | case2 token' rest ih => exact congrArg (token' :: ·) ih
  | case3 token' i rest ih => exact ih

lemma timersIn_append_interaction (queue : List (Nat × HostEvent)) (token : Nat)
    (i : Interaction) : timersIn (queue ++ [(token, .interaction i)]) = timersIn queue := by
  fun_induction timersIn queue with
  | case1 => rfl
  | case2 token' rest ih => exact congrArg (token' :: ·) ih
  | case3 token' j rest ih => exact ih

/-- A timer event is queued exactly if one is pending, and with its token. -/
def TimersAgree (m : Machine) : Prop := timersIn m.queue = m.timer.toList

lemma TimersAgree.of_eq {m m' : Machine} (h : m.TimersAgree) (hqueue : m'.queue = m.queue)
    (htimer : m'.timer = m.timer) : m'.TimersAgree := by
  rw [TimersAgree, hqueue, htimer]
  exact h

lemma TimersAgree.wake {m : Machine} (h : m.TimersAgree) : m.wake.TimersAgree := by
  unfold Machine.wake
  dsimp only
  split
  · next htimer =>
      have hnone : m.timer = none := Option.isNone_iff_eq_none.mp htimer
      rw [TimersAgree, hnone] at h
      change timersIn (m.queue ++ [(m.issued + 1, .timer)]) = [m.issued + 1]
      rw [timersIn_append_timer, h]
      rfl
  · exact h.of_eq rfl rfl

/-- Handling an event from outside keeps timers in agreement. -/
lemma TimersAgree.handle {m : Machine} {token : Nat} {e : HostEvent} {rest : List (Nat × HostEvent)}
    (h : m.TimersAgree) (hqueue : m.queue = (token, e) :: rest) :
    ({ m with queue := rest }.handle token e).TimersAgree := by
  rw [TimersAgree, hqueue] at h
  cases e with
  | interaction i => exact h
  | timer =>
      rw [timersIn] at h
      cases htimer : m.timer with
      | none =>
          rw [htimer] at h
          cases h
      | some token' =>
          rw [htimer] at h
          obtain ⟨rfl, hrest⟩ := List.cons.inj h
          simp only [TimersAgree, Machine.handle, hrest, if_true, Option.toList_none]

lemma TimersAgree.step {m : Machine} (h : m.TimersAgree) : m.step.TimersAgree := by
  unfold Machine.step
  dsimp only
  split
  · split
    · next token e rest hqueue =>
        have hready : TimersAgree { m with yielded := false } := h.of_eq rfl rfl
        exact hready.handle hqueue
    · split
      · exact h.of_eq rfl rfl
      · have hkept := kept_advance { m with yielded := false }
        exact (h.of_eq rfl rfl).of_eq hkept.queue hkept.timer
  · exact h.of_eq rfl rfl

lemma TimersAgree.drive {m : Machine} (h : m.TimersAgree) : m.drive.TimersAgree := by
  unfold Machine.drive
  split
  · exact h.wake
  · exact h.step

lemma TimersAgree.refill {m : Machine} (h : m.TimersAgree) (inputs : List Input) :
    (m.refill inputs).TimersAgree := by
  induction inputs generalizing m with
  | nil => exact h
  | cons input rest ih =>
      cases input with
      | interaction i =>
          apply ih
          change timersIn (m.queue ++ [(m.issued + 1, .interaction i)]) = m.timer.toList
          rw [timersIn_append_interaction]
          exact h
      | confirm answer => exact ih (h.of_eq rfl rfl)
      | prompt answer => exact ih (h.of_eq rfl rfl)

lemma settle_wake {m : Machine} (h : m.status = .waiting) : m.wake.settle = m.settle := by
  unfold wake
  dsimp only
  split <;> simp [settle, interpreter, enqueue, h]

lemma status_wake (m : Machine) : m.wake.status = .running := by
  unfold wake
  dsimp only
  split <;> rfl

/-- A running machine handles its queue and ends its suspension before it goes on. -/
lemma exists_isIdle_of_running {m : Machine} (h : m.TimersAgree) (hrun : m.status = .running) :
    ∃ k, (drive^[k] m).IsIdle ∧ (drive^[k] m).settle = m.settle := by
  generalize hqueue : m.queue = queue
  induction queue generalizing m with
  | nil =>
      cases hwait : m.waiting with
      | false => exact ⟨0, ⟨hrun, hqueue, hwait⟩, rfl⟩
      | true =>
          have huntimed : m.timer = none := by
            rw [TimersAgree, hqueue] at h
            exact Option.toList_eq_nil_iff.mp h.symm
          have hreleased : drive^[3] m =
              { m with issued := m.issued + 1, yielded := false, waiting := false } := by
            simp [drive, interpreter, step, wake, enqueue, handle, hrun, hqueue, hwait, huntimed]
          refine ⟨3, ?_⟩
          rw [hreleased]
          refine ⟨⟨hrun, hqueue, rfl⟩, ?_⟩
          simp [settle]
  | cons first rest ih =>
      obtain ⟨token, e⟩ := first
      have hstep : m.drive = { m with yielded := false, queue := rest }.handle token e := by
        simp [drive, interpreter, step, hrun, hqueue]
      have hidle : ¬m.IsIdle := by
        rintro ⟨-, hempty, -⟩
        rw [hqueue] at hempty
        cases hempty
      have hsettle : m.drive.settle = m.settle := by
        have hdrive : m.drive = m.step := by simp [drive, interpreter, hrun]
        rw [hdrive]
        exact settle_step_of_not_isIdle hidle
      have hnext : m.drive.status = .running ∧ m.drive.queue = rest := by
        rw [hstep]
        cases e <;> exact ⟨hrun, rfl⟩
      obtain ⟨k, hk, hsame⟩ := ih h.drive hnext.1 hnext.2
      exact ⟨k + 1, hk, hsame.trans hsettle⟩

/-- A machine that has not halted goes on with its program after finitely many steps. -/
lemma exists_isIdle {m : Machine} (h : m.TimersAgree) (hstart : m.status ≠ .notStarted)
    (hhalt : m.status ≠ .halted) :
    ∃ k, (drive^[k] m).IsIdle ∧ (drive^[k] m).settle = m.settle := by
  cases hstatus : m.status with
  | notStarted => exact absurd hstatus hstart
  | halted => exact absurd hstatus hhalt
  | running => exact exists_isIdle_of_running h hstatus
  | waiting =>
      have hdrive : m.drive = m.wake := by simp [drive, interpreter, hstatus]
      obtain ⟨k, hk, hsame⟩ := exists_isIdle_of_running h.wake m.status_wake
      refine ⟨k + 1, ?_⟩
      rw [Function.iterate_succ_apply, hdrive]
      exact ⟨hk, hsame.trans (settle_wake hstatus)⟩

lemma timersAgree_iterate_drive {m : Machine} (h : m.TimersAgree) (k : Nat) :
    (drive^[k] m).TimersAgree := by
  induction k with
  | zero => exact h
  | succ k ih =>
      rw [Function.iterate_succ_apply']
      exact ih.drive

lemma status_drive {m : Machine} (h : m.status ≠ .notStarted) : m.drive.status ≠ .notStarted := by
  unfold drive
  split
  · rw [status_wake]
    decide
  · exact status_step h

lemma status_iterate_drive {m : Machine} (h : m.status ≠ .notStarted) (k : Nat) :
    (drive^[k] m).status ≠ .notStarted := by
  induction k with
  | zero => exact h
  | succ k ih =>
      rw [Function.iterate_succ_apply']
      exact status_drive ih

/-- A driven machine gets as far as any number of ticks of its program. -/
lemma exists_drive_of_ticks {m : Machine} (h : m.TimersAgree) (hstart : m.status ≠ .notStarted)
    (n : Nat) : ∃ k, (drive^[k] m).settle = tick^[n] m.settle := by
  induction n with
  | zero => exact ⟨0, rfl⟩
  | succ n ih =>
      obtain ⟨k, hk⟩ := ih
      rw [Function.iterate_succ_apply', ← hk]
      by_cases hhalt : (drive^[k] m).status = .halted
      · rw [tick_of_halted ((status_settle_eq_halted _).mpr hhalt)]
        exact ⟨k, rfl⟩
      · obtain ⟨j, hidle, hsame⟩ :=
          exists_isIdle (timersAgree_iterate_drive h k) (status_iterate_drive hstart k) hhalt
        refine ⟨j + 1 + k, ?_⟩
        rw [Function.iterate_add_apply, Function.iterate_succ_apply', ← hsame,
          ← settle_step_of_isIdle hidle]
        have hdrive : (drive^[j] (drive^[k] m)).drive = (drive^[j] (drive^[k] m)).step := by
          simp [drive, interpreter, hidle.1]
        rw [hdrive]

lemma iterate_drive_of_halted {m : Machine} (h : m.status = .halted) (k : Nat) :
    (drive^[k] m).status = .halted ∧ (drive^[k] m).events = m.events := by
  induction k with
  | zero => exact ⟨h, rfl⟩
  | succ k ih =>
      obtain ⟨hhalted, hevents⟩ := ih
      rw [Function.iterate_succ_apply']
      have hdrive : (drive^[k] m).drive = { drive^[k] m with yielded := false } := by
        simp [drive, interpreter, step, hhalted]
      rw [hdrive]
      exact ⟨hhalted, hevents⟩

/-- A new machine with or without a surface. -/
def onSurface (surface : Option Size) (m : Machine) : Machine :=
  match surface with
  | some size => interpreter.bindCanvas size m
  | none => m

end Machine

open Machine

/-- Every program that compiles is brought to an end by a host that steps the machine and
wakes it at each suspension, and the events shown are exactly the meaning of the program,
whatever its inputs, the limit for nested calls and the surface. -/
theorem driven_machine_shows_meaning {source : String} {p : Program}
    (hp : compile source = .ok p) :
    ∃ program, parse source = .ok program ∧
      ∀ (inputs : List Input) (limit : Nat) (surface : Option Size),
        ∃ n, ∀ k, n ≤ k →
          let m := drive^[k] (interpreter.reset (onSurface surface (.new p inputs limit)))
          interpreter.status m = .halted ∧
            interpreter.events m =
              programMeaning limit surface (inputs.filter isAnswer) program := by
  obtain ⟨program, hparse, -⟩ := compile_eq_ok hp
  refine ⟨program, hparse, ?_⟩
  intro inputs limit surface
  obtain ⟨last, ⟨ticks, hticks⟩, hhalted, hevents⟩ :=
    opening_leads hp hparse limit surface (inputs.filter isAnswer)
  have hopening : (onSurface surface (.new p inputs limit)).reset.settle =
      opening p limit surface (inputs.filter isAnswer) := by
    rw [settle_reset]
    cases surface <;> rfl
  have hagree : (onSurface surface (.new p inputs limit)).reset.TimersAgree := by
    change (Machine.refill _ _).TimersAgree
    apply TimersAgree.refill
    rfl
  have hstart : (onSurface surface (.new p inputs limit)).reset.status ≠ .notStarted := by
    rw [status_reset]
    decide
  obtain ⟨n, hn⟩ := exists_drive_of_ticks hagree hstart ticks
  rw [hopening, hticks] at hn
  refine ⟨n, ?_⟩
  intro k hk
  obtain ⟨d, rfl⟩ := Nat.exists_eq_add_of_le hk
  have hend : (drive^[n] (onSurface surface (.new p inputs limit)).reset).status = .halted := by
    rw [← status_settle_eq_halted, hn]
    exact hhalted
  have hshown : (drive^[n] (onSurface surface (.new p inputs limit)).reset).events =
      last.events := by
    rw [← events_settle, hn]
  have hstay := iterate_drive_of_halted hend d
  rw [← Function.iterate_add_apply, Nat.add_comm d n] at hstay
  exact ⟨hstay.1, hstay.2.trans (hshown.trans hevents)⟩

/-- A recursive procedure that waits and stops, called in a loop, with a click among the
inputs. -/
theorem driven_machine_shows_countdown :
    let source := "to f :n if :n = 0 [stop] print :n wait f :n - 1 end repeat 2 [f prompt]"
    let inputs : List Input := [.prompt "2", .interaction ⟨"click", .null⟩, .prompt "1"]
    ∃ p, compile source = .ok p ∧ ∃ n, ∀ k, n ≤ k →
      let m := drive^[k] (interpreter.reset (onSurface none (.new p inputs 3)))
      interpreter.status m = .halted ∧
        interpreter.events m = [.print "2", .print "1", .print "1"] := by
  intro source inputs
  have hok : (compile source).toBool = true := by decide +kernel
  have hmeaning : (parse source).toOption.map (programMeaning 3 none (inputs.filter isAnswer)) =
      some [.print "2", .print "1", .print "1"] := by decide +kernel
  cases hp : compile source with
  | error problems =>
      rw [hp] at hok
      cases hok
  | ok p =>
      obtain ⟨program, hparse, hshows⟩ := driven_machine_shows_meaning hp
      rw [hparse] at hmeaning
      have hevents := hshows inputs 3 none
      rw [Option.some.inj hmeaning] at hevents
      exact ⟨p, rfl, hevents⟩

end LogoStudio.Logo
