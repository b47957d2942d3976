import LogoStudio.Proofs.Logo.Progress
import LogoStudio.Schedule.Session

/-!
# Schedules do not show

A session chooses how long its slices are, reads a clock, puts timer events into the queue
and delivers the interactions among the inputs. None of this reaches the program: whatever
the session does, the machine has made some number of ticks from the same opening. Hence
of two runs with the same answers one shows a beginning of what the other shows, and a run
that was not cut off shows everything.
-/
namespace LogoStudio.Schedule

open Logo

/-- Whether an event says that a run was cut off. -/
def isTimeout : Event → Bool
  | .timeout => true
  | _ => false

def endsInTimeout (events : List Event) : Bool := events.getLast?.any isTimeout

def beforeTimeout (events : List Event) : List Event :=
  if endsInTimeout events then events.dropLast else events

/-- The list that a run returns: none if the limit was no time limit, and none while the
session still runs. -/
def Ending.returned? {σ : Type} (i : Interpreter σ) : Ending σ → Option (List Event)
  | .badTimeout => none
  | .diagnostics list => some (list.map Diagnostic.event)
  | .ran session => if session.isFinished then some (session.events i) else none

@[simp] lemma endsInTimeout_append (events : List Event) :
    endsInTimeout (events ++ [.timeout]) = true := by
  simp [endsInTimeout, isTimeout]

@[simp] lemma beforeTimeout_append (events : List Event) :
    beforeTimeout (events ++ [.timeout]) = events := by
  simp [beforeTimeout]

lemma endsInTimeout_eq_false {events : List Event} (h : ∀ e ∈ events, isTimeout e = false) :
    endsInTimeout events = false := by
  cases hlast : events.getLast? with
  | none => simp [endsInTimeout, hlast]
  | some e => simp [endsInTimeout, hlast, h e (List.mem_of_getLast? hlast)]

/-- The machine has started and is some number of ticks past the opening. -/
def Follows (start m : Machine) : Prop :=
  m.status ≠ .notStarted ∧ ∃ n, m.settle = Machine.tick^[n] start

lemma Follows.of_settle_eq {start m m' : Machine} (h : Follows start m)
    (hstatus : m'.status ≠ .notStarted) (hsettle : m'.settle = m.settle) : Follows start m' := by
  obtain ⟨-, n, hn⟩ := h
  exact ⟨hstatus, n, hsettle.trans hn⟩

lemma Follows.step {start m : Machine} (h : Follows start m) : Follows start m.step := by
  have hstatus := Machine.status_step h.1
  by_cases hidle : m.IsIdle
  · obtain ⟨-, n, hn⟩ := h
    refine ⟨hstatus, n + 1, ?_⟩
    rw [Machine.settle_step_of_isIdle hidle, hn, Function.iterate_succ_apply']
  · exact h.of_settle_eq hstatus (Machine.settle_step_of_not_isIdle hidle)

/-- What holds of a session of the machine at every reading of the clock. -/
structure Faithful (start : Machine) (s : Session Machine) : Prop where
  follows : Follows start s.state
  halted : s.phase = .finished false → s.state.status = .halted

section Session

variable {start : Machine} {s : Session Machine}

lemma faithful_enter (h : Follows start s.state) : Faithful start (s.enter interpreter) := by
  simp only [Session.enter, interpreter]
  by_cases hwait : s.state.status = .waiting
  · simp only [hwait, if_true]
    exact ⟨h.of_settle_eq (by simp) (by simp [Machine.settle, hwait]), by simp⟩
  · simp only [hwait, if_false]
    split
    · exact ⟨h, by simp⟩
    · next hrun =>
        refine ⟨h, fun _ => ?_⟩
        have hstarted := h.1
        cases hstatus : s.state.status <;> simp_all

lemma faithful_again (h : Follows start s.state) : Faithful start (s.again interpreter) := by
  unfold Session.again
  split
  · exact ⟨h, by simp⟩
  · exact faithful_enter h

lemma faithful_close (h : Follows start s.state) : Faithful start (s.close interpreter) := by
  unfold Session.close
  apply faithful_again
  simp only [interpreter]
  by_cases htimer : s.state.timer.isNone = true
  · simp only [htimer, if_true]
    exact h.of_settle_eq h.1 rfl
  · simp only [htimer]
    exact h

lemma faithful_proceed (since : Nat) (h : Follows start s.state) :
    Faithful start (s.proceed interpreter since) := by
  unfold Session.proceed
  split
  · exact ⟨h, by simp⟩
  · exact faithful_close h

/-- One reading of the clock. -/
lemma Faithful.advance (h : Faithful start s) (limits : Limits) (now : Nat) :
    Faithful start (s.advance interpreter limits now) := by
  have hfollows := h.follows
  unfold Session.advance
  split
  · exact faithful_again hfollows
  · split
    · exact ⟨hfollows, by simp⟩
    · exact faithful_enter hfollows
  · exact faithful_proceed now hfollows
  · split
    · have hstep : Follows start (interpreter.step s.state) := hfollows.step
      dsimp only
      split
      · exact faithful_close hstep
      · exact faithful_proceed _ hstep
    · exact faithful_close hfollows
  · exact h

/-- All the readings of the clock. -/
lemma Faithful.run (h : Faithful start s) (limits : Limits) (clock : Nat → Nat) (fuel k : Nat) :
    Faithful start (s.run interpreter limits clock fuel k) := by
  induction fuel generalizing k s with
  | zero => exact h
  | succ fuel ih =>
      unfold Session.run
      split
      · exact h
      · exact ih (h.advance limits (clock k)) (k + 1)

end Session

/-- What a run that returned `events` did with the machine that opened as `start`: it made
some number of ticks, and reached the end unless it was cut off. -/
def Ran (start : Machine) (events : List Event) : Prop :=
  ∃ n, beforeTimeout events = (Machine.tick^[n] start).events ∧
    (endsInTimeout events = false →
      events = (Machine.tick^[n] start).events ∧ (Machine.tick^[n] start).status = .halted)

lemma Faithful.ran {start : Machine} {s : Session Machine} (h : Faithful start s)
    (hstart : start.shown = []) (hfinished : s.isFinished = true) :
    Ran start (s.events interpreter) := by
  obtain ⟨⟨-, n, hn⟩, hhalted⟩ := h
  have hevents : s.state.events = (Machine.tick^[n] start).events := by
    rw [← hn, Machine.events_settle]
  have hshown := Machine.isShown_iterate_tick (m := start) (by simp [hstart]) n
  have htimeout : ∀ e ∈ s.state.events, isTimeout e = false := by
    intro e he
    rw [hevents, Machine.events, List.mem_reverse] at he
    have := hshown e he
    cases e <;> first | rfl | exact this.elim
  refine ⟨n, ?_⟩
  cases hphase : s.phase with
  | finished timedOut =>
      cases timedOut with
      | true => simp [Session.events, hphase, interpreter, hevents]
      | false =>
          have hends := endsInTimeout_eq_false htimeout
          simp only [Session.events, hphase, interpreter, beforeTimeout, hends]
          refine ⟨hevents, fun _ => ⟨hevents, ?_⟩⟩
          rw [← hn, Machine.status_settle_eq_halted]
          exact hhalted hphase
  | _ => simp [Session.isFinished, hphase] at hfinished

/-- The state of a run that was made ready. -/
lemma faithful_prepare {depthLimit lastInstant : Nat} {config : Config} {source : String}
    {seconds : Float} {inputs : List Input} {surface : Option Size} {program : Program}
    {limits : Limits} {session : Session Machine} (hcompile : compile source = .ok program)
    (h : prepare (language depthLimit) config lastInstant source seconds inputs surface =
      .ready limits session) :
    Faithful (.opening program depthLimit surface (inputs.filter Machine.isAnswer)) session := by
  simp only [prepare, language, hcompile, Except.mapError] at h
  split at h
  · simp at h
  · simp only [Start.ready.injEq] at h
    obtain ⟨-, rfl⟩ := h
    refine ⟨⟨?_, 0, ?_⟩, by simp [Session.new]⟩
    · simp [Session.new, interpreter]
    · cases surface <;> exact Machine.settle_reset _

/-- A compiled program starts from the same opening whatever its schedule is. -/
lemma ran_of_returned? {depthLimit fuel : Nat} {config : Config} {clock : Clock}
    {source : String} {seconds : Float} {inputs : List Input} {surface : Option Size}
    {program : Program} {events : List Event} (hcompile : compile source = .ok program)
    (h : (run (language depthLimit) config clock fuel source seconds inputs surface).returned?
      interpreter = some events) :
    Ran (.opening program depthLimit surface (inputs.filter Machine.isAnswer)) events := by
  unfold run at h
  split at h
  · simp [Ending.returned?] at h
  · next list hstart =>
      simp only [prepare, language, hcompile, Except.mapError] at hstart
      split at hstart <;> simp at hstart
  · next limits session hstart =>
      have hfaithful := (faithful_prepare hcompile hstart).run limits clock.reading fuel 0
      simp only [Ending.returned?, Option.ite_none_right_eq_some, Option.some.injEq] at h
      obtain ⟨hfinished, rfl⟩ := h
      exact hfaithful.ran rfl hfinished

/-- A source that does not compile gives the same diagnostics in every run. -/
lemma eq_diagnostics_of_returned? {depthLimit fuel : Nat} {config : Config} {clock : Clock}
    {source : String} {seconds : Float} {inputs : List Input} {surface : Option Size}
    {problems : List Problem} {events : List Event} (hcompile : compile source = .error problems)
    (h : (run (language depthLimit) config clock fuel source seconds inputs surface).returned?
      interpreter = some events) :
    events = problems.map fun p => p.diagnostic.event := by
  simp only [run, prepare, language, hcompile, Except.mapError] at h
  split at h
  · simp [Ending.returned?] at h
  · next list hstart =>
      split at hstart
      · simp at hstart
      · simp only [Start.diagnostics.injEq] at hstart
        simp only [Ending.returned?, Option.some.injEq, ← hstart, List.map_map] at h
        exact h.symm
  · next hstart => split at hstart <;> simp at hstart

lemma Ran.prefix_or_prefix {start : Machine} {events₁ events₂ : List Event}
    (h₁ : Ran start events₁) (h₂ : Ran start events₂) :
    beforeTimeout events₁ <+: beforeTimeout events₂ ∨
      beforeTimeout events₂ <+: beforeTimeout events₁ := by
  obtain ⟨n, hn, -⟩ := h₁
  obtain ⟨k, hk, -⟩ := h₂
  rw [hn, hk]
  exact (Nat.le_total n k).imp (start.events_prefix_iterate_tick ·)
    (start.events_prefix_iterate_tick ·)

/-- A run that was not cut off has shown everything there is to show. -/
lemma Ran.prefix_of_endsInTimeout_eq_false {start : Machine} {events₁ events₂ : List Event}
    (h₁ : Ran start events₁) (h₂ : Ran start events₂) (hends : endsInTimeout events₁ = false) :
    beforeTimeout events₂ <+: events₁ := by
  obtain ⟨n, -, hn⟩ := h₁
  obtain ⟨k, hk, -⟩ := h₂
  obtain ⟨hevents, hhalted⟩ := hn hends
  rw [hevents, hk]
  rcases Nat.le_total k n with hkn | hnk
  · exact start.events_prefix_iterate_tick hkn
  · obtain ⟨d, rfl⟩ := Nat.exists_eq_add_of_le' hnk
    simp only [Function.iterate_add_apply, Machine.iterate_tick_of_halted hhalted,
      List.prefix_refl]

lemma beforeTimeout_prefix (events : List Event) : beforeTimeout events <+: events := by
  unfold beforeTimeout
  split
  · exact List.dropLast_prefix _
  · exact List.prefix_refl _

lemma beforeTimeout_of_endsInTimeout_eq_false {events : List Event}
    (h : endsInTimeout events = false) : beforeTimeout events = events := by
  simp [beforeTimeout, h]

/-- What a run returns does not depend on its schedule or on interactions: two runs of one
source with the same call depth, surface and answers, but any slices, clocks, limits and
interactions, return the same events up to where one of them was cut off. -/
theorem returned_independent_of_schedule {source : String} {depthLimit : Nat}
    {surface : Option Size} {config₁ config₂ : Config} {clock₁ clock₂ : Clock}
    {fuel₁ fuel₂ : Nat} {seconds₁ seconds₂ : Float} {inputs₁ inputs₂ : List Input}
    {events₁ events₂ : List Event}
    (hanswers : inputs₁.filter Machine.isAnswer = inputs₂.filter Machine.isAnswer)
    (h₁ : (run (language depthLimit) config₁ clock₁ fuel₁ source seconds₁ inputs₁
      surface).returned? interpreter = some events₁)
    (h₂ : (run (language depthLimit) config₂ clock₂ fuel₂ source seconds₂ inputs₂
      surface).returned? interpreter = some events₂) :
    (beforeTimeout events₁ <+: beforeTimeout events₂ ∨
        beforeTimeout events₂ <+: beforeTimeout events₁) ∧
      (endsInTimeout events₁ = false → beforeTimeout events₂ <+: events₁) ∧
      (endsInTimeout events₂ = false → beforeTimeout events₁ <+: events₂) ∧
      (endsInTimeout events₁ = false → endsInTimeout events₂ = false → events₁ = events₂) := by
  cases hcompile : compile source with
  | error problems =>
      have heq : events₁ = events₂ :=
        (eq_diagnostics_of_returned? hcompile h₁).trans
          (eq_diagnostics_of_returned? hcompile h₂).symm
      subst heq
      exact ⟨.inl (List.prefix_refl _), fun _ => beforeTimeout_prefix _,
        fun _ => beforeTimeout_prefix _, fun _ _ => rfl⟩
  | ok program =>
      have hran₁ := ran_of_returned? hcompile h₁
      have hran₂ := ran_of_returned? hcompile h₂
      rw [← hanswers] at hran₂
      refine ⟨hran₁.prefix_or_prefix hran₂, hran₁.prefix_of_endsInTimeout_eq_false hran₂,
        hran₂.prefix_of_endsInTimeout_eq_false hran₁, fun hends₁ hends₂ => ?_⟩
      have h₂₁ := hran₁.prefix_of_endsInTimeout_eq_false hran₂ hends₁
      have h₁₂ := hran₂.prefix_of_endsInTimeout_eq_false hran₁ hends₂
      rw [beforeTimeout_of_endsInTimeout_eq_false hends₂] at h₂₁
      rw [beforeTimeout_of_endsInTimeout_eq_false hends₁] at h₁₂
      exact h₁₂.eq_of_length_le h₂₁.length_le

/-- A program that waits, once with a click among its inputs and slices of three readings,
and once cut off while it waits. -/
theorem returned_of_waiting_program :
    let source := "print \"a wait print \"b"
    let late : Clock := ⟨fun k => if k < 8 then 0 else 5000000000, 10000000000⟩
    let whole := run (language 1) ⟨3, 1⟩ ⟨id, 100⟩ 40 source 1 [.interaction ⟨"click", .null⟩] none
    let cut := run (language 1) ⟨7, 1⟩ late 40 source 1 [] none
    whole.returned? interpreter = some [.print "a", .print "b"] ∧
      cut.returned? interpreter = some [.print "a", .timeout] ∧
      beforeTimeout [.print "a", .timeout] <+: [.print "a", .print "b"] := by
  intro source late whole cut
  have hwhole : whole.returned? interpreter = some [.print "a", .print "b"] := by decide +kernel
  have hcut : cut.returned? interpreter = some [.print "a", .timeout] := by decide +kernel
  have h := returned_independent_of_schedule (by rfl) hwhole hcut
  exact ⟨hwhole, hcut, h.2.1 rfl⟩

end LogoStudio.Schedule
