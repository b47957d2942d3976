import LogoStudio.Proofs.Schedule.Protocol
import LogoStudio.Proofs.Schedule.Independence
import Mathlib.Order.Monotone.Basic

/-!
# Runs that are cut off

A session looks at the clock between its slices and compares the reading with the deadline; only
when the deadline has not come does it look at the program. So a run that is cut off was found
running or waiting at every check but the last one, and a program that has halted at a check
before the deadline is not reported as cut off. At the last check nobody asks for its status: a
program that halts in the last slice in front of it, however early in that slice, is reported as
cut off although nothing of it is missing.
-/
namespace LogoStudio.Schedule

variable {π σ : Type} {i : Interpreter σ} {limits : Limits}

namespace Session

variable {s : Session σ} {now : Nat}

/-- A check asks for the program only if the deadline has not come. -/
lemma advance_checking {deadline : Nat} (h : s.phase = .checking deadline) :
    s.advance i limits now =
      if deadline ≤ now then { s with phase := .finished true } else s.enter i := by
  simp only [advance, h]

lemma enter_ne_cutOff : (s.enter i).phase ≠ .finished true := by
  rw [enter_eq]
  dsimp only
  split <;> simp

lemma again_ne_cutOff : (s.again i).phase ≠ .finished true := by
  unfold again
  split
  · simp
  · exact enter_ne_cutOff

lemma proceed_ne_cutOff {since : Nat} : (s.proceed i since).phase ≠ .finished true := by
  unfold proceed
  split
  · simp
  · exact again_ne_cutOff

/-- Only a check at or past the deadline cuts a session off, and it does nothing else. -/
lemma checking_of_cutOff (hunfinished : s.isFinished = false)
    (hcut : (s.advance i limits now).phase = .finished true) :
    ∃ deadline, s.phase = .checking deadline ∧ deadline ≤ now ∧
      s.advance i limits now = { s with phase := .finished true } := by
  cases hphase : s.phase with
  | starting =>
      simp only [advance, hphase] at hcut
      exact absurd hcut again_ne_cutOff
  | checking deadline =>
      rw [advance_checking hphase] at hcut ⊢
      by_cases hlate : deadline ≤ now
      · exact ⟨deadline, rfl, hlate, if_pos hlate⟩
      · rw [if_neg hlate] at hcut
        exact absurd hcut enter_ne_cutOff
  | opening =>
      simp only [advance, hphase] at hcut
      exact absurd hcut proceed_ne_cutOff
  | stepping since =>
      simp only [advance, hphase] at hcut
      split at hcut
      · split at hcut
        · exact absurd hcut again_ne_cutOff
        · exact absurd hcut proceed_ne_cutOff
      · exact absurd hcut again_ne_cutOff
  | finished timedOut => simp [isFinished, hphase] at hunfinished

/-- A session goes on after a check only with a program that runs or waits. -/
lemma alive_of_enter (h : (s.enter i).isFinished = false) :
    i.status s.state = .running ∨ i.status s.state = .waiting := by
  rw [enter_eq] at h
  by_cases hwait : i.status s.state = .waiting
  · exact .inr hwait
  · rw [woken, if_neg hwait] at h
    by_cases hrun : i.status s.state = .running
    · exact .inl hrun
    · simp [isFinished, hrun] at h

/-- A halted program ends its session at a check that it passes, as it is. -/
lemma enter_of_halted (h : i.status s.state = .halted) :
    s.enter i = { s with phase := .finished false } := by
  have hwoken : woken i s.state = s.state := by simp [woken, h]
  rw [enter_eq, hwoken, h]
  rfl

/-- One more reading of the clock. -/
lemma run_succ {clock : Nat → Nat} {fuel k : Nat}
    (h : (s.run i limits clock fuel k).isFinished = false) :
    s.run i limits clock (fuel + 1) k =
      (s.run i limits clock fuel k).advance i limits (clock (k + fuel)) := by
  induction fuel generalizing s k with
  | zero =>
      have hfirst : s.isFinished = false := h
      simp [run, hfirst]
  | succ fuel ih =>
      have hfirst : ¬s.isFinished = true := by
        intro hfinished
        rw [run_of_isFinished hfinished, hfinished] at h
        cases h
      have hbegun (n : Nat) : s.run i limits clock (n + 1) k =
          (s.advance i limits (clock k)).run i limits clock n (k + 1) := by rw [run, if_neg hfirst]
      rw [hbegun] at h
      rw [hbegun, hbegun, ih h, Nat.add_right_comm, Nat.add_assoc]

/-- The reading with which a session is over: at all earlier ones it was not. -/
lemma exists_last_reading {clock : Nat → Nat} {fuel k : Nat} (hfirst : s.isFinished = false)
    (hover : (s.run i limits clock fuel k).isFinished = true) :
    ∃ n < fuel, (∀ j ≤ n, (s.run i limits clock j k).isFinished = false) ∧
      s.run i limits clock fuel k =
        (s.run i limits clock n k).advance i limits (clock (k + n)) := by
  induction fuel with
  | zero =>
      rw [run, hfirst] at hover
      cases hover
  | succ fuel ih =>
      cases hlast : (s.run i limits clock fuel k).isFinished with
      | true =>
          obtain ⟨n, hn, hlive, hrun⟩ := ih hlast
          exact ⟨n, by omega, hlive, (run_add hlast 1).trans hrun⟩
      | false =>
          refine ⟨fuel, Nat.lt_succ_self fuel, fun j hj => ?_, run_succ hlast⟩
          by_contra hfinished
          obtain ⟨more, rfl⟩ := Nat.exists_eq_add_of_le hj
          rw [Bool.not_eq_false] at hfinished
          rw [run_add hfinished more, hfinished] at hlast
          cases hlast

end Session

section Run

variable {l : Language π σ} {config : Config} {clock : Clock} {source : String} {seconds : Float}
  {inputs : List Input} {surface : Option Size}

/-- The sessions of a run after more and more readings are those of one session. -/
lemma exists_session_of_ran {fuel : Nat} {session : Session σ}
    (h : run l config clock fuel source seconds inputs surface = .ran session) :
    ∃ limits first, Session.isFinished first = false ∧ ∀ n,
      run l config clock n source seconds inputs surface =
        .ran (Session.run l.toInterpreter limits clock.reading n 0 first) := by
  unfold run at h ⊢
  split at h
  · cases h
  · cases h
  · next limits first hready =>
      refine ⟨limits, first, ?_, fun n => rfl⟩
      unfold prepare at hready
      split at hready
      · cases hready
      · split at hready
        · cases hready
        · obtain ⟨-, rfl⟩ := Start.ready.inj hready
          rfl

/-- Checks compare with the time limit, counted from the first reading. -/
lemma deadline_of_checking {n : Nat} {s : Session σ} {deadline : Nat}
    (h : run l config clock n source seconds inputs surface = .ran s)
    (hphase : s.phase = .checking deadline) :
    ∃ timeout, nanoseconds? seconds = some timeout ∧ deadline = clock.reading 0 + timeout := by
  cases htimeout : nanoseconds? seconds with
  | none => simp [run, prepare, htimeout] at h
  | some timeout =>
      refine ⟨timeout, rfl, ?_⟩
      cases hcompile : l.compile source with
      | error list => simp [run, prepare, htimeout, hcompile] at h
      | ok program =>
          obtain ⟨recorded, rounds, entries, readings, hran, -, hcourse, -⟩ :=
            exists_course config clock n inputs surface htimeout hcompile
          have hforget := forget_run_recording l config clock n source seconds inputs surface
          rw [hran, h] at hforget
          have hsame : recorded.phase = s.phase := congrArg Session.phase (Ending.ran.inj hforget)
          rw [hsame, hphase] at hcourse
          cases hcourse with
          | going hrounds hstands =>
              cases hstands with
              | checking hsome =>
                  simp only [deadlineOf, Option.ite_none_right_eq_some, Option.some.injEq] at hsome
                  exact hsome.2.symm

/-- A run that is cut off ends at a check that reads the deadline or more, and shows what its
program has shown and that it was cut off. At every check before that one the deadline had not
come, and the program was running or waiting. -/
lemma checks_of_cutOff {fuel : Nat} {session : Session σ}
    (h : run l config clock fuel source seconds inputs surface = .ran session)
    (hcut : session.phase = .finished true) :
    ∃ n last deadline, n < fuel ∧
      run l config clock n source seconds inputs surface = .ran last ∧
      last.phase = .checking deadline ∧ deadline ≤ clock.reading n ∧
      session = { last with phase := .finished true } ∧
      ∀ j < n, ∀ s d, run l config clock j source seconds inputs surface = .ran s →
        s.phase = .checking d → clock.reading j < d ∧
          (l.status s.state = .running ∨ l.status s.state = .waiting) := by
  obtain ⟨limits, first, hfirst, hrun⟩ := exists_session_of_ran h
  obtain rfl := Ending.ran.inj ((hrun fuel).symm.trans h)
  have hover : (first.run l.toInterpreter limits clock.reading fuel 0).isFinished = true := by
    rw [Session.isFinished, hcut]
  obtain ⟨n, hn, hlive, hlast⟩ := Session.exists_last_reading hfirst hover
  rw [hlast, Nat.zero_add] at hcut ⊢
  obtain ⟨deadline, hphase, hlate, hsame⟩ :=
    Session.checking_of_cutOff (hlive n (Nat.le_refl n)) hcut
  refine ⟨n, _, deadline, hn, hrun n, hphase, hlate, hsame, ?_⟩
  intro j hj s d hs hd
  obtain rfl := Ending.ran.inj ((hrun j).symm.trans hs)
  have hpasses := hlive (j + 1) (by omega)
  rw [Session.run_succ (hlive j (by omega)), Nat.zero_add, Session.advance_checking hd] at hpasses
  by_cases hearly : d ≤ clock.reading j
  · rw [if_pos hearly] at hpasses
    cases hpasses
  · rw [if_neg hearly] at hpasses
    exact ⟨by omega, Session.alive_of_enter hpasses⟩

/-- A program that has halted at a check before the deadline ends its run there. -/
lemma ran_of_halted {n : Nat} {s : Session σ} {deadline : Nat}
    (h : run l config clock n source seconds inputs surface = .ran s)
    (hphase : s.phase = .checking deadline) (hearly : clock.reading n < deadline)
    (hhalted : l.status s.state = .halted) (more : Nat) :
    run l config clock (n + 1 + more) source seconds inputs surface =
      .ran { s with phase := .finished false } := by
  obtain ⟨limits, first, -, hrun⟩ := exists_session_of_ran h
  obtain rfl := Ending.ran.inj ((hrun n).symm.trans h)
  have hnext : first.run l.toInterpreter limits clock.reading (n + 1) 0 =
      { first.run l.toInterpreter limits clock.reading n 0 with phase := .finished false } := by
    rw [Session.run_succ (by simp [Session.isFinished, hphase]), Nat.zero_add,
      Session.advance_checking hphase, if_neg (by omega), Session.enter_of_halted hhalted]
  rw [hrun, Session.run_add (by rw [hnext]; rfl), hnext]

end Run

/-- What it means that a run was cut off, for every language and every clock. The run ends at a
check whose reading is at or past the deadline, and the list that it returns is what the program
has shown and a timeout. At every check before the last one the deadline had not come, and the
program was running or waiting; so if it is neither at the last check, it has stopped being so
since the check before, in one slice, or with the reset if there was none. A program that has
halted at a check before the deadline is never cut off, and the run returns what it has shown. -/
theorem cut_off_only_past_live_checks (l : Language π σ) (config : Config) (clock : Clock)
    (source : String) (seconds : Float) (inputs : List Input) (surface : Option Size) :
    let after (n : Nat) := run l config clock n source seconds inputs surface
    (∀ fuel session, after fuel = .ran session → session.phase = .finished true →
      ∃ n last timeout, n < fuel ∧ after n = .ran last ∧ nanoseconds? seconds = some timeout ∧
        last.phase = .checking (clock.reading 0 + timeout) ∧
        clock.reading 0 + timeout ≤ clock.reading n ∧ session.state = last.state ∧
        (after fuel).returned? l.toInterpreter = some (l.events last.state ++ [.timeout]) ∧
        ∀ j < n, ∀ s deadline, after j = .ran s → s.phase = .checking deadline →
          clock.reading j < deadline ∧
            (l.status s.state = .running ∨ l.status s.state = .waiting)) ∧
    ∀ n s deadline, after n = .ran s → s.phase = .checking deadline →
      clock.reading n < deadline → l.status s.state = .halted → ∀ more,
        (after (n + 1 + more)).returned? l.toInterpreter = some (l.events s.state) := by
  intro after
  constructor
  · intro fuel session hran hcut
    obtain ⟨n, last, deadline, hn, hlast, hphase, hlate, rfl, hchecks⟩ := checks_of_cutOff hran hcut
    obtain ⟨timeout, htimeout, rfl⟩ := deadline_of_checking hlast hphase
    refine ⟨n, last, timeout, hn, hlast, htimeout, hphase, hlate, rfl, ?_, hchecks⟩
    rw [hran]
    rfl
  · intro n s deadline hran hphase hearly hhalted more
    have hover : after (n + 1 + more) = .ran { s with phase := .finished false } :=
      ran_of_halted hran hphase hearly hhalted more
    rw [hover]
    rfl

def Ending.session? : Ending σ → Option (Session σ)
  | .ran session => some session
  | _ => none

lemma Ending.session?_eq_some {e : Ending σ} {session : Session σ} :
    e.session? = some session ↔ e = .ran session := by
  cases e <;> simp [session?]

def Session.isCutOff (s : Session σ) : Bool :=
  match s.phase with
  | .finished timedOut => timedOut
  | _ => false

lemma Session.phase_of_isCutOff {s : Session σ} (h : s.isCutOff = true) :
    s.phase = .finished true := by
  unfold isCutOff at h
  split at h
  · next timedOut hphase => rw [hphase, h]
  · cases h

/-- A clock that stands still for five readings and then shows a time of three seconds. -/
def lateClock : Clock := ⟨fun k => if k < 5 then 0 else 3000000000, 1000000000000000000⟩

/-- A program that halts at the first instant of three seconds. The clock is read next when they
are over, and the run is reported as cut off, with everything that the program shows in it. -/
theorem halted_program_cut_off :
    Monotone lateClock.reading ∧
      ∃ session,
        run (Logo.language Logo.defaultDepthLimit) .default lateClock 6 "print 1" 3 [] none =
          .ran session ∧
        session.phase = .finished true ∧ session.state.status = .halted ∧
        session.events Logo.interpreter = [.print "1", .timeout] := by
  refine ⟨monotone_nat_of_le_succ fun k => ?_, ?_⟩
  · simp only [lateClock]
    split <;> split <;> omega
  · have hrun : (run (Logo.language Logo.defaultDepthLimit) .default lateClock 6 "print 1" 3
        [] none).session?.map (fun session =>
          (session.state.status, session.events Logo.interpreter, session.isCutOff)) =
        some (.halted, [.print "1", .timeout], true) := by decide +kernel
    obtain ⟨session, hsession, hend⟩ := Option.map_eq_some_iff.mp hrun
    obtain ⟨hstatus, hevents, hcut⟩ := by simpa using hend
    exact ⟨session, Ending.session?_eq_some.mp hsession, Session.phase_of_isCutOff hcut, hstatus,
      hevents⟩

end LogoStudio.Schedule
