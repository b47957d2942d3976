import LogoStudio.Proofs.Schedule.Journal

/-!
# The protocol of a session

A run asks its interpreter for things in a fixed order, whatever the interpreter answers. It
binds the canvas, stops and resets the program, and then goes round and round: it wakes a
waiting program, gives a running one a slice of steps, and queues a timer event unless one is
pending. A round is described by the state it found, the reading of the clock that opened its
slice and the number of its steps; everything it asked for follows from these. The clock is
read once at the start, once for each deadline check, and in a slice once to open it and once
before each step.
-/
namespace LogoStudio.Schedule

variable {π σ : Type}

/-- What is asked for to wake a program: only a waiting one is set running. -/
def wakeEntries (i : Interpreter σ) (m : σ) : List (Entry σ) :=
  if i.status m = .waiting then [.on m (.setStatus .running)] else []

/-- What is asked for after a slice: if no timer is pending, a timer event is queued and its
token, or that there is none, is stored. -/
def timerEntries (i : Interpreter σ) (m : σ) : List (Entry σ) :=
  if (i.timer m).isNone then
    [.on m (.enqueue .timer .null),
      .on (i.enqueue .timer .null m).2 (.setTimer (i.enqueue .timer .null m).1)]
  else []

structure Round (σ : Type) where
  /-- The state in which the round found the program. -/
  found : σ
  /-- The number of the reading that opened the slice. -/
  opened : Nat
  /-- The number of steps in the slice. -/
  steps : Nat

namespace Round

variable (i : Interpreter σ) (limits : Limits) (clock : Nat → Nat) (r : Round σ)

/-- The state after some of the steps. -/
def after (j : Nat) : σ := i.step^[j] (woken i r.found)

/-- The state after all of the steps. -/
def last : σ := r.after i r.steps

/-- The state in which the round leaves the program. -/
def left : σ := timed i (r.last i)

/-- What the round asked for up to its last step. -/
def begun : List (Entry σ) :=
  wakeEntries i r.found ++ (List.range r.steps).map fun j => .on (r.after i j) .step

/-- Everything the round asked for. -/
def entries : List (Entry σ) := r.begun i ++ timerEntries i (r.last i)

/-- Whether the slice can go on: the program runs, and its last step did not yield. -/
def goesOn : Bool := i.status (r.last i) = .running && (r.steps == 0 || !i.yielded (r.last i))

/-- The number of readings up to the end of the round. A slice that can go on has seen a
reading that ended it. -/
def readings : Nat := r.opened + 1 + r.steps + if r.goesOn i then 1 else 0

/-- A slice ends only when it cannot go on or its time is up. -/
def Ends : Prop :=
  r.goesOn i = true → limits.slice ≤ clock (r.opened + 1 + r.steps) - clock r.opened

end Round

section Course

variable (i : Interpreter σ) (limits : Limits) (clock : Nat → Nat)

/-- The deadline of a session, counted from the first reading. -/
def deadlineOf : Option Nat :=
  if clock 0 + limits.timeout ≤ limits.lastInstant then some (clock 0 + limits.timeout) else none

/-- The readings of a deadline check. -/
def checks : Nat := if (deadlineOf limits clock).isSome then 1 else 0

/-- The deadline check with reading number `k` lets the session go on. -/
def Passes (k : Nat) : Prop :=
  ∀ deadline, deadlineOf limits clock = some deadline → clock k < deadline

/-- A round that finds the program in the state `m` after `k` readings, as far as its last
step. Every step is one of a running program, none comes after a step that yielded, and before
each one the slice had time left. -/
structure Round.Begun (m : σ) (k : Nat) (r : Round σ) : Prop where
  found : r.found = m
  passes : Passes limits clock k
  opened : r.opened = k + checks limits clock
  ready : i.status (r.after i 0) = .running
  running : ∀ j < r.steps, i.status (r.after i j) = .running
  unyielding : ∀ j < r.steps, 0 < j → i.yielded (r.after i j) = false
  inTime : ∀ j < r.steps, clock (r.opened + 1 + j) - clock r.opened < limits.slice

/-- Whole rounds one after the other: where they leave the program that was reset to `start`,
and the number of readings up to there. -/
inductive Rounds (start : σ) : List (Round σ) → σ → Nat → Prop where
  | none : Rounds start [] start 1
  | next {rounds : List (Round σ)} {m : σ} {k : Nat} {r : Round σ} :
      Rounds start rounds m k → r.Begun i limits clock m k → r.Ends i limits clock →
      Rounds start (rounds ++ [r]) (r.left i) (r.readings i)

/-- Where a session stands after whole rounds that left the program in the state `m` after `k`
readings: its phase, what it asked for since, the state of the program and the number of
readings. -/
inductive Stands (m : σ) (k : Nat) : Phase → List (Entry σ) → σ → Nat → Prop where
  | checking {deadline : Nat} : deadlineOf limits clock = some deadline →
      Stands m k (.checking deadline) [] m k
  | cutOff {deadline : Nat} : deadlineOf limits clock = some deadline → deadline ≤ clock k →
      Stands m k (.finished true) [] m (k + 1)
  | ended : Passes limits clock k → i.status (woken i m) ≠ .running →
      Stands m k (.finished false) (wakeEntries i m) (woken i m) (k + checks limits clock)
  | opening {r : Round σ} : r.Begun i limits clock m k → r.steps = 0 →
      Stands m k .opening (r.begun i) (r.last i) r.opened
  | stepping {r : Round σ} : r.Begun i limits clock m k → r.goesOn i = true →
      Stands m k (.stepping (clock r.opened)) (r.begun i) (r.last i) (r.opened + 1 + r.steps)

/-- The course of a session from the state `start` of its program: the whole rounds behind it,
its phase, what it asked for in all, the state of the program and the number of readings. -/
inductive Course (start : σ) :
    List (Round σ) → Phase → List (Entry σ) → σ → Nat → Prop where
  | starting : Course start [] .starting [] start 0
  | going {rounds : List (Round σ)} {m state : σ} {k readings : Nat} {phase : Phase}
      {entries : List (Entry σ)} : Rounds i limits clock start rounds m k →
      Stands i limits clock m k phase entries state readings →
      Course start rounds phase (rounds.flatMap (Round.entries i) ++ entries) state readings

end Course

lemma woken_recorder (i : Interpreter σ) (r : Recorded σ) :
    woken (recorder i) r = ⟨woken i r.state, r.journal ++ wakeEntries i r.state⟩ := by
  by_cases hwait : i.status r.state = .waiting
  · simp [woken, wakeEntries, hwait, recorder, Recorded.ask, Call.apply]
  · simp [woken, wakeEntries, hwait, recorder]

lemma timed_recorder (i : Interpreter σ) (r : Recorded σ) :
    timed (recorder i) r = ⟨timed i r.state, r.journal ++ timerEntries i r.state⟩ := by
  by_cases htimer : (i.timer r.state).isNone = true
  · simp only [timed, timerEntries, htimer, recorder, Recorded.ask, Call.apply, if_true,
      List.append_assoc, List.singleton_append]
  · simp [timed, timerEntries, htimer, recorder]

section Session

variable {i : Interpreter σ} {limits : Limits} {clock : Nat → Nat} {start : σ}
  {before : List (Entry σ)}

/-- A session went some course after it asked for `before`. -/
def Session.Went (i : Interpreter σ) (limits : Limits) (clock : Nat → Nat) (start : σ)
    (before : List (Entry σ)) (readings : Nat) (s : Session (Recorded σ)) : Prop :=
  (s.phase = .starting ∨ s.deadline = deadlineOf limits clock) ∧
    ∃ rounds entries, Course i limits clock start rounds s.phase entries s.state.state readings ∧
      s.state.journal = before ++ entries

section Steps

variable {rounds : List (Round σ)} {m : σ} {k : Nat} {r : Round σ} {s : Session (Recorded σ)}

lemma Round.begun_succ (r : Round σ) :
    Round.begun i { r with steps := r.steps + 1 } = r.begun i ++ [.on (r.last i) .step] := by
  simp [Round.begun, List.range_succ, Round.after, Round.last]

lemma Round.last_succ (r : Round σ) :
    Round.last i { r with steps := r.steps + 1 } = i.step (r.last i) :=
  Function.iterate_succ_apply' _ _ _

lemma Round.Begun.step (h : r.Begun i limits clock m k) (hgoes : r.goesOn i = true)
    (htime : clock (r.opened + 1 + r.steps) - clock r.opened < limits.slice) :
    Round.Begun i limits clock m k { r with steps := r.steps + 1 } := by
  simp only [Round.goesOn, Bool.and_eq_true, decide_eq_true_eq, Bool.or_eq_true, beq_iff_eq,
    Bool.not_eq_true'] at hgoes
  obtain ⟨hrunning, hyielded⟩ := hgoes
  refine ⟨h.found, h.passes, h.opened, h.ready, ?_, ?_, ?_⟩
  · intro j hj
    obtain hj | rfl := Nat.lt_succ_iff_lt_or_eq.mp hj
    · exact h.running j hj
    · exact hrunning
  · intro j hj hpos
    obtain hj | rfl := Nat.lt_succ_iff_lt_or_eq.mp hj
    · exact h.unyielding j hj hpos
    · exact hyielded.resolve_left (Nat.pos_iff_ne_zero.mp hpos)
  · intro j hj
    obtain hj | rfl := Nat.lt_succ_iff_lt_or_eq.mp hj
    · exact h.inTime j hj
    · exact htime

/-- Past the deadline check a session opens a slice or ends. -/
lemma went_enter (hrounds : Rounds i limits clock start rounds m k)
    (hpasses : Passes limits clock k) (hdeadline : s.deadline = deadlineOf limits clock)
    (hstate : s.state = ⟨m, before ++ rounds.flatMap (Round.entries i)⟩) :
    (s.enter (recorder i)).Went i limits clock start before (k + checks limits clock) := by
  simp only [Session.enter_eq, woken_recorder, hstate, status_recorder]
  refine ⟨.inr hdeadline, rounds, rounds.flatMap (Round.entries i) ++ wakeEntries i m, ?_, by simp⟩
  refine .going hrounds ?_
  by_cases hrunning : i.status (woken i m) = .running
  · rw [if_pos hrunning]
    let r : Round σ := ⟨m, k + checks limits clock, 0⟩
    have hbegun : r.Begun i limits clock m k :=
      ⟨rfl, hpasses, rfl, hrunning, by simp [r], by simp [r], by simp [r]⟩
    have hentries : r.begun i = wakeEntries i m := by simp [Round.begun, r]
    rw [← hentries]
    exact .opening hbegun rfl
  · rw [if_neg hrunning]
    exact .ended hpasses hrunning

lemma went_again (hrounds : Rounds i limits clock start rounds m k)
    (hdeadline : s.deadline = deadlineOf limits clock)
    (hstate : s.state = ⟨m, before ++ rounds.flatMap (Round.entries i)⟩) :
    (s.again (recorder i)).Went i limits clock start before k := by
  unfold Session.again
  split
  · next deadline hsome =>
      refine ⟨.inr hdeadline, rounds, rounds.flatMap (Round.entries i) ++ [], ?_, ?_⟩
      · rw [hstate]
        exact .going hrounds (.checking (hdeadline.symm.trans hsome))
      · simp [hstate]
  · next hnone =>
      have hdeadlineOf : deadlineOf limits clock = none := hdeadline.symm.trans hnone
      have hpasses : Passes limits clock k := by simp [Passes, hdeadlineOf]
      simpa [checks, hdeadlineOf] using went_enter hrounds hpasses hdeadline hstate

/-- After a slice a round is whole. -/
lemma went_close (hrounds : Rounds i limits clock start rounds m k)
    (hbegun : r.Begun i limits clock m k) (hends : r.Ends i limits clock)
    (hdeadline : s.deadline = deadlineOf limits clock)
    (hstate : s.state = ⟨r.last i, before ++ rounds.flatMap (Round.entries i) ++ r.begun i⟩) :
    (s.close (recorder i)).Went i limits clock start before (r.readings i) := by
  rw [Session.close_eq, timed_recorder, hstate]
  refine went_again (hrounds.next hbegun hends) hdeadline ?_
  simp [Round.left, Round.entries]

lemma went_proceed (hrounds : Rounds i limits clock start rounds m k)
    (hbegun : r.Begun i limits clock m k)
    (hyielded : r.steps = 0 ∨ i.yielded (r.last i) = false)
    (hdeadline : s.deadline = deadlineOf limits clock)
    (hstate : s.state = ⟨r.last i, before ++ rounds.flatMap (Round.entries i) ++ r.begun i⟩) :
    (s.proceed (recorder i) (clock r.opened)).Went i limits clock start before
      (r.opened + 1 + r.steps) := by
  have hgoes : r.goesOn i = decide (i.status (r.last i) = .running) := by
    obtain hzero | hfalse := hyielded
    · simp [Round.goesOn, hzero]
    · simp [Round.goesOn, hfalse]
  have hstatus : (recorder i).status s.state = i.status (r.last i) := by simp [hstate]
  unfold Session.proceed
  rw [hstatus]
  split
  · next hrunning =>
      refine ⟨.inr hdeadline, rounds, rounds.flatMap (Round.entries i) ++ r.begun i, ?_, ?_⟩
      · rw [hstate]
        exact .going hrounds (.stepping hbegun (by simp [hgoes, hrunning]))
      · simp [hstate]
  · next hrunning =>
      have hstops : r.goesOn i = false := by simp [hgoes, hrunning]
      have hreadings : r.readings i = r.opened + 1 + r.steps := by simp [Round.readings, hstops]
      rw [← hreadings]
      exact went_close hrounds hbegun (by simp [Round.Ends, hstops]) hdeadline hstate

end Steps

/-- One reading of the clock. -/
lemma Session.Went.advance {s : Session (Recorded σ)} {k : Nat}
    (h : s.Went i limits clock start before k) (hfinished : s.isFinished = false) :
    (s.advance (recorder i) limits (clock k)).Went i limits clock start before (k + 1) := by
  obtain ⟨hdeadline, rounds, entries, hcourse, hjournal⟩ := h
  obtain ⟨⟨state, journal⟩, deadline, phase⟩ := s
  dsimp only at hdeadline hcourse hjournal
  cases hcourse with
  | starting =>
      refine went_again .none rfl ?_
      simp [hjournal]
  | going hrounds hstands =>
      cases hstands with
      | checking hsome =>
          simp only [reduceCtorEq, false_or] at hdeadline
          simp only [Session.advance]
          split
          · next hover =>
              exact ⟨.inr hdeadline, _, _, .going hrounds (.cutOff hsome hover), hjournal⟩
          · next hover =>
              have hpasses : Passes limits clock k := by
                intro other hother
                have := Option.some.inj (hsome.symm.trans hother)
                omega
              have hone : checks limits clock = 1 := by simp [checks, hsome]
              rw [← hone]
              refine went_enter hrounds hpasses hdeadline ?_
              simp [hjournal]
      | cutOff => simp [Session.isFinished] at hfinished
      | ended => simp [Session.isFinished] at hfinished
      | @opening r hbegun hzero =>
          simp only [reduceCtorEq, false_or] at hdeadline
          have hreadings : r.opened + 1 = r.opened + 1 + r.steps := by omega
          rw [hreadings]
          exact went_proceed hrounds hbegun (.inl hzero) hdeadline (by simp [hjournal])
      | @stepping r hbegun hgoes =>
          simp only [reduceCtorEq, false_or] at hdeadline
          simp only [Session.advance]
          split
          · next htime =>
              let r' : Round σ := { r with steps := r.steps + 1 }
              have hbegun' : r'.Begun i limits clock _ _ := hbegun.step hgoes htime
              have hlast : r'.last i = i.step (r.last i) := r.last_succ
              have hstate : Recorded.ask i .step ⟨r.last i, journal⟩ =
                  ⟨r'.last i, before ++ rounds.flatMap (Round.entries i) ++ r'.begun i⟩ := by
                simp [Recorded.ask, Call.apply, hlast, r', Round.begun_succ, hjournal]
              simp only [step_recorder, yielded_recorder, hstate]
              split
              · next hyielded =>
                  have hstops : r'.goesOn i = false := by simp [Round.goesOn, hyielded, r']
                  have hreadings : r.opened + 1 + r.steps + 1 = r'.readings i := by
                    simp [Round.readings, hstops, r']
                    omega
                  rw [hreadings]
                  exact went_close hrounds hbegun' (by simp [Round.Ends, hstops]) hdeadline rfl
              · next hyielded =>
                  exact went_proceed hrounds hbegun' (.inr (by simpa using hyielded)) hdeadline rfl
          · next htime =>
              have hreadings : r.opened + 1 + r.steps + 1 = r.readings i := by
                simp [Round.readings, hgoes]
              rw [hreadings]
              refine went_close hrounds hbegun (fun _ => by omega) hdeadline ?_
              simp [hjournal]

/-- All the readings of the clock: a session that is not over has made as many as it was
allowed to. -/
lemma Session.Went.run {s : Session (Recorded σ)} {k : Nat}
    (h : s.Went i limits clock start before k) (fuel : Nat) :
    ∃ readings, (s.run (recorder i) limits clock fuel k).Went i limits clock start before readings ∧
      ((s.run (recorder i) limits clock fuel k).isFinished = false → readings = k + fuel) := by
  induction fuel generalizing k s with
  | zero => exact ⟨k, h, fun _ => rfl⟩
  | succ fuel ih =>
      unfold Session.run
      split
      · next hfinished => exact ⟨k, h, by simp [hfinished]⟩
      · next hfinished =>
          obtain ⟨readings, hwent, hreadings⟩ := ih (h.advance (by simpa using hfinished))
          refine ⟨readings, hwent, fun hunfinished => ?_⟩
          rw [hreadings hunfinished]
          omega

end Session

lemma Session.run_of_isFinished {i : Interpreter σ} {limits : Limits} {clock : Nat → Nat}
    {s : Session σ} (h : s.isFinished = true) (fuel k : Nat) : s.run i limits clock fuel k = s := by
  cases fuel with
  | zero => rfl
  | succ fuel => simp [Session.run, h]

/-- A session that is over stays as it is, however many more readings it is allowed. -/
lemma Session.run_add {i : Interpreter σ} {limits : Limits} {clock : Nat → Nat} {s : Session σ}
    {fuel k : Nat} (h : (s.run i limits clock fuel k).isFinished = true) (more : Nat) :
    s.run i limits clock (fuel + more) k = s.run i limits clock fuel k := by
  induction fuel generalizing s k with
  | zero => exact Session.run_of_isFinished h _ _
  | succ fuel ih =>
      rw [Nat.succ_add_eq_add_succ, Nat.add_succ]
      unfold Session.run at h ⊢
      split
      · rfl
      · next hfinished =>
          rw [if_neg hfinished] at h
          exact ih h

section Replays

variable {i : Interpreter σ} {limits : Limits} {clock : Nat → Nat}

lemma replays_wakeEntries (m : σ) : Replays i m (wakeEntries i m) (woken i m) := by
  by_cases hwait : i.status m = .waiting
  · simp [Replays, wakeEntries, woken, hwait, Call.apply]
  · simp [Replays, wakeEntries, woken, hwait]

lemma replays_timerEntries (m : σ) : Replays i m (timerEntries i m) (timed i m) := by
  by_cases htimer : (i.timer m).isNone = true
  · simp [Replays, timerEntries, timed, htimer, Call.apply]
  · simp [Replays, timerEntries, timed, htimer]

lemma Round.replays_begun (r : Round σ) : Replays i r.found (r.begun i) (r.last i) := by
  obtain ⟨found, opened, steps⟩ := r
  induction steps with
  | zero =>
      simp only [Round.begun, List.range_zero, List.map_nil, List.append_nil]
      exact replays_wakeEntries found
  | succ steps ih =>
      have hbegun := Round.begun_succ (i := i) ⟨found, opened, steps⟩
      have hlast := Round.last_succ (i := i) ⟨found, opened, steps⟩
      dsimp only at hbegun hlast
      rw [hbegun, hlast]
      exact replays_append.mpr ⟨_, ih, rfl, rfl⟩

lemma Rounds.replays {start m : σ} {k : Nat} {rounds : List (Round σ)}
    (h : Rounds i limits clock start rounds m k) :
    Replays i start (rounds.flatMap (Round.entries i)) m := by
  induction h with
  | none => rfl
  | @next rounds m k r hrounds hbegun hends ih =>
      rw [List.flatMap_append, List.flatMap_singleton, Round.entries]
      refine replays_append.mpr ⟨m, ih, replays_append.mpr ⟨r.last i, ?_, ?_⟩⟩
      · rw [← hbegun.found]
        exact r.replays_begun
      · exact replays_timerEntries _

/-- The calls of a session lead from the state after the reset to the present one. -/
lemma Course.replays {start state : σ} {rounds : List (Round σ)} {phase : Phase}
    {entries : List (Entry σ)} {readings : Nat}
    (h : Course i limits clock start rounds phase entries state readings) :
    Replays i start entries state := by
  cases h with
  | starting => rfl
  | @going _ m _ _ _ _ _ hrounds hstands =>
      refine replays_append.mpr ⟨m, hrounds.replays, ?_⟩
      cases hstands with
      | checking => rfl
      | cutOff => rfl
      | ended => exact replays_wakeEntries m
      | @opening r hbegun =>
          rw [← hbegun.found]
          exact r.replays_begun
      | @stepping r hbegun =>
          rw [← hbegun.found]
          exact r.replays_begun

end Replays

/-- When a session may ask for something after the reset. -/
def Entry.Allowed (i : Interpreter σ) : Entry σ → Prop
  | .on m (.setStatus status) => status = .running ∧ i.status m = .waiting
  | .on m .step => i.status m = .running
  | .on m (.enqueue e payload) => e = .timer ∧ payload = .null ∧ i.timer m = none
  | .on m (.setTimer token) =>
      ∃ m', i.timer m' = none ∧ i.enqueue .timer .null m' = (token, m)
  | _ => False

section Allowed

variable {i : Interpreter σ} {limits : Limits} {clock : Nat → Nat} {m : σ} {k : Nat} {e : Entry σ}

lemma allowed_of_mem_wakeEntries (h : e ∈ wakeEntries i m) : e.Allowed i := by
  unfold wakeEntries at h
  split at h
  · next hwait =>
      obtain rfl := List.mem_singleton.mp h
      exact ⟨rfl, hwait⟩
  · cases h

lemma allowed_of_mem_timerEntries (h : e ∈ timerEntries i m) : e.Allowed i := by
  unfold timerEntries at h
  split at h
  · next htimer =>
      have hnone : i.timer m = none := Option.isNone_iff_eq_none.mp htimer
      simp only [List.mem_cons, List.not_mem_nil, or_false] at h
      obtain rfl | rfl := h
      · exact ⟨rfl, rfl, hnone⟩
      · exact ⟨m, hnone, rfl⟩
  · cases h

lemma Round.Begun.allowed {r : Round σ} (hbegun : r.Begun i limits clock m k)
    (h : e ∈ r.begun i) : e.Allowed i := by
  obtain h | h := List.mem_append.mp h
  · exact allowed_of_mem_wakeEntries h
  · obtain ⟨j, hj, rfl⟩ := List.mem_map.mp h
    exact hbegun.running j (List.mem_range.mp hj)

lemma Rounds.allowed {start : σ} {rounds : List (Round σ)}
    (hrounds : Rounds i limits clock start rounds m k)
    (h : e ∈ rounds.flatMap (Round.entries i)) : e.Allowed i := by
  induction hrounds with
  | none => cases h
  | next hrounds hbegun hends ih =>
      rw [List.flatMap_append, List.mem_append] at h
      obtain h | h := h
      · exact ih h
      · rw [List.flatMap_singleton] at h
        obtain h | h := List.mem_append.mp h
        · exact hbegun.allowed h
        · exact allowed_of_mem_timerEntries h

lemma Course.allowed {start state : σ} {rounds : List (Round σ)} {phase : Phase}
    {entries : List (Entry σ)} {readings : Nat}
    (hcourse : Course i limits clock start rounds phase entries state readings)
    (h : e ∈ entries) : e.Allowed i := by
  cases hcourse with
  | starting => cases h
  | going hrounds hstands =>
      obtain h | h := List.mem_append.mp h
      · exact hrounds.allowed h
      · cases hstands with
        | checking => cases h
        | cutOff => cases h
        | ended => exact allowed_of_mem_wakeEntries h
        | opening hbegun => exact hbegun.allowed h
        | stepping hbegun => exact hbegun.allowed h

end Allowed

/-- The state with the canvas bound, if there is a surface. -/
def bound (i : Interpreter σ) (surface : Option Size) (m : σ) : σ :=
  surface.elim m fun size => i.bindCanvas size m

/-- What is asked for before the first round of a program that starts in the state `m`. -/
def openingEntries (i : Interpreter σ) (surface : Option Size) (m : σ) : List (Entry σ) :=
  (surface.toList.map fun size => .on m (.bindCanvas size)) ++
    [.on (bound i surface m) .stop, .on (i.stop (bound i surface m)) .reset]

/-- The state of the program after the reset. -/
def restarted (i : Interpreter σ) (surface : Option Size) (m : σ) : σ :=
  i.reset (i.stop (bound i surface m))

lemma run_recording_of_compile {l : Language π σ} {source : String} {seconds : Float}
    {timeout : Nat} {program : π} (config : Config) (clock : Clock) (fuel : Nat)
    (inputs : List Input) (surface : Option Size) (htimeout : nanoseconds? seconds = some timeout)
    (hcompile : l.compile source = .ok program) :
    run (recording l) config clock fuel source seconds inputs surface =
      .ran (Session.run (recorder l.toInterpreter) ⟨config.slice, timeout, clock.lastInstant⟩
        clock.reading fuel 0 (.new
          ⟨restarted l.toInterpreter surface (l.instantiate program inputs),
            [.compile source, .instantiate inputs] ++
              openingEntries l.toInterpreter surface (l.instantiate program inputs)⟩)) := by
  cases surface <;> simp [run, prepare, htimeout, hcompile, recording, recorder, Recorded.ask,
    Call.apply, Except.map, restarted, bound, openingEntries]

/-- Only a session that was cut off adds an event to what the program has shown. -/
lemma events_recorder (i : Interpreter σ) (s : Session (Recorded σ)) :
    s.events (recorder i) = i.events s.state.state ++
      (match s.phase with | .finished true => [.timeout] | _ => []) := by
  obtain ⟨r, deadline, phase⟩ := s
  rcases phase with _ | _ | _ | _ | _ | _ <;> simp [Session.events, recorder]

/-- A compiled program runs, and its session goes some course. -/
lemma exists_course {l : Language π σ} {source : String} {seconds : Float} {timeout : Nat}
    {program : π} (config : Config) (clock : Clock) (fuel : Nat) (inputs : List Input)
    (surface : Option Size) (htimeout : nanoseconds? seconds = some timeout)
    (hcompile : l.compile source = .ok program) :
    let start := l.instantiate program inputs
    let limits : Limits := ⟨config.slice, timeout, clock.lastInstant⟩
    ∃ session rounds entries readings,
      run (recording l) config clock fuel source seconds inputs surface = .ran session ∧
      session.state.journal = [.compile source, .instantiate inputs] ++
        openingEntries l.toInterpreter surface start ++ entries ∧
      Course l.toInterpreter limits clock.reading (restarted l.toInterpreter surface start) rounds
        session.phase entries session.state.state readings ∧
      (session.isFinished = false → readings = fuel) := by
  intro start limits
  let before := [.compile source, .instantiate inputs] ++
    openingEntries l.toInterpreter surface start
  let first : Session (Recorded σ) := .new ⟨restarted l.toInterpreter surface start, before⟩
  have hfirst : first.Went l.toInterpreter limits clock.reading
      (restarted l.toInterpreter surface start) before 0 :=
    ⟨.inl rfl, [], [], .starting, by simp [first, Session.new]⟩
  obtain ⟨readings, ⟨-, rounds, entries, hcourse, hjournal⟩, hreadings⟩ := hfirst.run fuel
  refine ⟨_, rounds, entries, readings, ?_, hjournal, hcourse, ?_⟩
  · exact run_recording_of_compile config clock fuel inputs surface htimeout hcompile
  · exact fun hunfinished => (hreadings hunfinished).trans (Nat.zero_add fuel)

/-- Once the session is over, more readings change nothing. -/
lemma run_recording_add {l : Language π σ} {config : Config} {clock : Clock} {fuel : Nat}
    {source : String} {seconds : Float} {inputs : List Input} {surface : Option Size}
    {session : Session (Recorded σ)}
    (h : run (recording l) config clock fuel source seconds inputs surface = .ran session)
    (hfinished : session.isFinished = true) (more : Nat) :
    run (recording l) config clock (fuel + more) source seconds inputs surface = .ran session := by
  unfold run at h ⊢
  split at h
  · cases h
  · cases h
  · obtain rfl := Ending.ran.inj h
    exact congrArg Ending.ran (Session.run_add hfinished more)

/-- Every run of every language keeps the protocol. A bad time limit asks for nothing, and a
source that does not compile for nothing more, and shows one event for each diagnostic. Any
other run asks for a program, binds the canvas if there is a surface, stops, resets, and then
goes its course of rounds, in which single calls are made only where they are allowed; once it
is over it asks for nothing, and only a run that was cut off at its deadline shows that it was.
The journal is that of the run itself. -/
theorem run_keeps_protocol (l : Language π σ) (config : Config) (clock : Clock) (fuel : Nat)
    (source : String) (seconds : Float) (inputs : List Input) (surface : Option Size) :
    let ending := run (recording l) config clock fuel source seconds inputs surface
    ending.forget = run l config clock fuel source seconds inputs surface ∧
      match nanoseconds? seconds, l.compile source with
      | none, _ => ending = .badTimeout ∧ ending.journal source = []
      | some _, .error list => ending.journal source = [.compile source] ∧
          ending.events? (recorder l.toInterpreter) = some (list.map Diagnostic.event)
      | some timeout, .ok program =>
          let start := l.instantiate program inputs
          let limits : Limits := ⟨config.slice, timeout, clock.lastInstant⟩
          ∃ session rounds entries readings, ending = .ran session ∧
            ending.journal source = [.compile source, .instantiate inputs] ++
              openingEntries l.toInterpreter surface start ++ entries ∧
            Course l.toInterpreter limits clock.reading
              (restarted l.toInterpreter surface start) rounds session.phase entries
              session.state.state readings ∧
            (∀ e ∈ entries, e.Allowed l.toInterpreter) ∧
            (session.isFinished = false → readings = fuel) ∧
            (session.isFinished = true → ∀ more, run (recording l) config clock (fuel + more) source
              seconds inputs surface = ending) ∧
            session.events (recorder l.toInterpreter) = l.events session.state.state ++
              (match session.phase with | .finished true => [.timeout] | _ => []) := by
  intro ending
  refine ⟨forget_run_recording l config clock fuel source seconds inputs surface, ?_⟩
  cases htimeout : nanoseconds? seconds with
  | none =>
      have hending : ending = .badTimeout := by simp [ending, run, prepare, htimeout]
      simp [hending, Ending.journal]
  | some timeout =>
      cases hcompile : l.compile source with
      | error list =>
          have hending : ending = .diagnostics list := by
            simp [ending, run, prepare, htimeout, recording, hcompile, Except.map]
          simp [hending, Ending.journal, Ending.events?]
      | ok program =>
          obtain ⟨session, rounds, entries, readings, hran, hjournal, hcourse, hreadings⟩ :=
            exists_course config clock fuel inputs surface htimeout hcompile
          have hending : ending = .ran session := hran
          refine ⟨session, rounds, entries, readings, hran, ?_, hcourse, ?_, hreadings, ?_, ?_⟩
          · rw [hending]
            exact hjournal
          · exact fun e he => hcourse.allowed he
          · intro hfinished more
            rw [hending]
            exact run_recording_add hran hfinished more
          · exact events_recorder l.toInterpreter session

end LogoStudio.Schedule
