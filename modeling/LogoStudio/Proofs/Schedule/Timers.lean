import LogoStudio.Proofs.Logo.Refinement
import LogoStudio.Proofs.Schedule.Protocol

/-!
# Timers are neither doubled nor lost

A session and its machine share a queue, the token of the pending timer, a flag that the
program waits for a timer, and the status. The session queues a timer event after a slice, the
machine takes it out again, and both keep the token in step with the queue: a timer event is
queued exactly while one is pending. A program that waits has given up its slice, so the
session queues a timer event for it before it runs again. Hence the machine never finds itself
waiting with nothing in its queue, and what releases it was queued after it began to wait.
-/
namespace LogoStudio.Logo.Machine

/-- An instruction sets the program waiting only by suspending it, and does not release it. -/
lemma Does.waiting {m m' : Machine} {instr : Instr} (h : m.Does instr m') :
    m'.waiting = m.waiting ∨ m'.status = .waiting := by
  cases instr with
  | primitive p args =>
      obtain ⟨next, ⟨turtle, new, -, rfl⟩ | ⟨-, rfl⟩, rfl⟩ := h
      · exact .inl rfl
      · exact .inr rfl
  | make name value =>
      obtain ⟨x, rfl⟩ := h
      exact .inl rfl
  | call proc args =>
      obtain ⟨-, h⟩ := h
      split at h
      · obtain ⟨vars, rfl⟩ := h
        exact .inl rfl
      · subst h
        exact .inl rfl
  | ret =>
      subst h
      unfold leave
      split <;> exact .inl rfl
  | jumpUnless cond target => obtain rfl | rfl := h <;> exact .inl rfl
  | loopStart count exit =>
      obtain rfl | ⟨n, rfl⟩ := h
      · exact .inl rfl
      · unfold withLoops
        split <;> exact .inl rfl
  | loopNext body =>
      subst h
      unfold nextTurn withLoops
      repeat' split
      all_goals exact .inl rfl
  | halt =>
      subst h
      exact .inl rfl

lemma waiting_advance (m : Machine) :
    m.advance.waiting = m.waiting ∨ m.advance.status = .waiting := by
  rw [advance_eq]
  split
  · exact .inl rfl
  · split
    · next next answers hok => exact (execute_eq_ok hok).waiting
    · exact .inl rfl

/-- No step puts anything into the queue. -/
lemma queue_step_subset (m : Machine) : m.step.queue ⊆ m.queue := by
  by_cases hrun : m.status = .running
  · obtain ⟨token, e, rest, hqueue, hstep⟩ | ⟨-, -, hstep⟩ | ⟨-, -, hstep⟩ := step_cases hrun
    · rw [hstep, hqueue]
      cases e <;> exact List.subset_cons_self _ _
    · rw [hstep]
      exact List.Subset.refl _
    · rw [hstep, (kept_advance _).queue]
      exact List.Subset.refl _
  · rw [step_of_not_running hrun]
    exact List.Subset.refl _

/-- A step that sets a program waiting executes an instruction. -/
lemma queue_eq_nil_of_suspends {m : Machine} (hrun : m.status = .running)
    (hbefore : m.waiting = false) (hafter : m.step.waiting = true) : m.queue = [] := by
  obtain ⟨token, e, rest, -, hstep⟩ | ⟨hqueue, -⟩ | ⟨hqueue, -⟩ := step_cases hrun
  · rw [hstep] at hafter
    cases e with
    | timer => cases hafter
    | interaction i =>
        rw [show m.waiting = true from hafter] at hbefore
        cases hbefore
  · exact hqueue
  · exact hqueue

/-- A step that releases a program handles a timer event. -/
lemma queue_of_releases {m : Machine} (hrun : m.status = .running) (hbefore : m.waiting = true)
    (hafter : m.step.waiting = false) : ∃ token rest, m.queue = (token, .timer) :: rest := by
  obtain ⟨token, e, rest, hqueue, hstep⟩ | ⟨-, -, hstep⟩ | ⟨-, hwait, -⟩ := step_cases hrun
  · cases e with
    | timer => exact ⟨token, rest, hqueue⟩
    | interaction i =>
        rw [hstep, show Machine.waiting _ = m.waiting from rfl, hbefore] at hafter
        cases hafter
  · rw [hstep, show Machine.waiting _ = m.waiting from rfl, hbefore] at hafter
    cases hafter
  · rw [hbefore] at hwait
    cases hwait

/-- Timers agree, and a program that waits has a timer pending. -/
structure Held (m : Machine) : Prop where
  agree : m.TimersAgree
  pending : m.waiting = true → m.timer.isSome

/-- Timers agree, and a running program that waits has a timer pending. -/
structure Ready (m : Machine) : Prop where
  agree : m.TimersAgree
  pending : m.status = .running → m.waiting = true → m.timer.isSome

lemma Held.ready {m : Machine} (h : m.Held) : m.Ready := ⟨h.agree, fun _ => h.pending⟩

lemma Ready.step {m : Machine} (h : m.Ready) : m.step.Ready := by
  refine ⟨h.agree.step, ?_⟩
  intro hrun' hwait'
  by_cases hrun : m.status = .running
  · obtain ⟨token, e, rest, hqueue, hstep⟩ | ⟨-, -, hstep⟩ | ⟨hqueue, hwait, hstep⟩ :=
      step_cases hrun
    · rw [hstep] at hwait' ⊢
      cases e with
      | timer => cases hwait'
      | interaction i => exact h.pending hrun hwait'
    · rw [hstep] at hrun'
      cases hrun'
    · rw [hstep] at hrun' hwait'
      obtain hsame | hsuspended := waiting_advance { m with yielded := false }
      · rw [hsame, hwait] at hwait'
        cases hwait'
      · rw [hsuspended] at hrun'
        cases hrun'
  · rw [step_of_not_running hrun] at hrun'
    exact absurd hrun' hrun

lemma Ready.iterate_step {m : Machine} (h : m.Ready) (n : Nat) : (Machine.step^[n] m).Ready := by
  induction n with
  | zero => exact h
  | succ n ih =>
      rw [Function.iterate_succ_apply']
      exact ih.step

/-- A timer event in the queue, found by its token. -/
lemma mem_timersIn {queue : List (Nat × HostEvent)} {token : Nat} :
    token ∈ timersIn queue ↔ (token, .timer) ∈ queue := by
  fun_induction timersIn queue with
  | case1 => simp
  | case2 first rest ih => simp [ih]
  | case3 first i rest ih => simp [ih]

/-- A ready machine that handles no event has no timer pending and executes an instruction. -/
lemma Ready.executes {m : Machine} (h : m.Ready) (hrun : m.status = .running)
    (hqueue : m.queue = []) :
    m.timer = none ∧ m.step = { m with yielded := false }.advance := by
  have hnone : m.timer = none := by
    have hagree := h.agree
    rw [TimersAgree, hqueue] at hagree
    exact Option.toList_eq_nil_iff.mp hagree.symm
  obtain ⟨token, e, rest, hcons, -⟩ | ⟨-, hwait, -⟩ | ⟨-, -, hstep⟩ := step_cases hrun
  · rw [hqueue] at hcons
    cases hcons
  · have hsome := h.pending hrun hwait
    rw [hnone] at hsome
    cases hsome
  · exact ⟨hnone, hstep⟩

end LogoStudio.Logo.Machine

namespace LogoStudio.Schedule

open Logo Logo.Machine

lemma held_woken {m : Machine} (h : m.Held) : (woken interpreter m).Held := by
  unfold woken
  split
  · exact ⟨h.agree.of_eq rfl rfl, h.pending⟩
  · exact h

/-- After a slice exactly one timer event is queued, with the token of the pending timer. -/
lemma timersIn_timed {m : Machine} (h : m.TimersAgree) :
    ∃ token, timersIn (timed interpreter m).queue = [token] ∧
      (timed interpreter m).timer = some token := by
  unfold timed
  split
  · next htimer =>
      have hnone : m.timer = none := Option.isNone_iff_eq_none.mp htimer
      refine ⟨m.issued + 1, ?_, rfl⟩
      change timersIn (m.queue ++ [(m.issued + 1, .timer)]) = [m.issued + 1]
      rw [timersIn_append_timer, show timersIn m.queue = m.timer.toList from h, hnone]
      rfl
  · next htimer =>
      obtain ⟨token, hsome⟩ := Option.ne_none_iff_exists'.mp
        (fun hnone => htimer (Option.isNone_iff_eq_none.mpr hnone))
      have hsome : m.timer = some token := hsome
      refine ⟨token, ?_, hsome⟩
      rw [show timersIn m.queue = m.timer.toList from h, hsome]
      rfl

lemma held_timed {m : Machine} (h : m.TimersAgree) : (timed interpreter m).Held := by
  obtain ⟨token, hqueue, htimer⟩ := timersIn_timed h
  refine ⟨?_, fun _ => by simp [htimer]⟩
  rw [TimersAgree, hqueue, htimer]
  rfl

lemma waiting_refill (inputs : List Input) (m : Machine) :
    (m.refill inputs).waiting = m.waiting := by
  induction inputs generalizing m with
  | nil => rfl
  | cons input rest ih => cases input <;> simp [refill, ih, enqueue]

lemma held_reset (m : Machine) : m.reset.Held := by
  constructor
  · apply TimersAgree.refill
    rfl
  · intro hwait
    rw [reset, waiting_refill] at hwait
    cases hwait

section Round

variable {limits : Limits} {clock : Nat → Nat} {start m : Machine} {k : Nat}
  {r : Round Machine} {rounds : List (Round Machine)}

lemma Round.ready_after (h : r.found.Held) (j : Nat) : (r.after interpreter j).Ready :=
  (held_woken h).ready.iterate_step j

/-- The session stores a token; it is the second half of queueing a timer event. -/
def Call.storesToken : Call → Bool
  | .setTimer _ => true
  | _ => false

lemma ready_of_mem_wakeEntries {call : Call} {asked : Machine} (h : m.Held)
    (hmem : .on asked call ∈ wakeEntries interpreter m) : asked.Ready := by
  unfold wakeEntries at hmem
  split at hmem
  · simp only [List.mem_singleton, Entry.on.injEq] at hmem
    rw [hmem.1]
    exact h.ready
  · cases hmem

lemma Round.ready_of_mem_begun {call : Call} {asked : Machine} (h : r.found.Held)
    (hmem : .on asked call ∈ r.begun interpreter) : asked.Ready := by
  obtain hmem | hmem := List.mem_append.mp hmem
  · exact ready_of_mem_wakeEntries h hmem
  · obtain ⟨j, -, hj⟩ := List.mem_map.mp hmem
    obtain ⟨rfl, -⟩ := Entry.on.inj hj
    exact Round.ready_after h j

lemma Round.ready_of_mem_entries {call : Call} {asked : Machine} (h : r.found.Held)
    (hcall : call.storesToken = false) (hmem : .on asked call ∈ r.entries interpreter) :
    asked.Ready := by
  obtain hmem | hmem := List.mem_append.mp hmem
  · exact Round.ready_of_mem_begun h hmem
  · unfold timerEntries at hmem
    split at hmem
    · simp only [List.mem_cons, Entry.on.injEq, List.not_mem_nil, or_false] at hmem
      obtain ⟨rfl, -⟩ | ⟨-, rfl⟩ := hmem
      · exact Round.ready_after h _
      · cases hcall
    · cases hmem

lemma Rounds.held (h : Rounds interpreter limits clock start rounds m k) (hstart : start.Held) :
    m.Held ∧ ∀ r ∈ rounds, r.found.Held := by
  induction h with
  | none => exact ⟨hstart, by simp⟩
  | @next rounds m k r hrounds hbegun hends ih =>
      obtain ⟨hm, hall⟩ := ih
      have hfound : r.found.Held := hbegun.found ▸ hm
      refine ⟨held_timed (Round.ready_after hfound _).agree, ?_⟩
      intro r' hr'
      obtain hr' | hr' := List.mem_append.mp hr'
      · exact hall r' hr'
      · rw [List.mem_singleton.mp hr']
        exact hfound

end Round

/-- Every event in the queue was there before, or was queued in between. -/
lemma mem_queue_of_replays {entries : List (Entry Machine)} {m m' : Machine} {token : Nat}
    {e : HostEvent} (h : Replays interpreter m entries m')
    (hallowed : ∀ entry ∈ entries, entry.Allowed interpreter) (hmem : (token, e) ∈ m'.queue) :
    (token, e) ∈ m.queue ∨ ∃ asked, .on asked (.enqueue .timer .null) ∈ entries ∧
      (interpreter.enqueue .timer .null asked).1 = some token := by
  induction entries generalizing m with
  | nil =>
      obtain rfl : m = m' := h
      exact .inl hmem
  | cons entry rest ih =>
      have hentry := hallowed entry List.mem_cons_self
      have hrest := fun entry hmem => hallowed entry (List.mem_cons_of_mem _ hmem)
      cases entry with
      | compile source => exact hentry.elim
      | instantiate inputs => exact hentry.elim
      | on asked call =>
          obtain ⟨rfl, hreplays⟩ := h
          obtain hmem | ⟨other, hother, htoken⟩ := ih hreplays hrest
          · cases call with
            | bindCanvas size => exact hentry.elim
            | stop => exact hentry.elim
            | reset => exact hentry.elim
            | setStatus status => exact .inl hmem
            | setTimer token => exact .inl hmem
            | step => exact .inl (asked.queue_step_subset hmem)
            | enqueue event payload =>
                obtain ⟨rfl, rfl, -⟩ := hentry
                obtain hmem | hmem := List.mem_append.mp hmem
                · exact .inl hmem
                · obtain ⟨rfl, -⟩ := Prod.mk.inj (List.mem_singleton.mp hmem)
                  exact .inr ⟨asked, List.mem_cons_self, rfl⟩
          · exact .inr ⟨other, List.mem_cons_of_mem _ hother, htoken⟩

/-- What a session keeps of timers: its phase, its whole rounds, what it asked for after the
reset, and the present state of the machine. -/
structure TimersKept (phase : Phase) (rounds : List (Round Machine))
    (entries : List (Entry Machine)) (state : Machine) : Prop where
  /-- Now and before every call a timer event is queued exactly if one is pending, and with its
  token. Queueing an event and storing its token count as one call. -/
  agree : state.TimersAgree ∧
    ∀ m call, .on m call ∈ entries → call.storesToken = false → m.TimersAgree
  /-- At the end of a slice exactly one timer event is queued. -/
  sliceEnd : ∀ r ∈ rounds, ∃ token, timersIn (r.left interpreter).queue = [token]
  /-- At the start of a slice a program that waits has a timer event in its queue. -/
  sliceStart : phase = .opening → state.waiting = true → ∃ token, (token, .timer) ∈ state.queue
  /-- A step handles an event, or else nothing is queued or pending and it executes an
  instruction; no step finds the program waiting for an empty queue. -/
  step : ∀ m, .on m .step ∈ entries →
    (∃ token e rest, m.queue = (token, e) :: rest ∧
        m.step = { m with yielded := false, queue := rest }.handle token e) ∨
      (m.queue = [] ∧ m.timer = none ∧ m.step = { m with yielded := false }.advance)
  /-- Between a step that sets the program waiting and one that releases it the session has
  queued the timer event that the latter handles. -/
  released : ∀ before between after m m',
    entries = before ++ .on m .step :: (between ++ .on m' .step :: after) →
    m.waiting = false → m.step.waiting = true → m'.waiting = true → m'.step.waiting = false →
    ∃ token rest asked, m'.queue = (token, .timer) :: rest ∧
      .on asked (.enqueue .timer .null) ∈ between ∧
      (interpreter.enqueue .timer .null asked).1 = some token

section Course

variable {limits : Limits} {clock : Nat → Nat} {start state : Machine}
  {rounds : List (Round Machine)} {phase : Phase} {entries : List (Entry Machine)}
  {readings : Nat}

lemma Stands.ready {m : Machine} {k : Nat}
    (h : Stands interpreter limits clock m k phase entries state readings) (hm : m.Held) :
    state.Ready ∧ ∀ asked call, .on asked call ∈ entries → asked.Ready := by
  cases h with
  | checking => exact ⟨hm.ready, by simp⟩
  | cutOff => exact ⟨hm.ready, by simp⟩
  | ended => exact ⟨(held_woken hm).ready, fun _ _ => ready_of_mem_wakeEntries hm⟩
  | @opening r hbegun =>
      have hfound : r.found.Held := hbegun.found ▸ hm
      exact ⟨Round.ready_after hfound _, fun _ _ => Round.ready_of_mem_begun hfound⟩
  | @stepping r hbegun =>
      have hfound : r.found.Held := hbegun.found ▸ hm
      exact ⟨Round.ready_after hfound _, fun _ _ => Round.ready_of_mem_begun hfound⟩

lemma Course.ready (h : Course interpreter limits clock start rounds phase entries state readings)
    (hstart : start.Held) :
    state.Ready ∧ ∀ m call, .on m call ∈ entries → call.storesToken = false → m.Ready := by
  cases h with
  | starting => exact ⟨hstart.ready, by simp⟩
  | going hrounds hstands =>
      obtain ⟨hm, hall⟩ := hrounds.held hstart
      obtain ⟨hstate, hrest⟩ := hstands.ready hm
      refine ⟨hstate, fun asked call hmem hcall => ?_⟩
      obtain hmem | hmem := List.mem_append.mp hmem
      · obtain ⟨r, hr, hmem⟩ := List.mem_flatMap.mp hmem
        exact Round.ready_of_mem_entries (hall r hr) hcall hmem
      · exact hrest asked call hmem

lemma Course.held_rounds
    (h : Course interpreter limits clock start rounds phase entries state readings)
    (hstart : start.Held) : ∀ r ∈ rounds, r.found.Held := by
  cases h with
  | starting => simp
  | going hrounds hstands => exact (hrounds.held hstart).2

/-- A slice starts with a running program. -/
lemma Course.running_of_opening
    (h : Course interpreter limits clock start rounds .opening entries state readings) :
    state.status = .running := by
  cases h with
  | going hrounds hstands =>
      cases hstands with
      | @opening r hbegun hzero =>
          have hready := hbegun.ready
          rw [← hzero] at hready
          exact hready

lemma Course.timersKept
    (h : Course interpreter limits clock start rounds phase entries state readings)
    (hstart : start.Held) : TimersKept phase rounds entries state := by
  obtain ⟨hstate, hentries⟩ := h.ready hstart
  refine ⟨⟨hstate.agree, fun m call hmem hcall => (hentries m call hmem hcall).agree⟩,
    ?_, ?_, ?_, ?_⟩
  · intro r hr
    obtain ⟨token, hqueue, -⟩ :=
      timersIn_timed (Round.ready_after (h.held_rounds hstart r hr) r.steps).agree
    exact ⟨token, hqueue⟩
  · rintro rfl hwait
    obtain ⟨token, htoken⟩ :=
      Option.isSome_iff_exists.mp (hstate.pending h.running_of_opening hwait)
    have hagree := hstate.agree
    rw [TimersAgree, htoken] at hagree
    exact ⟨token, mem_timersIn.mp (by simp [hagree])⟩
  · intro m hmem
    have hrun : m.status = .running := h.allowed hmem
    have hready := hentries m .step hmem rfl
    obtain hhandles | ⟨hqueue, -⟩ | ⟨hqueue, -⟩ := step_cases hrun
    · exact .inl hhandles
    · exact .inr ⟨hqueue, hready.executes hrun hqueue⟩
    · exact .inr ⟨hqueue, hready.executes hrun hqueue⟩
  · rintro before between after m m' rfl hbefore hafter hbefore' hafter'
    have hrun : m.status = .running := h.allowed (e := .on m .step) (by simp)
    have hrun' : m'.status = .running := h.allowed (e := .on m' .step) (by simp)
    obtain ⟨token, rest, hqueue⟩ := queue_of_releases hrun' hbefore' hafter'
    have hempty : m.step.queue = [] := by
      have hsubset := m.queue_step_subset
      rw [queue_eq_nil_of_suspends hrun hbefore hafter] at hsubset
      exact List.subset_nil.mp hsubset
    obtain ⟨_, -, rfl, hreplays⟩ := replays_append.mp h.replays
    obtain ⟨_, hbetween, rfl, -⟩ := replays_append.mp hreplays
    have hallowed : ∀ entry ∈ between, entry.Allowed interpreter :=
      fun entry hmem => h.allowed (by simp [hmem])
    obtain hold | ⟨asked, hasked, htoken⟩ :=
      mem_queue_of_replays hbetween hallowed (by rw [hqueue]; exact List.mem_cons_self)
    · rw [show (Call.step.apply interpreter m).queue = [] from hempty] at hold
      cases hold
    · exact ⟨token, rest, asked, hqueue, hasked, htoken⟩

end Course

/-- No timer is doubled and no wake-up is lost. In every run of a compiled program, at every
reading of the clock: a timer event is queued exactly while one is pending and with its token,
exactly one is queued at the end of every slice, an instruction is executed only with an empty
queue and no timer pending, and what releases a waiting program was queued after it began to
wait. -/
theorem timers_neither_doubled_nor_lost {source : String} {program : Program} {seconds : Float}
    {timeout : Nat} (depthLimit : Nat) (config : Config) (clock : Clock) (fuel : Nat)
    (inputs : List Input) (surface : Option Size) (hcompile : compile source = .ok program)
    (htimeout : nanoseconds? seconds = some timeout) :
    let start := Machine.new program inputs depthLimit
    ∃ session rounds entries readings,
      run (recording (language depthLimit)) config clock fuel source seconds inputs surface =
        .ran session ∧
      session.state.journal = [.compile source, .instantiate inputs] ++
        openingEntries interpreter surface start ++ entries ∧
      Course interpreter ⟨config.slice, timeout, clock.lastInstant⟩ clock.reading
        (restarted interpreter surface start) rounds session.phase entries session.state.state
        readings ∧
      TimersKept session.phase rounds entries session.state.state := by
  have hlanguage : (language depthLimit).compile source = .ok program := by
    simp [language, hcompile, Except.mapError]
  obtain ⟨session, rounds, entries, readings, hran, hjournal, hcourse, -⟩ :=
    exists_course config clock fuel inputs surface htimeout hlanguage
  exact ⟨session, rounds, entries, readings, hran, hjournal, hcourse,
    hcourse.timersKept (held_reset _)⟩

/-- A program that waits, with a click in front of the timer and slices of three readings. -/
theorem timers_kept_of_waiting_program :
    let source := "print \"a wait print \"b"
    let inputs : List Input := [.interaction ⟨"click", .null⟩]
    let ending := run (recording (language 1)) ⟨3, 1⟩ ⟨id, 100⟩ 40 source 1 inputs none
    ∃ program, compile source = .ok program ∧ nanoseconds? 1 = some 1000000000 ∧
      ending.events? (recorder interpreter) = some [.print "a", .print "b"] ∧
      ∃ session rounds entries, ending = .ran session ∧
        TimersKept session.phase rounds entries session.state.state := by
  intro source inputs ending
  have hok : (compile source).toBool = true := by decide +kernel
  have htimeout : nanoseconds? 1 = some 1000000000 := by decide +kernel
  have hevents : ending.events? (recorder interpreter) = some [.print "a", .print "b"] := by
    decide +kernel
  cases hcompile : compile source with
  | error problems =>
      rw [hcompile] at hok
      cases hok
  | ok program =>
      obtain ⟨session, rounds, entries, readings, hran, -, -, hkept⟩ :=
        timers_neither_doubled_nor_lost 1 ⟨3, 1⟩ ⟨id, 100⟩ 40 inputs none hcompile htimeout
      exact ⟨program, rfl, htimeout, hevents, session, rounds, entries, hran, hkept⟩

end LogoStudio.Schedule
