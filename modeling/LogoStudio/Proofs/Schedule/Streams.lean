import LogoStudio.Proofs.Logo.Diagnostics
import LogoStudio.Proofs.Schedule.Independence

/-!
# The shape of what a run returns

A run of a source that does not compile returns its diagnostics and nothing else. Every other run
returns what its machine has shown, and perhaps a timeout after it. A machine shows outputs until
it meets a fault; the message of the fault is the last thing it shows, because a machine that has
halted is never woken by its session.
-/
namespace LogoStudio.Logo.Machine

/-- The machine has shown outputs only, or has halted on a fault after its outputs. -/
def ShowsInOrder (m : Machine) : Prop :=
  (∀ e ∈ m.shown, IsOutput e) ∨
    (m.status = .halted ∧ ∃ message outputs, m.shown = .runtimeError message :: outputs ∧
      ∀ e ∈ outputs, IsOutput e)

lemma showsInOrder_advance {m : Machine} (h : ∀ e ∈ m.shown, IsOutput e) :
    m.advance.ShowsInOrder := by
  rw [advance_eq]
  split
  · exact .inl h
  · split
    · next next answers hok =>
        obtain ⟨new, hnew, hshown⟩ := (execute_eq_ok hok).shows
        refine .inl fun e he => ?_
        rw [show Machine.shown _ = next.shown from rfl, hshown] at he
        exact (List.mem_append.mp he).elim (hnew e) (h e)
    · exact .inr ⟨rfl, _, _, rfl, h⟩

lemma ShowsInOrder.settle {m : Machine} (h : m.ShowsInOrder) : m.settle.ShowsInOrder :=
  h.imp id fun ⟨hhalted, hshown⟩ => ⟨(status_settle_eq_halted m).mpr hhalted, hshown⟩

lemma ShowsInOrder.tick {m : Machine} (h : m.ShowsInOrder) : m.tick.ShowsInOrder := by
  unfold Machine.tick
  split
  · next hrun =>
      obtain h | ⟨hhalted, -⟩ := h
      · exact (showsInOrder_advance h).settle
      · rw [hrun] at hhalted
        cases hhalted
  · exact h

lemma ShowsInOrder.iterate_tick {m : Machine} (h : m.ShowsInOrder) (n : Nat) :
    (Machine.tick^[n] m).ShowsInOrder := by
  induction n with
  | zero => exact h
  | succ n ih =>
      rw [Function.iterate_succ_apply']
      exact ih.tick

end LogoStudio.Logo.Machine

namespace LogoStudio.Schedule

open Logo Logo.Machine

/-- One compile error or more, sorted by line, and nothing else. -/
def IsDiagnosis (events : List Event) : Prop :=
  ∃ diagnostics : List Diagnostic, diagnostics ≠ [] ∧
    diagnostics.Pairwise (fun d d' => d.line ≤ d'.line) ∧
    events = diagnostics.map Diagnostic.event

/-- Outputs, then the message of at most one fault, then at most one timeout. -/
def IsPerformance (events : List Event) : Prop :=
  ∃ outputs faults endings, events = outputs ++ (faults ++ endings) ∧
    (∀ e ∈ outputs, IsOutput e) ∧
    (faults = [] ∨ ∃ message, faults = [.runtimeError message]) ∧
    (endings = [] ∨ endings = [.timeout])

/-- No list holds a message; nothing but a timeout follows a fault, and nothing a timeout. -/
structure EndsInOrder (events : List Event) : Prop where
  no_message : ∀ kind value, .message kind value ∉ events
  after_fault : ∀ before message after, events = before ++ .runtimeError message :: after →
    after = [] ∨ after = [.timeout]
  after_timeout : ∀ before after, events = before ++ .timeout :: after → after = []

/-- An event that is no output stands after the outputs. It is the fault, with at most a timeout
after it, or the timeout, with nothing after it. -/
lemma IsPerformance.cases {events before after : List Event} {e : Event}
    (h : IsPerformance events) (he : ¬IsOutput e) (hevents : events = before ++ e :: after) :
    (∃ message, e = .runtimeError message ∧ (after = [] ∨ after = [.timeout])) ∨
      (e = .timeout ∧ after = []) := by
  obtain ⟨outputs, faults, endings, rfl, houtputs, hfaults, hendings⟩ := h
  obtain ⟨middle, htail⟩ : ∃ middle, faults ++ endings = middle ++ e :: after := by
    obtain ⟨middle, -, htail⟩ | ⟨middle, houtput, hmiddle⟩ :=
      List.append_eq_append_iff.mp hevents
    · exact ⟨middle, htail⟩
    · cases middle with
      | nil => exact ⟨[], hmiddle.symm⟩
      | cons first rest =>
          obtain ⟨rfl, -⟩ := List.cons.inj hmiddle
          exact absurd (houtputs e (by simp [houtput])) he
  have hlast {only : Event} {middle : List Event} (h : [only] = middle ++ e :: after) :
      e = only ∧ after = [] := by
    obtain ⟨-, h⟩ | ⟨-, h⟩ := List.singleton_eq_append_iff.mp h
    · exact List.cons.inj h
    · cases h
  obtain rfl | ⟨message, rfl⟩ := hfaults <;> obtain rfl | rfl := hendings
  · simp at htail
  · exact .inr (hlast htail)
  · obtain ⟨rfl, hafter⟩ := hlast htail
    exact .inl ⟨message, rfl, .inl hafter⟩
  · obtain ⟨-, h⟩ | ⟨middle, -, h⟩ := List.cons_eq_append_iff.mp htail
    · obtain ⟨rfl, hafter⟩ := List.cons.inj h
      exact .inl ⟨message, rfl, .inr hafter⟩
    · exact .inr (hlast h)

lemma IsDiagnosis.endsInOrder {events : List Event} (h : IsDiagnosis events) :
    EndsInOrder events := by
  obtain ⟨diagnostics, -, -, rfl⟩ := h
  have hall (e : Event) (he : e ∈ diagnostics.map Diagnostic.event) :
      ∃ line message, e = .compileError line message := by
    obtain ⟨d, -, rfl⟩ := List.mem_map.mp he
    exact ⟨d.line, d.message, rfl⟩
  constructor
  · intro kind value he
    obtain ⟨_, _, h⟩ := hall _ he
    cases h
  · intro before message after hevents
    obtain ⟨_, _, h⟩ := hall (.runtimeError message) (by simp [hevents])
    cases h
  · intro before after hevents
    obtain ⟨_, _, h⟩ := hall .timeout (by simp [hevents])
    cases h

lemma IsPerformance.endsInOrder {events : List Event} (h : IsPerformance events) :
    EndsInOrder events := by
  constructor
  · intro kind value he
    obtain ⟨before, after, hevents⟩ := List.append_of_mem he
    obtain ⟨message, he, -⟩ | ⟨he, -⟩ := h.cases id hevents <;> cases he
  · intro before message after hevents
    obtain ⟨_, -, hafter⟩ | ⟨he, -⟩ := h.cases id hevents
    · exact hafter
    · cases he
  · intro before after hevents
    obtain ⟨message, he, -⟩ | ⟨-, hafter⟩ := h.cases id hevents
    · cases he
    · exact hafter

/-- No list has both shapes. -/
lemma IsDiagnosis.not_isPerformance {events : List Event} (h : IsDiagnosis events) :
    ¬IsPerformance events := by
  intro hperformance
  obtain ⟨diagnostics, hne, -, rfl⟩ := h
  obtain ⟨d, rest, rfl⟩ := List.exists_cons_of_ne_nil hne
  have hfirst : (d :: rest).map Diagnostic.event =
      [] ++ d.event :: rest.map Diagnostic.event := rfl
  obtain ⟨message, he, -⟩ | ⟨he, -⟩ := hperformance.cases id hfirst <;> cases he

lemma isDiagnosis_of_compile {source : String} {problems : List Problem}
    (h : compile source = .error problems) :
    IsDiagnosis ((problems.map Problem.diagnostic).map Diagnostic.event) := by
  obtain ⟨hne, hsorted⟩ := sorted_of_compile h
  refine ⟨problems.map Problem.diagnostic, by simpa using hne, ?_, rfl⟩
  rw [List.pairwise_map]
  exact hsorted

/-- At every reading of the clock a session has shown outputs, a fault and a timeout. -/
lemma Faithful.isPerformance {start : Machine} {s : Session Machine} (h : Faithful start s)
    (hstart : start.shown = []) : IsPerformance (s.events interpreter) := by
  obtain ⟨⟨-, n, hn⟩, -⟩ := h
  obtain ⟨endings, hendings, hevents⟩ : ∃ endings, (endings = [] ∨ endings = [.timeout]) ∧
      s.events interpreter = (tick^[n] start).events ++ endings := by
    rw [← hn, events_settle]
    unfold Session.events
    split
    · exact ⟨[.timeout], .inr rfl, rfl⟩
    · exact ⟨[], .inl rfl, (List.append_nil _).symm⟩
  have hinOrder : start.ShowsInOrder := .inl (by simp [hstart])
  obtain houtputs | ⟨-, message, outputs, hshown, houtputs⟩ := hinOrder.iterate_tick n
  · exact ⟨_, [], endings, hevents, fun e he => houtputs e (List.mem_reverse.mp he), .inl rfl,
      hendings⟩
  · refine ⟨outputs.reverse, [.runtimeError message], endings, ?_,
      fun e he => houtputs e (List.mem_reverse.mp he), .inr ⟨message, rfl⟩, hendings⟩
    rw [hevents, Machine.events, hshown, List.reverse_cons, List.append_assoc]

lemma events?_of_returned? {i : Interpreter Machine} {ending : Ending Machine}
    {returned : List Event} (h : ending.returned? i = some returned) :
    ending.events? i = some returned := by
  cases ending with
  | badTimeout => cases h
  | diagnostics list => exact h
  | ran session =>
      simp only [Ending.returned?, Option.ite_none_right_eq_some] at h
      exact h.2

section Run

variable {source : String} {depthLimit fuel timeout : Nat} {config : Config} {clock : Clock}
  {seconds : Float} {inputs : List Input} {surface : Option Size}

lemma events?_of_compile_error {problems : List Problem}
    (hseconds : nanoseconds? seconds = some timeout) (hcompile : compile source = .error problems) :
    (run (language depthLimit) config clock fuel source seconds inputs surface).events?
      interpreter = some ((problems.map Problem.diagnostic).map Diagnostic.event) := by
  simp only [run, prepare, language, hseconds, hcompile, Except.mapError]
  rfl

lemma events?_of_compile_ok {program : Program}
    (hseconds : nanoseconds? seconds = some timeout) (hcompile : compile source = .ok program) :
    ∃ events, (run (language depthLimit) config clock fuel source seconds inputs surface).events?
      interpreter = some events ∧ IsPerformance events := by
  cases hstart : prepare (language depthLimit) config clock.lastInstant source seconds inputs
      surface with
  | ready limits session =>
      have hfaithful := (faithful_prepare hcompile hstart).run limits clock.reading fuel 0
      refine ⟨_, ?_, hfaithful.isPerformance rfl⟩
      simp only [run, hstart]
      rfl
  | _ => simp [prepare, hseconds, language, hcompile, Except.mapError] at hstart

/-- What a run with a valid limit has shown, whether it is over or still going on: diagnostics
sorted by line exactly if the source does not compile, and otherwise outputs, then at most one
fault, then at most one timeout. A list that is returned is what was shown. -/
theorem shape_of_events (hseconds : nanoseconds? seconds = some timeout) :
    let ending := run (language depthLimit) config clock fuel source seconds inputs surface
    ∃ events, ending.events? interpreter = some events ∧
      (∀ returned, ending.returned? interpreter = some returned → returned = events) ∧
      (IsDiagnosis events ↔ ∃ problems, compile source = .error problems) ∧
      (IsPerformance events ↔ ∃ program, compile source = .ok program) ∧
      EndsInOrder events := by
  intro ending
  have hreturned {events : List Event} (hevents : ending.events? interpreter = some events)
      (returned : List Event) (h : ending.returned? interpreter = some returned) :
      returned = events := Option.some.inj ((events?_of_returned? h).symm.trans hevents)
  cases hcompile : compile source with
  | error problems =>
      have hevents : ending.events? interpreter = _ := events?_of_compile_error hseconds hcompile
      have hdiagnosis := isDiagnosis_of_compile hcompile
      refine ⟨_, hevents, hreturned hevents, ?_, ?_, hdiagnosis.endsInOrder⟩
      · simp only [hdiagnosis, Except.error.injEq, exists_eq']
      · simp only [hdiagnosis.not_isPerformance, reduceCtorEq, exists_false]
  | ok program =>
      obtain ⟨events, hevents, hperformance⟩ := events?_of_compile_ok hseconds hcompile
      have hdiagnosis : ¬IsDiagnosis events := fun h => h.not_isPerformance hperformance
      refine ⟨events, hevents, hreturned hevents, ?_, ?_, hperformance.endsInOrder⟩
      · simp only [hdiagnosis, reduceCtorEq, exists_false]
      · simp only [hperformance, Except.ok.injEq, exists_eq']

end Run

/-- A program that fails after an output, and whose session looks at the clock too late. -/
theorem shape_of_failing_program :
    let source := "print \"a error \"b"
    let late : Clock := ⟨fun k => if k < 5 then 0 else 5000000000, 10000000000⟩
    let failed := run (language 1) ⟨7, 1⟩ late 40 source 1 [] none
    failed.returned? interpreter = some [.print "a", .runtimeError "Line 1: b", .timeout] ∧
      IsPerformance [.print "a", .runtimeError "Line 1: b", .timeout] := by
  intro source late failed
  have hfailed : failed.returned? interpreter =
      some [.print "a", .runtimeError "Line 1: b", .timeout] := by decide +kernel
  have hcompiles : (compile source).toBool = true := by decide +kernel
  have hseconds : nanoseconds? 1 = some second := by decide +kernel
  obtain ⟨events, -, hreturned, -, hperformance, -⟩ := shape_of_events hseconds
  obtain rfl := hreturned _ hfailed
  refine ⟨hfailed, hperformance.mpr ?_⟩
  cases hcompile : compile source with
  | error problems =>
      rw [hcompile] at hcompiles
      cases hcompiles
  | ok program => exact ⟨program, rfl⟩

end LogoStudio.Schedule
