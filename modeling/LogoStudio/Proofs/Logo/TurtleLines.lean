import LogoStudio.Proofs.Event.RoundTrip
import LogoStudio.Proofs.Logo.Effects
import LogoStudio.Proofs.Logo.Scopes

/-!
# Lines of the turtle

Positions of the turtle add up outside of all expressions, and nothing checks them: a step may
compute an endpoint that is not finite although every input is. Until such a step, every line
has finite ends and its record is read back. The step itself is no fault. The program goes on,
and with the pen down it shows a line that no record can hold.
-/
namespace LogoStudio.Logo

open Event (AllFinite colorNumbers pointNumbers)
open Machine (Calm Effect)
open Plane (Point)

namespace Machine

variable {m : Machine}

/-- The endpoints that the next step computes. -/
def endpoints (m : Machine) : List Point :=
  match m.current? with
  | some (.primitive p args) =>
      match (actualValues m.frames m.canvas args).outcome m.answers with
      | (.ok values, _) => p.endpoints m.turtle values
      | (.error _, _) => []
  | _ => []

/-- The next step computes an endpoint that is not finite. -/
def Overshoots (m : Machine) : Prop := ∃ finish ∈ m.endpoints, finish.isFinite = false

instance : Decidable m.Overshoots :=
  inferInstanceAs (Decidable (∃ finish ∈ m.endpoints, finish.isFinite = false))

lemma current?_eq_some {instr : Instr} :
    m.current? = some instr ↔ m.IsIdle ∧ m.program.code[m.pc]? = some instr := by
  unfold current?
  split
  · next h => simp [IsIdle, h.1, List.isEmpty_iff.mp h.2.1, h.2.2]
  · next h =>
      simp only [reduceCtorEq, false_iff, not_and]
      rintro ⟨hrun, hqueue, hwait⟩
      exact absurd ⟨hrun, List.isEmpty_iff.mpr hqueue, hwait⟩ h

lemma endpoints_of_primitive {p : Primitive} {args : List Actual} {values : List Value}
    {rest : List Input} (hidle : m.IsIdle)
    (hinstr : m.program.code[m.pc]? = some (.primitive p args))
    (hvalues : (actualValues m.frames m.canvas args).outcome m.answers = (.ok values, rest)) :
    m.endpoints = p.endpoints m.turtle values := by
  simp only [endpoints, current?_eq_some.mpr ⟨hidle, hinstr⟩, hvalues]

/-- A step that computes an endpoint executes a primitive whose inputs have values. -/
lemma primitive_of_endpoints {finish : Point} (h : finish ∈ m.endpoints) :
    m.IsIdle ∧ ∃ p args values rest, m.program.code[m.pc]? = some (.primitive p args) ∧
      (actualValues m.frames m.canvas args).outcome m.answers = (.ok values, rest) ∧
      finish ∈ p.endpoints m.turtle values := by
  unfold endpoints at h
  split at h
  · next p args hcurrent =>
      obtain ⟨hidle, hinstr⟩ := current?_eq_some.mp hcurrent
      split at h
      · next values rest hvalues => exact ⟨hidle, p, args, values, rest, hinstr, hvalues, h⟩
      · cases h
  · cases h

end Machine

/-- A line can be held by a record if its ends and its colour are finite. -/
lemma valid_turtle_iff {line : TurtleLine} :
    (Event.turtle line).Valid ↔ line.start.isFinite = true ∧ line.finish.isFinite = true ∧
      AllFinite (colorNumbers line.color) := by
  have hpoint (q : Point) : AllFinite (pointNumbers q) ↔ q.isFinite = true := by
    simp [AllFinite, pointNumbers, Point.isFinite]
  have hnumbers : AllFinite (Event.turtle line).numbers ↔ line.start.isFinite = true ∧
      line.finish.isFinite = true ∧ AllFinite (colorNumbers line.color) := by
    rw [← hpoint, ← hpoint, ← and_assoc]
    simp only [Event.numbers, AllFinite, List.forall_mem_append]
  rw [← hnumbers]
  exact ⟨fun h => h.finite, fun h => ⟨h, List.forall_mem_nil _, by simp⟩⟩

lemma color_of_mem_arc {t : Turtle} {degrees radius : Float} {line : TurtleLine}
    (h : line ∈ t.arc degrees radius) : line.color = t.color := by
  unfold Turtle.arc at h
  split at h
  · obtain ⟨i, -, rfl⟩ := List.mem_map.mp h
    rfl
  · cases h

/-- What holds of the turtle and its lines as long as no step overshoots. -/
structure Machine.DrawsFinite (m : Machine) : Prop where
  position : m.turtle.position.isFinite = true
  color : AllFinite (colorNumbers m.turtle.color)
  lines : ∀ line, .turtle line ∈ m.shown → (Event.turtle line).Valid

/-- A primitive with finite endpoints keeps the turtle and its lines finite. -/
lemma Primitive.Performs.drawsFinite {p : Primitive} {t t' : Turtle} {values : List Value}
    {events : List Event} (h : p.Performs t values t' events)
    (hends : ∀ finish ∈ p.endpoints t values, finish.isFinite = true)
    (hposition : t.position.isFinite = true) (hcolor : AllFinite (colorNumbers t.color)) :
    t'.position.isFinite = true ∧ AllFinite (colorNumbers t'.color) ∧
      ∀ line, .turtle line ∈ events → (Event.turtle line).Valid := by
  cases h with
  | stays hposition' hcolor' =>
      rw [hposition']
      refine ⟨hposition, ?_, fun line hline => nomatch hline⟩
      obtain hsame | hnew := hcolor'
      · rwa [hsame]
      · exact hnew
  | @moves _ finish hfinish hposition' hcolor' =>
      rw [hfinish] at hends
      have hend : finish.isFinite = true := hends finish (List.mem_singleton_self _)
      rw [hposition', hcolor']
      refine ⟨hend, hcolor, fun line hline => ?_⟩
      split at hline
      · obtain rfl := Event.turtle.inj (List.mem_singleton.mp hline)
        exact valid_turtle_iff.mpr ⟨hposition, hend, hcolor⟩
      · cases hline
  | arcs harc =>
      rw [harc] at hends
      refine ⟨hposition, hcolor, fun line hline => ?_⟩
      obtain ⟨line', hmem, heq⟩ := List.mem_map.mp hline
      obtain rfl := Event.turtle.inj heq
      have hline' (q : Point) (hq : q ∈ [line'.start, line'.finish]) : q.isFinite = true :=
        hends q (List.mem_flatMap.mpr ⟨line', hmem, hq⟩)
      refine valid_turtle_iff.mpr ⟨hline' _ (by simp), hline' _ (by simp), ?_⟩
      rwa [color_of_mem_arc hmem]
  | prints => exact ⟨hposition, hcolor, fun line hline => by simp at hline⟩
  | draws => exact ⟨hposition, hcolor, fun line hline => by simp at hline⟩

namespace Machine.DrawsFinite

variable {source : String} {p : Program} {m m' : Machine}

lemma of_eq (h : m.DrawsFinite) (hturtle : m'.turtle = m.turtle) (hshown : m'.shown = m.shown) :
    m'.DrawsFinite := by
  refine ⟨?_, ?_, ?_⟩
  · rw [hturtle]
    exact h.position
  · rw [hturtle]
    exact h.color
  · rw [hshown]
    exact h.lines

/-- A step that does not overshoot keeps the turtle and its lines finite. -/
lemma of_effect (h : m.DrawsFinite) (heffect : Effect m m') (hfar : ¬m.Overshoots) :
    m'.DrawsFinite := by
  cases heffect with
  | calm hcalm => exact h.of_eq hcalm.turtle hcalm.shown
  | assigns _ _ hturtle hshown => exact h.of_eq hturtle hshown
  | calls _ _ hturtle hshown => exact h.of_eq hturtle hshown
  | @performs q args values events middle hidle hinstr hvalues hperforms _ hshown =>
      have hends (finish : Point) (hfinish : finish ∈ q.endpoints m.turtle values) :
          finish.isFinite = true := by
        rw [← Machine.endpoints_of_primitive hidle hinstr hvalues] at hfinish
        by_contra hinfinite
        exact hfar ⟨finish, hfinish, Bool.eq_false_iff.mpr hinfinite⟩
      obtain ⟨hposition, hcolor, hlines⟩ := hperforms.drawsFinite hends h.position h.color
      refine ⟨hposition, hcolor, fun line hline => ?_⟩
      rw [hshown, List.mem_append, List.mem_reverse] at hline
      obtain hnew | hold := hline
      · exact hlines line hnew
      · exact h.lines line hold
  | fails _ hturtle hshown =>
      refine ⟨by rw [hturtle]; exact h.position, by rw [hturtle]; exact h.color, ?_⟩
      intro line hline
      rw [hshown] at hline
      obtain hfault | hold := List.mem_cons.mp hline
      · cases hfault
      · exact h.lines line hold

lemma of_initial (hturtle : m.turtle = .initial)
    (hlines : ∀ line, .turtle line ∈ m.shown → (Event.turtle line).Valid) : m.DrawsFinite := by
  have hcolor : ∀ x ∈ colorNumbers Turtle.initial.color, x.isFinite = true := by decide +kernel
  exact ⟨by rw [hturtle]; rfl, by rw [hturtle]; exact hcolor, hlines⟩

lemma apply (hp : compile source = .ok m.program) (h : m.DrawsFinite) (call : HostCall)
    (hfar : call = .step → ¬m.Overshoots) : (call.apply m).DrawsFinite := by
  obtain rfl | hcalm | ⟨-, hturtle, hshown⟩ := call.apply_cases m
  · exact h.of_effect (Machine.effect_step hp) (hfar rfl)
  · exact h.of_eq hcalm.turtle hcalm.shown
  · exact of_initial hturtle (by rw [hshown]; exact h.lines)

/-- As long as no step overshoots, lines stay finite. -/
lemma after (hp : compile source = .ok p) (supply : List Input) (limit : Nat)
    (calls : List HostCall)
    (hfar : ∀ before after, calls = before ++ .step :: after →
      ¬(before.foldl HostCall.apply (.new p supply limit)).Overshoots) :
    (calls.foldl HostCall.apply (.new p supply limit)).DrawsFinite := by
  induction calls using List.reverseRecOn with
  | nil => exact of_initial rfl (by simp [Machine.new])
  | append_singleton before call ih =>
      have hbefore := ih fun first rest heq => hfar first (rest ++ [call]) (by simp [heq])
      have horder := InOrder.after hp supply limit before
      rw [List.foldl_append, List.foldl_cons, List.foldl_nil]
      refine hbefore.apply (horder.compiled hp) call ?_
      rintro rfl
      exact hfar before [] rfl

end Machine.DrawsFinite

/-- A primitive that computes an endpoint meets no fault. It shows lines, and with the pen down
the endpoint is on one of them. -/
lemma perform_of_endpoint {p : Primitive} {t : Turtle} {values : List Value} {finish : Point}
    (h : finish ∈ p.endpoints t values) :
    p ≠ .wait ∧ ∃ (t' : Turtle) (lines : List TurtleLine),
      p.perform t values = pure (t', lines.map .turtle) ∧
      (t.penDown = true → ∃ line ∈ lines, line.start = finish ∨ line.finish = finish) := by
  unfold Primitive.endpoints at h
  split at h
  · next d =>
      obtain rfl := List.mem_singleton.mp h
      refine ⟨by simp, _, _, rfl, fun hpen => ?_⟩
      simp [Turtle.forward, Turtle.moveTo, hpen]
  · next d =>
      obtain rfl := List.mem_singleton.mp h
      refine ⟨by simp, _, _, rfl, fun hpen => ?_⟩
      simp [Turtle.back, Turtle.forward, Turtle.moveTo, hpen]
  · obtain rfl := List.mem_singleton.mp h
    refine ⟨by simp, _, _, rfl, fun hpen => ?_⟩
    simp [Turtle.home, Turtle.moveTo, hpen]
  · next degrees radius =>
      obtain ⟨line, hline, hfinish⟩ := List.mem_flatMap.mp h
      refine ⟨by simp, t, t.arc degrees radius, rfl, fun _ => ⟨line, hline, ?_⟩⟩
      simpa [eq_comm] using hfinish
  · cases h

/-- A step that computes an endpoint goes on to the next instruction, finite or not. -/
lemma step_of_endpoint {source : String} {m : Machine} (hp : compile source = .ok m.program)
    {finish : Point} (h : finish ∈ m.endpoints) :
    ∃ (turtle : Turtle) (lines : List TurtleLine) (rest : List Input),
      m.step = { m with
        yielded := false
        pc := m.pc + 1
        turtle
        answers := rest
        shown := (lines.map .turtle).reverse ++ m.shown } ∧
      (m.turtle.penDown = true → ∃ line ∈ lines, line.start = finish ∨ line.finish = finish) := by
  obtain ⟨hidle, p, args, values, rest, hinstr, hvalues, hfinish⟩ :=
    Machine.primitive_of_endpoints h
  obtain ⟨hwait, turtle, lines, hperform, hlines⟩ := perform_of_endpoint hfinish
  refine ⟨turtle, lines, rest, ?_, hlines⟩
  have houtcome : ({ m with yielded := false }.execute (.primitive p args)).outcome m.answers =
      (.ok { m with
        yielded := false
        pc := m.pc + 1
        turtle
        shown := (lines.map .turtle).reverse ++ m.shown }, rest) := by
    rw [Machine.execute_primitive (m := { m with yielded := false }) hp hinstr hwait]
    simp only [hperform, pure_bind, Eval.outcome_bind, hvalues, Eval.outcome_pure]
    rfl
  rw [Machine.step_of_isIdle hidle, Machine.advance_eq]
  simp only [hinstr, houtcome]

/-- Whatever a host does with the machine of a compiled program, the lines of the turtle have
finite ends, and their records are read back, as long as no step has overshot. A step that
overshoots is no fault: it shows lines only and the program goes on. With the pen down one of
the lines has an end that is not finite, and its record is not read back. -/
theorem lines_finite_until_overshoot {source : String} {p : Program}
    (hp : compile source = .ok p) (supply : List Input) (limit : Nat) (calls : List HostCall) :
    let start := Machine.new p supply limit
    let m := calls.foldl HostCall.apply start
    ((∀ before after, calls = before ++ .step :: after →
        ¬(before.foldl HostCall.apply start).Overshoots) →
      ∀ line, .turtle line ∈ m.events →
        line.start.isFinite = true ∧ line.finish.isFinite = true ∧
          Event.ofRecord (Event.turtle line).record = .ok (some (.turtle line))) ∧
    (m.Overshoots → m.step.status = .running ∧ m.step.pc = m.pc + 1 ∧
      ∃ lines : List TurtleLine, m.step.events = m.events ++ lines.map .turtle ∧
        (m.turtle.penDown = true → ∃ line ∈ lines,
          (line.start.isFinite = false ∨ line.finish.isFinite = false) ∧
            Event.ofRecord (Event.turtle line).record ≠ .ok (some (.turtle line)))) := by
  intro start m
  constructor
  · intro hfar line hline
    have hvalid := (Machine.DrawsFinite.after hp supply limit calls hfar).lines line
      (List.mem_reverse.mp hline)
    obtain ⟨hstart, hfinish, -⟩ := valid_turtle_iff.mp hvalid
    exact ⟨hstart, hfinish, Event.ofRecord_record hvalid⟩
  · rintro ⟨finish, hmem, hinfinite⟩
    have hprogram : compile source = .ok m.program :=
      (InOrder.after hp supply limit calls).compiled hp
    obtain ⟨turtle, lines, rest, hstep, hlines⟩ := step_of_endpoint hprogram hmem
    refine ⟨?_, ?_, lines, ?_, ?_⟩
    · rw [hstep]
      exact (Machine.primitive_of_endpoints hmem).1.1
    · rw [hstep]
    · rw [hstep]
      simp [Machine.events]
    · intro hpen
      obtain ⟨line, hline, hend⟩ := hlines hpen
      have hwhere : line.start.isFinite = false ∨ line.finish.isFinite = false := by
        obtain rfl | rfl := hend
        · exact .inl hinfinite
        · exact .inr hinfinite
      refine ⟨line, hline, hwhere, fun hread => ?_⟩
      obtain ⟨hstart, hfinish, -⟩ := valid_turtle_iff.mp (Event.valid_of_ofRecord hread)
      obtain h | h := hwhere
      · rw [hstart] at h
        cases h
      · rw [hfinish] at h
        cases h

/-- Two moves along the first axis, each half as far as the numbers go. -/
def farSource : String :=
  "rt 90\nmake \"x 2\nrepeat 9 [make \"x :x * :x]\nrepeat 2 [fd :x * (:x / 2)]"

/-- The first move is drawn with finite ends; the step of the second one overshoots. -/
theorem lines_finite_until_second_move :
    ∃ p, compile farSource = .ok p ∧
      let m := (.reset :: List.replicate 24 .step).foldl HostCall.apply (.new p [] 1)
      (∃ line, m.events = [.turtle line] ∧
        line.start.isFinite = true ∧ line.finish.isFinite = true ∧
          Event.ofRecord (Event.turtle line).record = .ok (some (.turtle line))) ∧
      m.step.status = .running ∧
      ∃ lines : List TurtleLine, m.step.events = m.events ++ lines.map .turtle ∧
        ∃ line ∈ lines, line.start.isFinite = false ∨ line.finish.isFinite = false := by
  let calls : List HostCall := .reset :: List.replicate 24 .step
  have hrun : (compile farSource).toOption.map (fun p =>
      let m : Machine := calls.foldl HostCall.apply (.new p [] 1)
      ((List.range 25).all fun k =>
          !decide ((calls.take k).foldl HostCall.apply (.new p [] 1)).Overshoots,
        decide m.Overshoots, m.turtle.penDown, m.events)) =
      some (true, true, true, [.turtle ⟨⟨0, 0⟩, ⟨8.98846567431158e307, 0⟩, .black⟩]) := by
    decide +kernel
  cases hp : compile farSource with
  | error problems =>
      rw [hp] at hrun
      cases hrun
  | ok p =>
      rw [hp] at hrun
      obtain ⟨hfar, hrun⟩ := Prod.mk.inj (Option.some.inj hrun)
      obtain ⟨hover, hrun⟩ := Prod.mk.inj hrun
      obtain ⟨hpen, hevents⟩ := Prod.mk.inj hrun
      obtain ⟨hlines, hstep⟩ := lines_finite_until_overshoot hp [] 1 calls
      refine ⟨p, rfl, ⟨_, hevents, hlines ?_ _ ?_⟩, ?_⟩
      · intro before after hcalls
        have hbefore : before = calls.take before.length := by simp [hcalls]
        have hlength : before.length < 25 := by
          have htotal := congrArg List.length hcalls
          simp only [calls, List.length_cons, List.length_replicate, List.length_append] at htotal
          omega
        have hnot := List.all_eq_true.mp hfar before.length (List.mem_range.mpr hlength)
        rw [hbefore]
        simpa using hnot
      · rw [hevents]
        exact List.mem_singleton_self _
      · obtain ⟨hstatus, -, lines, hshown, hfound⟩ := hstep (of_decide_eq_true hover)
        obtain ⟨line, hline, hwhere, -⟩ := hfound hpen
        exact ⟨hstatus, lines, hshown, line, hline, hwhere⟩

/-- The program runs to its end without a message, and the second line that it shows ends at
infinity. -/
theorem overshoot_shown_without_fault :
    ∃ p, compile farSource = .ok p ∧
      let m := (.reset :: List.replicate 27 .step).foldl HostCall.apply (.new p [] 1)
      m.status = .halted ∧
      ∃ first second : TurtleLine, m.events = [.turtle first, .turtle second] ∧
        second.finish.isFinite = false := by
  let far : Float := 8.98846567431158e307
  have hrun : (compile farSource).toOption.map (fun p =>
      let m := (.reset :: List.replicate 27 .step).foldl HostCall.apply (.new p [] 1)
      (m.status, m.events)) =
        some (.halted, [.turtle ⟨⟨0, 0⟩, ⟨far, 0⟩, .black⟩,
          .turtle ⟨⟨far, 0⟩, ⟨1 / 0, 0⟩, .black⟩]) := by decide +kernel
  cases hp : compile farSource with
  | error problems =>
      rw [hp] at hrun
      cases hrun
  | ok p =>
      rw [hp] at hrun
      obtain ⟨hstatus, hevents⟩ := Prod.mk.inj (Option.some.inj hrun)
      exact ⟨p, rfl, hstatus, _, _, hevents, by decide +kernel⟩

end LogoStudio.Logo
