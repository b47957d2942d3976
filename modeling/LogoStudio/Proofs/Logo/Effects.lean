import LogoStudio.Proofs.Event.Validity
import LogoStudio.Proofs.Logo.Arithmetic
import LogoStudio.Proofs.Logo.Brackets
import LogoStudio.Proofs.Logo.Faults
import LogoStudio.Proofs.Logo.Safety
import LogoStudio.Proofs.Number.Squares

/-!
# What operations do to a machine

An instruction of a compiled program first evaluates its inputs, all of them and from left to
right, and acts on their values after that. A step can then do five things: leave the variables
and the turtle alone, assign to a variable, call a procedure, perform a primitive, or fail with
a message. Every other operation of the host leaves frames, turtle and events as they are, or
starts the program again. What holds of all machines that a host can reach follows from these
cases.
-/
namespace LogoStudio.Logo

open Event (AllFinite canvasNumbers colorNumbers pointNumbers)
open Machine (circle unit)
open Plane (Point)

section

variable (frames : List Frame) (canvas : Option Size)

def Actual.value : Actual → Eval Value
  | .num e => do return .number (← e.eval frames canvas)
  | .word w => return .word w

/-- The values of inputs, from left to right. -/
def actualValues : List Actual → Eval (List Value)
  | [] => return []
  | arg :: rest => do
      let v ← arg.value frames canvas
      return v :: (← actualValues rest)

/-- Inputs have the values that the direct semantics gives them. -/
lemma actualValues_lower (args : List Arg) :
    actualValues frames canvas (args.map Arg.lower) =
      inputValues (scopesOf frames) canvas args := by
  have hvalue (arg : Arg) : arg.lower.value frames canvas = arg.value (scopesOf frames) canvas := by
    cases arg with
    | num e => simp only [Arg.lower, Actual.value, Arg.value, eval_lower]
    | word w => rfl
  induction args with
  | nil => rfl
  | cons arg args ih => rw [List.map_cons, actualValues, inputValues, hvalue, ih]

end

/-- A number that is finite, or a word. -/
def Value.IsFinite : Value → Prop
  | .number x => x.isFinite = true
  | .word _ => True

section

variable {frames : List Frame} {canvas : Option Size} {answers middle rest : List Input}

lemma isFinite_of_eval {e : Expr} {x : Float}
    (h : (e.eval frames canvas).outcome answers = (.ok x, rest)) : x.isFinite = true := by
  obtain ⟨hplain, hunbroken⟩ := Expr.outcome_eval_eq_ok_iff.mp h
  exact hunbroken.isFinite hplain

lemma isFinite_of_actualValues {args : List Actual} {values : List Value}
    (h : (actualValues frames canvas args).outcome answers = (.ok values, rest)) :
    ∀ v ∈ values, v.IsFinite := by
  induction args generalizing answers values with
  | nil =>
      obtain ⟨rfl, -⟩ : [] = values ∧ answers = rest := by simpa [actualValues] using h
      exact List.forall_mem_nil _
  | cons arg args ih =>
      obtain ⟨v, middle, hv, h⟩ := Eval.outcome_bind_eq_ok.mp h
      obtain ⟨vs, last, hvs, h⟩ := Eval.outcome_bind_eq_ok.mp h
      obtain ⟨rfl, rfl⟩ : v :: vs = values ∧ last = rest := by simpa using h
      refine List.forall_mem_cons.mpr ⟨?_, ih hvs⟩
      cases arg with
      | num e =>
          obtain ⟨x, _, hx, hv⟩ := Eval.outcome_bind_eq_ok.mp hv
          obtain ⟨rfl, -⟩ : Value.number x = v ∧ _ := by simpa using hv
          exact isFinite_of_eval hx
      | word w =>
          obtain ⟨rfl, -⟩ : Value.word w = v ∧ answers = middle := by
            simpa [Actual.value] using hv
          trivial

/-- Inputs after one that fails are not evaluated. -/
lemma outcome_actualValues_of_error {before after : List Actual} {arg : Actual}
    {values : List Value} {fault : Fault}
    (hbefore : (actualValues frames canvas before).outcome answers = (.ok values, middle))
    (harg : (arg.value frames canvas).outcome middle = (.error fault, rest)) :
    (actualValues frames canvas (before ++ arg :: after)).outcome answers =
      (.error fault, rest) := by
  induction before generalizing answers values with
  | nil =>
      obtain ⟨-, rfl⟩ : [] = values ∧ answers = middle := by simpa [actualValues] using hbefore
      simp only [List.nil_append, actualValues, Eval.outcome_bind, harg]
  | cons first before ih =>
      obtain ⟨v, next, hv, hbefore⟩ := Eval.outcome_bind_eq_ok.mp hbefore
      obtain ⟨vs, last, hvs, hbefore⟩ := Eval.outcome_bind_eq_ok.mp hbefore
      obtain ⟨-, rfl⟩ : v :: vs = values ∧ last = middle := by simpa using hbefore
      simp only [List.cons_append, actualValues, Eval.outcome_bind, hv, ih hvs]

end

lemma isFinite_unit {x : Float} (h : x.isFinite = true) : (unit x).isFinite = true :=
  Number.isFinite_clamp h rfl rfl

/-- The squared radii of a circle are finite and not negative. -/
lemma radii_of_circle {r : Float} {radii : Point} {answers rest : List Input}
    (h : (circle r).outcome answers = (.ok radii, rest)) :
    AllFinite (pointNumbers radii) ∧ ∀ x ∈ pointNumbers radii, ¬x < 0 := by
  obtain ⟨square, middle, hsquare, h⟩ := Eval.outcome_bind_eq_ok.mp h
  obtain ⟨rfl, -⟩ : (⟨square, square⟩ : Point) = radii ∧ middle = rest := by simpa using h
  unfold finite at hsquare
  split at hsquare
  · next hfinite =>
      obtain ⟨rfl, -⟩ : r * r = square ∧ answers = middle := by simpa using hsquare
      have hsign := Number.not_mul_self_lt_zero r
      exact ⟨by simpa [AllFinite, pointNumbers] using hfinite, by simpa [pointNumbers] using hsign⟩
  · simp at hsquare

/-- The points that a primitive computes for the turtle to go to, or to draw an arc through. -/
def Primitive.endpoints (t : Turtle) : Primitive → List Value → List Point
  | .forward, [.number d] => [t.ahead t.heading d]
  | .back, [.number d] => [t.ahead t.heading (-d)]
  | .home, [] => [.origin]
  | .arc, [.number degrees, .number radius] =>
      (t.arc degrees radius).flatMap fun line => [line.start, line.finish]
  | _, _ => []

inductive Primitive.Performs (p : Primitive) (t : Turtle) (values : List Value) :
    Turtle → List Event → Prop
  | stays {t' : Turtle} (hposition : t'.position = t.position)
      (hcolor : t'.color = t.color ∨ AllFinite (colorNumbers t'.color)) : Performs p t values t' []
  | moves {t' : Turtle} {finish : Point} (hends : p.endpoints t values = [finish])
      (hposition : t'.position = finish) (hcolor : t'.color = t.color) :
      Performs p t values t' (if t.penDown then [.turtle ⟨t.position, finish, t.color⟩] else [])
  | arcs {degrees radius : Float} (hends : p.endpoints t values =
        (t.arc degrees radius).flatMap fun line => [line.start, line.finish]) :
      Performs p t values t ((t.arc degrees radius).map .turtle)
  | prints {text : String} : Performs p t values t [.print text]
  | draws {command : CanvasCommand} (h : (Event.canvas command).Valid) :
      Performs p t values t [.canvas command]

section

variable {p : Primitive} {t t' : Turtle} {values : List Value} {events : List Event}
  {answers rest : List Input}

/-- A primitive that moves the turtle. -/
lemma performs_of_drawn {u : Turtle} {finish : Point}
    (h : drawn (u.moveTo finish) = (t', events)) (hends : p.endpoints t values = [finish])
    (hposition : u.position = t.position) (hcolor : u.color = t.color)
    (hpen : u.penDown = t.penDown) : p.Performs t values t' events := by
  obtain ⟨rfl, rfl⟩ := Prod.mk.inj h
  have hevents : (u.moveTo finish).2.toList.map Event.turtle =
      if t.penDown then [.turtle ⟨t.position, finish, t.color⟩] else [] := by
    rw [Turtle.moveTo, hposition, hcolor, hpen]
    split <;> rfl
  rw [hevents]
  exact .moves hends rfl hcolor

/-- An evaluation that only returns has the result that it returns. -/
lemma result_of_pure {α : Type} {a b : α}
    (h : (pure a : Eval α).outcome answers = (.ok b, rest)) : a = b :=
  Except.ok.inj (Prod.mk.inj h).1

/-- A command without squared radii is valid if its numbers are finite. -/
lemma valid_canvas {command : CanvasCommand} (h : AllFinite (canvasNumbers command))
    (hradii : (Event.canvas command).squaredRadii = []) : (Event.canvas command).Valid :=
  ⟨h, by rw [hradii]; exact List.forall_mem_nil _, by simp⟩

/-- What a primitive does with finite values that fit its slots. -/
lemma performs_of_perform (hfits : List.Forall₂ Value.Fits values p.slots)
    (hvalues : ∀ v ∈ values, v.IsFinite)
    (h : (p.perform t values).outcome answers = (.ok (t', events), rest)) :
    p.Performs t values t' events := by
  have hnumber (x : Float) (hx : .number x ∈ values) : x.isFinite = true :=
    hvalues (.number x) hx
  have hunit (x : Float) (hx : .number x ∈ values) : (unit x).isFinite = true :=
    isFinite_unit (hnumber x hx)
  cases p
  all_goals
    simp only [Primitive.slots, List.forall₂_cons_right_iff, List.forall₂_nil_right_iff,
      Value.fits_num_iff, existsAndEq, true_and] at hfits
  case forward | back =>
    obtain ⟨d, rfl⟩ := hfits
    exact performs_of_drawn (result_of_pure h) rfl rfl rfl rfl
  case home =>
    obtain rfl := hfits
    exact performs_of_drawn (result_of_pure h) rfl rfl rfl rfl
  case left | right =>
    obtain ⟨a, rfl⟩ := hfits
    obtain ⟨rfl, rfl⟩ := Prod.mk.inj (result_of_pure h)
    exact .stays rfl (.inl rfl)
  case penUp | penDown | wait =>
    obtain rfl := hfits
    obtain ⟨rfl, rfl⟩ := Prod.mk.inj (result_of_pure h)
    exact .stays rfl (.inl rfl)
  case setColor =>
    obtain ⟨b, g, r, rfl⟩ := hfits
    obtain ⟨rfl, rfl⟩ := Prod.mk.inj (result_of_pure h)
    have hone : (1 : Float).isFinite = true := rfl
    refine .stays rfl (.inr ?_)
    simp [AllFinite, colorNumbers, hunit, hone]
  case arc =>
    obtain ⟨radius, degrees, rfl⟩ := hfits
    obtain ⟨rfl, rfl⟩ := Prod.mk.inj (result_of_pure h)
    exact .arcs rfl
  case print =>
    obtain ⟨v, -, rfl⟩ := hfits
    obtain ⟨rfl, rfl⟩ := Prod.mk.inj (result_of_pure h)
    exact .prints
  case error =>
    obtain ⟨v, -, rfl⟩ := hfits
    cases h
  case setTextAlign =>
    obtain ⟨v, -, rfl⟩ := hfits
    obtain ⟨side, _, -, h⟩ := Eval.outcome_bind_eq_ok.mp h
    obtain ⟨rfl, rfl⟩ := Prod.mk.inj (result_of_pure h)
    exact .draws (valid_canvas (List.forall_mem_nil _) rfl)
  case fillCircle | frameCircle =>
    obtain ⟨r, y, x, rfl⟩ := hfits
    obtain ⟨radii, _, hradii, h⟩ := Eval.outcome_bind_eq_ok.mp h
    obtain ⟨rfl, rfl⟩ := Prod.mk.inj (result_of_pure h)
    obtain ⟨hfinite, hsign⟩ := radii_of_circle hradii
    refine .draws ⟨List.forall_mem_append.mpr ⟨?_, hfinite⟩, hsign, by simp⟩
    simp [pointNumbers, hnumber]
  case clear =>
    obtain rfl := hfits
    obtain ⟨rfl, rfl⟩ := Prod.mk.inj (result_of_pure h)
    exact .draws (valid_canvas (List.forall_mem_nil _) rfl)
  case setFont =>
    obtain ⟨v, -, rfl⟩ := hfits
    obtain ⟨rfl, rfl⟩ := Prod.mk.inj (result_of_pure h)
    exact .draws (valid_canvas (List.forall_mem_nil _) rfl)
  case setOpacity =>
    obtain ⟨a, rfl⟩ := hfits
    obtain ⟨rfl, rfl⟩ := Prod.mk.inj (result_of_pure h)
    refine .draws (valid_canvas ?_ rfl)
    simp [AllFinite, canvasNumbers, hunit]
  case text =>
    obtain ⟨v, y, x, -, rfl⟩ := hfits
    obtain ⟨rfl, rfl⟩ := Prod.mk.inj (result_of_pure h)
    refine .draws (valid_canvas ?_ rfl)
    simp [AllFinite, canvasNumbers, pointNumbers, hnumber]
  case setFillColor | setLineColor | fillRect | frameRect | line =>
    obtain ⟨w, z, y, x, rfl⟩ := hfits
    obtain ⟨rfl, rfl⟩ := Prod.mk.inj (result_of_pure h)
    refine .draws (valid_canvas ?_ rfl)
    simp [AllFinite, canvasNumbers, pointNumbers, colorNumbers, hnumber, hunit]
  case setPixel =>
    obtain ⟨a, b, g, r, y, x, rfl⟩ := hfits
    obtain ⟨rfl, rfl⟩ := Prod.mk.inj (result_of_pure h)
    refine .draws (valid_canvas ?_ rfl)
    simp [AllFinite, canvasNumbers, pointNumbers, hnumber]

end

namespace Machine

/-- The inputs that an instruction evaluates. A call that would nest too deeply fails before it
looks at them. -/
def inputsOf (m : Machine) : Instr → List Actual
  | .primitive _ args => args
  | .make _ value => [.num value]
  | .call _ args => if m.depthLimit < m.frames.length then [] else args.map .num
  | .jumpUnless cond _ => [.num cond.lhs, .num cond.rhs]
  | .loopStart count _ => [.num count]
  | .ret | .loopNext _ | .halt => []

/-- A primitive evaluates its inputs and performs. -/
lemma execute_primitive {source : String} {m : Machine} (hp : compile source = .ok m.program)
    {p : Primitive} {args : List Actual}
    (hinstr : m.program.code[m.pc]? = some (.primitive p args)) (hwait : p ≠ .wait) :
    m.execute (.primitive p args) = (do
      let values ← actualValues m.frames m.canvas args
      let result ← p.perform m.turtle values
      return { m.presented result with pc := m.pc + 1 }) := by
  obtain ⟨_, -, -, inputs, rfl, hfits⟩ := sound_of_instr hp hinstr
  rw [execute, primitive_eq m hwait hfits, actualValues_lower, bind_map_left, bind_assoc]

/-- The values of the inputs of a primitive fit its slots. -/
lemma fits_of_actualValues {source : String} {m : Machine}
    (hp : compile source = .ok m.program) {p : Primitive} {args : List Actual}
    (hinstr : m.program.code[m.pc]? = some (.primitive p args)) {values : List Value}
    {answers rest : List Input}
    (h : (actualValues m.frames m.canvas args).outcome answers = (.ok values, rest)) :
    List.Forall₂ Value.Fits values p.slots := by
  obtain ⟨_, -, -, inputs, rfl, hfits⟩ := sound_of_instr hp hinstr
  rw [actualValues_lower] at h
  exact inputValues_fits hfits h

lemma bindInputs_eq_map (m : Machine) {params : List String} {args : List Expr}
    (h : args.length = params.length) :
    m.bindInputs (params.zip args) = (fun values => params.zip (values.filterMap number?)) <$>
      actualValues m.frames m.canvas (args.map .num) := by
  induction params generalizing args with
  | nil =>
      obtain rfl := List.length_eq_zero_iff.mp h
      rfl
  | cons param params ih =>
      obtain ⟨e, rest, rfl⟩ := List.exists_cons_of_length_eq_add_one h
      have hrest : rest.length = params.length := by simpa using h
      simp only [List.zip_cons_cons, bindInputs, ih hrest, List.map_cons, actualValues,
        Actual.value, map_bind, bind_assoc, pure_bind, bind_map_left, map_pure]
      rfl

/-- Act on the number of a list of one. No instruction has other inputs where it takes one
number. -/
def onNumber (m : Machine) (act : Float → Eval Machine) : List Value → Eval Machine
  | [.number x] => act x
  | _ => pure m

/-- Act on the numbers of a list of two. -/
def onNumbers (m : Machine) (act : Float → Float → Eval Machine) : List Value → Eval Machine
  | [.number x, .number y] => act x y
  | _ => pure m

/-- An instruction acts on the values of its inputs, and a fault in one of them is a fault of
the instruction. -/
lemma execute_eq_bind {source : String} {m : Machine} (hp : compile source = .ok m.program)
    {instr : Instr} (hinstr : m.program.code[m.pc]? = some instr) :
    ∃ act : List Value → Eval Machine,
      m.execute instr = actualValues m.frames m.canvas (m.inputsOf instr) >>= act := by
  cases instr with
  | primitive p args =>
      by_cases hwait : p = .wait
      · subst hwait
        obtain rfl : args = [] := List.forall₂_nil_right_iff.mp (primitive_of_compile hp hinstr)
        exact ⟨fun _ => m.execute (.primitive .wait []), rfl⟩
      · exact ⟨_, execute_primitive hp hinstr hwait⟩
  | make name value =>
      refine ⟨m.onNumber fun x =>
        pure { m with frames := assign name x m.frames, pc := m.pc + 1 }, ?_⟩
      simp only [execute, inputsOf, actualValues, Actual.value, bind_assoc, pure_bind]
      rfl
  | call i args =>
      obtain ⟨proc, hproc, hlength⟩ := call_of_compile hp hinstr
      by_cases hdepth : m.depthLimit < m.frames.length
      · refine ⟨fun _ => m.execute (.call i args), ?_⟩
        simp only [inputsOf, if_pos hdepth, actualValues, pure_bind]
      · refine ⟨fun values => pure { m with
          frames := ⟨(proc.params.zip (values.filterMap number?)).reverse, [], m.pc + 1⟩ :: m.frames
          pc := proc.entry }, ?_⟩
        simp only [execute, inputsOf, if_neg hdepth, hproc, call, bindInputs_eq_map m hlength,
          bind_map_left]
  | ret => exact ⟨fun _ => m.execute .ret, rfl⟩
  | jumpUnless cond target =>
      refine ⟨m.onNumbers fun x y =>
        pure { m with pc := if cond.comparison.holds x y then m.pc + 1 else target }, ?_⟩
      simp only [execute, inputsOf, actualValues, Actual.value, bind_assoc, pure_bind]
      rfl
  | loopStart count exit =>
      refine ⟨m.onNumber fun x => m.startLoop x exit, ?_⟩
      simp only [execute, inputsOf, actualValues, Actual.value, bind_assoc, pure_bind]
      rfl
  | loopNext body => exact ⟨fun _ => m.execute (.loopNext body), rfl⟩
  | halt => exact ⟨fun _ => m.execute .halt, rfl⟩

/-- No variable is new, and turtle and events are the same. -/
structure Calm (m m' : Machine) : Prop where
  scopes : scopesOf m'.frames ⊆ scopesOf m.frames
  turtle : m'.turtle = m.turtle
  shown : m'.shown = m.shown

lemma calm_of_eq {m m' : Machine} (hframes : m'.frames = m.frames)
    (hturtle : m'.turtle = m.turtle) (hshown : m'.shown = m.shown) : Calm m m' :=
  ⟨by rw [hframes]; exact List.Subset.refl _, hturtle, hshown⟩

lemma calm_withLoops (m : Machine) (change : List Nat → List Nat) (pc : Nat) :
    Calm m (m.withLoops change pc) := by
  unfold withLoops
  split
  · next f outer hframes => exact ⟨by rw [hframes]; exact List.Subset.refl _, rfl, rfl⟩
  · exact calm_of_eq rfl rfl rfl

lemma calm_leave (m : Machine) : Calm m m.leave := by
  unfold leave
  split
  · next f g outer hframes => exact ⟨by rw [hframes]; exact List.subset_cons_self _ _, rfl, rfl⟩
  · exact calm_of_eq rfl rfl rfl

lemma calm_nextTurn (m : Machine) (body : Nat) : Calm m (m.nextTurn body) := by
  unfold nextTurn
  split
  · split <;> exact calm_withLoops m _ _
  · exact calm_of_eq rfl rfl rfl

/-- What a step can do to variables, turtle and events. -/
inductive Effect (m m' : Machine) : Prop
  | calm (h : Calm m m')
  | assigns {name : String} {x : Float} (hx : x.isFinite = true)
      (hframes : m'.frames = assign name x m.frames) (hturtle : m'.turtle = m.turtle)
      (hshown : m'.shown = m.shown)
  | calls {vars : Scope} (hvars : ∀ v ∈ vars, v.2.isFinite = true)
      (hscopes : scopesOf m'.frames = vars :: scopesOf m.frames)
      (hturtle : m'.turtle = m.turtle) (hshown : m'.shown = m.shown)
  | performs {p : Primitive} {args : List Actual} {values : List Value} {events : List Event}
      {middle : List Input} (hidle : m.IsIdle)
      (hinstr : m.program.code[m.pc]? = some (.primitive p args))
      (hvalues : (actualValues m.frames m.canvas args).outcome m.answers = (.ok values, middle))
      (hperforms : p.Performs m.turtle values m'.turtle events)
      (hframes : m'.frames = m.frames) (hshown : m'.shown = events.reverse ++ m.shown)
  | fails {fault : Fault} (hframes : m'.frames = m.frames) (hturtle : m'.turtle = m.turtle)
      (hshown : m'.shown = m.faultEvent fault :: m.shown)

lemma isFinite_of_bindInputs {m : Machine} {inputs : List (String × Expr)} {vars : Scope}
    {answers rest : List Input} (h : (m.bindInputs inputs).outcome answers = (.ok vars, rest)) :
    ∀ v ∈ vars, v.2.isFinite = true := by
  induction inputs generalizing answers vars with
  | nil =>
      obtain ⟨rfl, -⟩ : [] = vars ∧ answers = rest := by simpa [bindInputs] using h
      exact List.forall_mem_nil _
  | cons input inputs ih =>
      obtain ⟨x, middle, hx, h⟩ := Eval.outcome_bind_eq_ok.mp h
      obtain ⟨bound, last, hbound, h⟩ := Eval.outcome_bind_eq_ok.mp h
      obtain ⟨rfl, rfl⟩ : (input.1, x) :: bound = vars ∧ last = rest := by simpa using h
      exact List.forall_mem_cons.mpr ⟨isFinite_of_eval hx, ih hbound⟩

variable {source : String} {m : Machine}

/-- The effect of an instruction that meets no fault. -/
lemma effect_execute (hp : compile source = .ok m.program) (hidle : m.IsIdle) {instr : Instr}
    (hinstr : m.program.code[m.pc]? = some instr) {next : Machine} {answers : List Input}
    (h : (m.execute instr).outcome m.answers = (.ok next, answers)) : Effect m next := by
  have hdoes := execute_eq_ok h
  cases instr with
  | primitive p args =>
      by_cases hwait : p = .wait
      · subst hwait
        obtain rfl : args = [] := List.forall₂_nil_right_iff.mp (primitive_of_compile hp hinstr)
        have hwaits : (m.execute (.primitive .wait [])).outcome m.answers =
            (.ok { m.suspended with pc := m.pc + 1 }, m.answers) := rfl
        obtain rfl := Except.ok.inj (Prod.mk.inj (hwaits.symm.trans h)).1
        exact .calm (calm_of_eq rfl rfl rfl)
      · rw [execute_primitive hp hinstr hwait] at h
        obtain ⟨values, middle, hvalues, h⟩ := Eval.outcome_bind_eq_ok.mp h
        obtain ⟨⟨turtle, events⟩, rest, hperform, h⟩ := Eval.outcome_bind_eq_ok.mp h
        obtain ⟨rfl, rfl⟩ : { m.presented (turtle, events) with pc := m.pc + 1 } = next ∧
            rest = answers := by simpa using h
        have hperforms := performs_of_perform (fits_of_actualValues hp hinstr hvalues)
          (isFinite_of_actualValues hvalues) hperform
        exact .performs hidle hinstr hvalues hperforms rfl rfl
  | make name value =>
      obtain ⟨x, middle, hx, h⟩ := Eval.outcome_bind_eq_ok.mp h
      obtain ⟨rfl, -⟩ : { m with frames := assign name x m.frames, pc := m.pc + 1 } = next ∧
          middle = answers := by simpa using h
      exact .assigns (isFinite_of_eval hx) rfl rfl rfl
  | call i args =>
      obtain ⟨proc, hproc, -⟩ := call_of_compile hp hinstr
      have hdepth : ¬m.depthLimit < m.frames.length := Nat.not_lt.mpr hdoes.1
      simp only [execute, if_neg hdepth, hproc] at h
      obtain ⟨vars, middle, hvars, h⟩ := Eval.outcome_bind_eq_ok.mp h
      obtain ⟨rfl, -⟩ : { m with
          frames := ⟨vars.reverse, [], m.pc + 1⟩ :: m.frames, pc := proc.entry } = next ∧
          middle = answers := by simpa using h
      have hfinite (v) (hv : v ∈ vars.reverse) : v.2.isFinite = true :=
        isFinite_of_bindInputs hvars v (List.mem_reverse.mp hv)
      exact .calls hfinite rfl rfl rfl
  | ret =>
      obtain rfl := hdoes
      exact .calm (calm_leave m)
  | jumpUnless cond target => obtain rfl | rfl := hdoes <;> exact .calm (calm_of_eq rfl rfl rfl)
  | loopStart count exit =>
      obtain rfl | ⟨n, rfl⟩ := hdoes
      · exact .calm (calm_of_eq rfl rfl rfl)
      · exact .calm (calm_withLoops m _ _)
  | loopNext body =>
      obtain rfl := hdoes
      exact .calm (calm_nextTurn m body)
  | halt =>
      obtain rfl := hdoes
      exact .calm (calm_of_eq rfl rfl rfl)

/-- Whether the last step has yielded does not matter, and neither do the answers that are
left. -/
lemma Effect.of_ready {next : Machine} (h : Effect { m with yielded := false } next)
    (answers : List Input) : Effect m { next with answers } := by
  cases h with
  | calm h => exact .calm ⟨h.scopes, h.turtle, h.shown⟩
  | assigns hx hframes hturtle hshown => exact .assigns hx hframes hturtle hshown
  | calls hvars hscopes hturtle hshown => exact .calls hvars hscopes hturtle hshown
  | performs hidle hinstr hvalues hperforms hframes hshown =>
      exact .performs hidle hinstr hvalues hperforms hframes hshown
  | fails hframes hturtle hshown => exact .fails hframes hturtle hshown

/-- The effect of a step. -/
lemma effect_step (hp : compile source = .ok m.program) : Effect m m.step := by
  by_cases hidle : m.IsIdle
  · rw [step_of_isIdle hidle, advance_eq]
    split
    · exact .calm (calm_of_eq rfl rfl rfl)
    · next instr hinstr =>
        split
        · next next answers hok =>
            exact (effect_execute (m := { m with yielded := false }) hp hidle hinstr hok).of_ready
              answers
        · exact .fails rfl rfl rfl
  · have hsame := settle_step_of_not_isIdle hidle
    exact .calm (calm_of_eq (congrArg frames hsame :) (congrArg turtle hsame :)
      (congrArg shown hsame :))

/-- A step that comes to an input with a fault fails with it. -/
lemma step_of_input_error (hp : compile source = .ok m.program) (hidle : m.IsIdle) {instr : Instr}
    (hinstr : m.program.code[m.pc]? = some instr) {before after : List Actual} {arg : Actual}
    {values : List Value} {fault : Fault} {middle rest : List Input}
    (hinputs : m.inputsOf instr = before ++ arg :: after)
    (hbefore : (actualValues m.frames m.canvas before).outcome m.answers = (.ok values, middle))
    (harg : (arg.value m.frames m.canvas).outcome middle = (.error fault, rest)) :
    m.step = { m with
      yielded := false
      status := .halted
      answers := rest
      shown := m.faultEvent fault :: m.shown } := by
  apply step_of_execute_eq_error hidle hinstr
  obtain ⟨act, hact⟩ := execute_eq_bind (m := { m with yielded := false }) hp hinstr
  have hfault : (actualValues m.frames m.canvas (m.inputsOf instr)).outcome m.answers =
      (.error fault, rest) := by
    rw [hinputs]
    exact outcome_actualValues_of_error hbefore harg
  rw [hact]
  exact Eval.outcome_bind_eq_error.mpr (.inl hfault)

end Machine

open Machine (Calm calm_of_eq)

/-- A machine in order still has the program that was compiled. -/
lemma InOrder.compiled {source : String} {p : Program} {limit : Nat} {m : Machine}
    (h : InOrder p limit m) (hp : compile source = .ok p) : compile source = .ok m.program := by
  rw [h.program, hp]

lemma calm_refill (m : Machine) (inputs : List Input) : Calm m (m.refill inputs) := by
  induction inputs generalizing m with
  | nil => exact calm_of_eq rfl rfl rfl
  | cons input rest ih =>
      cases input <;> exact ⟨(ih _).scopes, (ih _).turtle, (ih _).shown⟩

/-- An operation is a step, or starts the program again, or leaves everything calm. -/
lemma HostCall.apply_cases (call : HostCall) (m : Machine) :
    call = .step ∨ Calm m (call.apply m) ∨
      (scopesOf (call.apply m).frames ⊆ [[]] ∧ (call.apply m).turtle = .initial ∧
        (call.apply m).shown = m.shown) := by
  cases call with
  | step => exact .inl rfl
  | reset =>
      have hcalm : Calm _ m.reset := calm_refill _ m.supply
      exact .inr (.inr ⟨hcalm.scopes, hcalm.turtle, hcalm.shown⟩)
  | stop => exact .inr (.inl (calm_of_eq rfl rfl rfl))
  | setStatus status => exact .inr (.inl (calm_of_eq rfl rfl rfl))
  | enqueue event data => exact .inr (.inl (calm_of_eq rfl rfl rfl))
  | setTimer timer => exact .inr (.inl (calm_of_eq rfl rfl rfl))
  | bindCanvas size => exact .inr (.inl (calm_of_eq rfl rfl rfl))

end LogoStudio.Logo
