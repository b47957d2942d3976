import LogoStudio.Proofs.Event.RoundTrip
import LogoStudio.Proofs.Logo.Effects

/-!
# Numbers stay finite

Only finite numbers get into variables and into the geometry of the canvas, whatever a host
does with the machine of a compiled program. Numbers come from literals, which may be too long
to be read as finite ones, from answers, from arithmetic and from squaring a radius, and each of
these is checked before its value is used. So the record of a canvas command is always read
back, and an expression in which some number is too big ends the run.
-/
namespace LogoStudio.Logo

open Machine (Calm Effect)

def AllVarsFinite (scopes : List Scope) : Prop :=
  ∀ scope ∈ scopes, ∀ v ∈ scope, v.2.isFinite = true

lemma isFinite_replaceVar {name : String} {x : Float} (hx : x.isFinite = true) {vars : Scope}
    (h : ∀ v ∈ vars, v.2.isFinite = true) : ∀ v ∈ replaceVar name x vars, v.2.isFinite = true := by
  fun_induction replaceVar name x vars with
  | case1 => exact h
  | case2 y rest => exact List.forall_mem_cons.mpr ⟨hx, (List.forall_mem_cons.mp h).2⟩
  | case3 n y rest hne ih =>
      obtain ⟨hy, hrest⟩ := List.forall_mem_cons.mp h
      exact List.forall_mem_cons.mpr ⟨hy, ih hrest⟩

lemma allVarsFinite_assign {name : String} {x : Float} (hx : x.isFinite = true)
    {frames : List Frame} (h : AllVarsFinite (scopesOf frames)) :
    AllVarsFinite (scopesOf (assign name x frames)) := by
  induction frames with
  | nil => exact h
  | cons f outer ih =>
      obtain ⟨hf, houter⟩ := List.forall_mem_cons.mp h
      unfold assign
      split
      · exact List.forall_mem_cons.mpr ⟨isFinite_replaceVar hx hf, houter⟩
      · cases outer with
        | nil =>
            exact List.forall_mem_cons.mpr ⟨List.forall_mem_cons.mpr ⟨hx, hf⟩, houter⟩
        | cons g rest => exact List.forall_mem_cons.mpr ⟨hf, ih houter⟩

/-- A primitive draws only what a record can hold. -/
lemma Primitive.Performs.valid {p : Primitive} {t t' : Turtle} {values : List Value}
    {events : List Event} (h : p.Performs t values t' events) {command : CanvasCommand}
    (hcommand : .canvas command ∈ events) : (Event.canvas command).Valid := by
  cases h with
  | stays => cases hcommand
  | moves => split at hcommand <;> simp at hcommand
  | arcs => simp at hcommand
  | prints => simp at hcommand
  | draws hvalid =>
      obtain rfl := Event.canvas.inj (List.mem_singleton.mp hcommand)
      exact hvalid

/-- The variables are finite, and records can hold the canvas commands that were shown. -/
structure Machine.HoldsFinite (m : Machine) : Prop where
  vars : AllVarsFinite (scopesOf m.frames)
  commands : ∀ command, .canvas command ∈ m.shown → (Event.canvas command).Valid

namespace Machine.HoldsFinite

variable {source : String} {p : Program} {limit : Nat} {m m' : Machine}

lemma of_calm (h : m.HoldsFinite) (hcalm : Calm m m') : m'.HoldsFinite := by
  refine ⟨fun scope hscope => h.vars scope (hcalm.scopes hscope), ?_⟩
  rw [hcalm.shown]
  exact h.commands

/-- A step keeps numbers finite. -/
lemma of_effect (h : m.HoldsFinite) (heffect : Effect m m') : m'.HoldsFinite := by
  cases heffect with
  | calm hcalm => exact h.of_calm hcalm
  | assigns hx hframes _ hshown =>
      constructor
      · rw [hframes]
        exact allVarsFinite_assign hx h.vars
      · rw [hshown]
        exact h.commands
  | calls hvars hscopes _ hshown =>
      constructor
      · rw [hscopes]
        exact List.forall_mem_cons.mpr ⟨hvars, h.vars⟩
      · rw [hshown]
        exact h.commands
  | performs _ _ _ hperforms hframes hshown =>
      constructor
      · rw [hframes]
        exact h.vars
      · intro command hcommand
        rw [hshown, List.mem_append, List.mem_reverse] at hcommand
        obtain hnew | hold := hcommand
        · exact hperforms.valid hnew
        · exact h.commands command hold
  | fails hframes _ hshown =>
      constructor
      · rw [hframes]
        exact h.vars
      · intro command hcommand
        rw [hshown] at hcommand
        obtain hfault | hold := List.mem_cons.mp hcommand
        · cases hfault
        · exact h.commands command hold

lemma apply (hp : compile source = .ok m.program) (h : m.HoldsFinite) (call : HostCall) :
    (call.apply m).HoldsFinite := by
  obtain rfl | hcalm | ⟨hscopes, -, hshown⟩ := call.apply_cases m
  · exact h.of_effect (Machine.effect_step hp)
  · exact h.of_calm hcalm
  · constructor
    · intro scope hscope
      obtain rfl := List.mem_singleton.mp (hscopes hscope)
      exact List.forall_mem_nil _
    · rw [hshown]
      exact h.commands

/-- Whatever a host does, numbers stay finite. -/
lemma after (hp : compile source = .ok p) (supply : List Input) (limit : Nat)
    (calls : List HostCall) :
    (calls.foldl HostCall.apply (.new p supply limit)).HoldsFinite := by
  have hrun (m : Machine) (horder : InOrder p limit m) (h : m.HoldsFinite) :
      (calls.foldl HostCall.apply m).HoldsFinite := by
    induction calls generalizing m with
    | nil => exact h
    | cons call rest ih => exact ih _ (horder.apply hp call) (h.apply (horder.compiled hp) call)
  have hnew : (Machine.new p supply limit).HoldsFinite :=
    ⟨by simp [AllVarsFinite, scopesOf, Machine.new, Frame.empty], by simp [Machine.new]⟩
  exact hrun _ (InOrder.after hp supply limit []) hnew

end Machine.HoldsFinite

/-- How a machine keeps its numbers finite. -/
structure Machine.StaysFinite (m : Machine) : Prop where
  vars : ∀ f ∈ m.frames, ∀ v ∈ f.vars, v.2.isFinite = true
  /-- The numbers of canvas commands are finite, and their records are read back. -/
  commands : ∀ command, .canvas command ∈ m.events →
    (∀ x ∈ Event.canvasNumbers command, x.isFinite = true) ∧
      Event.ofRecord (Event.canvas command).record = .ok (some (.canvas command))
  /-- An expression has a value exactly if no node on the way to the value breaks. -/
  values : ∀ e answers x rest, (m.eval e).outcome answers = (.ok x, rest) ↔
    (e.plain m.frames m.canvas).outcome answers = (.ok x, rest) ∧
      Expr.Unbroken m.frames m.canvas e answers
  /-- A step that comes to an expression in which a node breaks shows a message and ends the
  run. Nothing else changes. -/
  faults : ∀ instr before e after values answers, m.IsIdle →
    m.program.code[m.pc]? = some instr → m.inputsOf instr = before ++ .num e :: after →
    (actualValues m.frames m.canvas before).outcome m.answers = (.ok values, answers) →
    ¬Expr.Unbroken m.frames m.canvas e answers →
    ∃ fault rest, fault.IsArithmetic ∧ m.step = { m with
      yielded := false
      status := .halted
      answers := rest
      shown := m.faultEvent fault :: m.shown }

/-- Whatever a host does with the machine of a compiled program, its variables and the canvas
commands that it shows have finite numbers, and an expression with a number that is not finite,
or with a division by zero, ends in a message. -/
theorem staysFinite_of_compile {source : String} {p : Program} (hp : compile source = .ok p)
    (supply : List Input) (limit : Nat) (calls : List HostCall) :
    (calls.foldl HostCall.apply (.new p supply limit)).StaysFinite := by
  have horder := InOrder.after hp supply limit calls
  have hfinite := Machine.HoldsFinite.after hp supply limit calls
  generalize calls.foldl HostCall.apply (.new p supply limit) = m at horder hfinite
  constructor
  case vars =>
    intro f hf
    exact hfinite.vars f.vars (List.mem_map_of_mem hf)
  case commands =>
    intro command hcommand
    have hvalid := hfinite.commands command (List.mem_reverse.mp hcommand)
    exact ⟨hvalid.finite, Event.ofRecord_record hvalid⟩
  case values => exact fun e answers x rest => Expr.outcome_eval_eq_ok_iff
  case faults =>
    intro instr before e after values answers hidle hinstr hinputs hbefore hbroken
    obtain ⟨fault, rest, hfault, heval⟩ := Expr.outcome_eval_of_not_unbroken hbroken
    have hvalue : ((Actual.num e).value m.frames m.canvas).outcome answers =
        (.error fault, rest) := Eval.outcome_bind_eq_error.mpr (.inl heval)
    exact ⟨fault, rest, hfault,
      Machine.step_of_input_error (horder.compiled hp) hidle hinstr hinputs hbefore hvalue⟩

/-- A variable that is squared until it is too big, and rectangles as wide as it is. -/
def squaringSource : String :=
  "make \"x 2\nrepeat 10 [make \"x :x * :x\nfillrect 0 0 :x 1]"

/-- Nine rectangles are drawn before the run ends with a message. -/
theorem staysFinite_of_squaring_program :
    ∃ p, compile squaringSource = .ok p ∧
      let m := (.reset :: List.replicate 30 .step).foldl HostCall.apply (.new p [] 1)
      m.events.length = 10 ∧
        m.events.getLast? = some (.runtimeError "Line 2: number too big") ∧ m.StaysFinite := by
  have hshown : (compile squaringSource).toOption.map (fun p =>
      let m : Machine := (.reset :: List.replicate 30 .step).foldl HostCall.apply (.new p [] 1)
      (m.events.length, m.events.getLast?)) =
        some (10, some (.runtimeError "Line 2: number too big")) := by decide +kernel
  cases hp : compile squaringSource with
  | error problems =>
      rw [hp] at hshown
      cases hshown
  | ok p =>
      rw [hp] at hshown
      obtain ⟨hlength, hlast⟩ := Prod.mk.inj (Option.some.inj hshown)
      exact ⟨p, rfl, hlength, hlast, staysFinite_of_compile hp [] 1 _⟩

end LogoStudio.Logo
