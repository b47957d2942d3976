import LogoStudio.Proofs.Logo.Progress

/-!
# Faults leave no work half done

The machine executes an instruction as a whole or not at all: a fault gives back the machine as it
was before. Here instructions are executed in place instead, as a host would do it with one machine
that it changes bit by bit: every change is made where it stands, and a fault finds the machine
with all the changes made so far. Both come to the same, for every instruction and every machine.
So no instruction changes anything before the last point where it can fail, apart from answers that
it takes from the front of their queue.
-/
namespace LogoStudio.Logo

namespace Eval

variable {α β : Type}

/-- Whatever comes of an evaluation, it has taken some answers from the front. -/
def TakesFront (x : Eval α) : Prop := ∀ answers, (x.outcome answers).2 <:+ answers

lemma takesFront_pure (a : α) : TakesFront (pure a : Eval α) :=
  fun answers => List.suffix_refl answers

lemma takesFront_throw (fault : Fault) : TakesFront (throw fault : Eval α) :=
  fun answers => List.suffix_refl answers

lemma TakesFront.bind {x : Eval α} {f : α → Eval β} (hx : x.TakesFront)
    (hf : ∀ a, (f a).TakesFront) : TakesFront (x >>= f) := by
  intro answers
  have hfirst := hx answers
  rw [outcome_bind]
  rcases houtcome : x.outcome answers with ⟨fault | a, rest⟩
  · rwa [houtcome] at hfirst
  · rw [houtcome] at hfirst
    exact (hf a rest).trans hfirst

end Eval

open Eval

lemma takesFront_finite (x : Float) : (finite x).TakesFront := by
  unfold finite
  split
  · exact takesFront_pure x
  · exact takesFront_throw _

lemma takesFront_nextAnswer (q : Query) : (nextAnswer q).TakesFront := by
  intro answers
  cases answers with
  | nil => exact List.suffix_refl _
  | cons answer rest => exact List.suffix_cons answer rest

lemma takesFront_query (canvas : Option Size) (q : Query) : (q.value canvas).TakesFront := by
  cases q with
  | prompt =>
      refine (takesFront_nextAnswer _).bind fun answer => ?_
      dsimp only
      split
      · split
        · exact takesFront_pure _
        · exact takesFront_throw _
      · exact takesFront_throw _
  | confirm =>
      refine (takesFront_nextAnswer _).bind fun answer => ?_
      split
      · exact takesFront_pure _
      · exact takesFront_throw _
  | canvasWidth =>
      cases canvas with
      | none => exact takesFront_throw _
      | some size => exact takesFront_pure _
  | canvasHeight =>
      cases canvas with
      | none => exact takesFront_throw _
      | some size => exact takesFront_pure _

lemma takesFront_eval (frames : List Frame) (canvas : Option Size) (e : Expr) :
    (e.eval frames canvas).TakesFront := by
  induction e with
  | num x => exact takesFront_finite x
  | var name =>
      unfold Expr.eval
      split
      · exact takesFront_finite _
      · exact takesFront_throw _
  | neg e ih => exact ih.bind fun x => takesFront_finite _
  | op l o r ihl ihr =>
      refine ihl.bind fun x => ihr.bind fun y => ?_
      dsimp only
      split
      · exact (takesFront_throw _).bind fun _ => takesFront_finite _
      · exact takesFront_finite _
  | query q => exact (takesFront_query canvas q).bind fun x => takesFront_finite x

namespace Machine

lemma takesFront_numberInputs (m : Machine) (p : Primitive) (args : List (Actual × Slot)) :
    (m.numberInputs p args).TakesFront := by
  fun_induction numberInputs m p args with
  | case1 => exact takesFront_pure _
  | case2 arg rest ih =>
      refine TakesFront.bind ?_ fun x => ih.bind fun xs => takesFront_pure _
      cases arg with
      | num e => exact takesFront_eval m.frames m.canvas e
      | word w => exact takesFront_throw _
  | case3 first rest hfirst ih => exact ih

lemma takesFront_textInput (m : Machine) (p : Primitive) (args : List Actual) (place : Nat) :
    (m.textInput p args place).TakesFront := by
  unfold textInput
  split
  · exact (takesFront_eval m.frames m.canvas _).bind fun x => takesFront_pure _
  · exact takesFront_pure _
  · exact takesFront_throw _

lemma takesFront_bindInputs (m : Machine) (inputs : List (String × Expr)) :
    (m.bindInputs inputs).TakesFront := by
  fun_induction bindInputs m inputs with
  | case1 => exact takesFront_pure _
  | case2 name e rest ih =>
      exact (takesFront_eval m.frames m.canvas e).bind fun x => ih.bind fun xs => takesFront_pure _

lemma takesFront_circle (r : Float) : (circle r).TakesFront :=
  (takesFront_finite _).bind fun _ => takesFront_pure _

lemma takesFront_align (p : Primitive) (word : String) : (align p word).TakesFront := by
  unfold align
  split
  all_goals first
    | exact takesFront_pure _
    | exact takesFront_throw _

end Machine

/-- Work on a machine in place: what was done before a fault stays done. -/
abbrev Act := ExceptT Fault (StateM Machine)

namespace Act

variable {α β : Type}

/-- What comes of work on a machine, and the machine as it is then. -/
def outcome (x : Act α) (m : Machine) : Except Fault α × Machine := x.run.run m

/-- Evaluate something on the answers of the machine; answers taken are gone. -/
def evaluate (x : Machine → Eval α) : Act α :=
  ExceptT.mk fun m =>
    let (result, answers) := (x m).outcome m.answers
    (result, { m with answers })

def change (f : Machine → Machine) : Act Unit := modify f

@[simp] lemma outcome_change (f : Machine → Machine) (m : Machine) :
    outcome (change f) m = (.ok (), f m) := rfl

lemma outcome_bind (x : Act α) (f : α → Act β) (m : Machine) :
    outcome (x >>= f) m =
      match outcome x m with
      | (.ok a, next) => outcome (f a) next
      | (.error fault, next) => (.error fault, next) := by
  rcases h : outcome x m with ⟨_ | a, next⟩ <;>
    simp only [outcome, ExceptT.run_bind, StateT.run_bind] at * <;> rw [h] <;> rfl

open Machine (unit byte circle align spaced suspended)

def primitive (p : Primitive) (args : List Actual) : Act Unit := do
  let numbers ← evaluate fun m => m.numberInputs p (args.zip p.slots)
  match numbers, p with
  | [d], .forward => change fun m => m.moved (m.turtle.forward d)
  | [d], .back => change fun m => m.moved (m.turtle.back d)
  | [a], .left => change fun m => { m with turtle := m.turtle.left a }
  | [a], .right => change fun m => { m with turtle := m.turtle.right a }
  | [], .penUp => change fun m => { m with turtle.penDown := false }
  | [], .penDown => change fun m => { m with turtle.penDown := true }
  | [], .home => change fun m => m.moved m.turtle.home
  | [r, g, b], .setColor =>
      change fun m => { m with turtle.color := ⟨unit r, unit g, unit b, 1⟩ }
  | [degrees, radius], .arc =>
      change fun m => (m.turtle.arc degrees radius).foldl (fun m line => m.emit (.turtle line)) m
  | [], .wait => change suspended
  | _, .print => do
      let s ← evaluate fun m => m.textInput p args 0
      change (·.emit (.print s))
  | _, .error => do
      let s ← evaluate fun m => m.textInput p args 0
      throw (.user s)
  | [], .clear => change (·.draw .clear)
  | [r, g, b, a], .setFillColor =>
      change (·.draw (.setFillColor ⟨unit r, unit g, unit b, unit a⟩))
  | [r, g, b, a], .setLineColor =>
      change (·.draw (.setLineColor ⟨unit r, unit g, unit b, unit a⟩))
  | [a], .setOpacity => change (·.draw (.setOpacity (unit a)))
  | [], .setFont => do
      let s ← evaluate fun m => m.textInput p args 0
      change (·.draw (.setFont (spaced s)))
  | [], .setTextAlign => do
      let s ← evaluate fun m => m.textInput p args 0
      let side ← evaluate fun _ => align p s
      change (·.draw (.setTextAlign side))
  | [x, y, x', y'], .fillRect => change (·.draw (.fillRect ⟨x, y⟩ ⟨x', y'⟩))
  | [x, y, x', y'], .frameRect => change (·.draw (.frameRect ⟨x, y⟩ ⟨x', y'⟩))
  | [x, y, r], .fillCircle => do
      let radii ← evaluate fun _ => circle r
      change (·.draw (.fillEllipse ⟨x, y⟩ radii))
  | [x, y, r], .frameCircle => do
      let radii ← evaluate fun _ => circle r
      change (·.draw (.frameEllipse ⟨x, y⟩ radii))
  | [x, y, x', y'], .line => change (·.draw (.line ⟨x, y⟩ ⟨x', y'⟩))
  | [x, y], .text => do
      let s ← evaluate fun m => m.textInput p args 2
      change (·.draw (.text s ⟨x, y⟩))
  | [x, y, r, g, b, a], .setPixel =>
      change (·.draw (.setPixel ⟨x, y⟩ ⟨byte r, byte g, byte b, byte a⟩))
  | _, _ => throw (.wrongInputs p.name args.length)

/-- An instruction in place. Where to go on is written down last. -/
def instruction : Instr → Act Unit
  | .primitive p args => do
      let here := (← get).pc
      primitive p args
      change fun m => { m with pc := here + 1 }
  | .make name value => do
      let x ← evaluate fun m => m.eval value
      change fun m => { m with frames := assign name x m.frames }
      change fun m => { m with pc := m.pc + 1 }
  | .call proc args => do
      let m ← get
      if m.depthLimit < m.frames.length then throw (.tooManyCalls m.depthLimit)
      else match m.program.procs[proc]? with
        | some target =>
            let bound ← evaluate fun m => m.bindInputs (target.params.zip args)
            change fun m => { m with frames := ⟨bound.reverse, [], m.pc + 1⟩ :: m.frames }
            change fun m => { m with pc := target.entry }
        | none => change fun m => { m with status := .halted }
  | .ret => change Machine.leave
  | .jumpUnless cond target => do
      let x ← evaluate fun m => m.eval cond.lhs
      let y ← evaluate fun m => m.eval cond.rhs
      change fun m => { m with pc := if cond.comparison.holds x y then m.pc + 1 else target }
  | .loopStart count exit => do
      let n ← evaluate fun m => m.eval count
      if n < 0 ∨ !Number.isWhole n then throw (.badRepeatCount n)
      else if n == 0 then change fun m => { m with pc := exit }
      else change fun m => m.withLoops (Number.toNat64 n :: ·) (m.pc + 1)
  | .loopNext body => change fun m => m.nextTurn body
  | .halt => change fun m => { m with status := .halted }

end Act

/-- The machine after an evaluation of what it becomes. A fault leaves it as it was, with the
answers that are left. -/
def Machine.kept (m : Machine) : Except Fault Machine × List Input → Except Fault Unit × Machine
  | (.ok next, answers) => (.ok (), { next with answers })
  | (.error fault, answers) => (.error fault, { m with answers })

/-- Work in place on the machine `m` comes to the same as an evaluation of what `m` becomes, and
takes answers from the front only. -/
structure InPlace (m : Machine) (work : Act Unit) (x : Eval Machine) : Prop where
  outcome_eq : ∀ answers, work.outcome { m with answers } = m.kept (x.outcome answers)
  takesFront : x.TakesFront

/-- A change that neither reads nor changes the answers. -/
def IsBlind (f : Machine → Machine) : Prop :=
  ∀ m answers, f { m with answers } = { f m with answers }

namespace InPlace

variable {α : Type} {m : Machine}

lemma change {f : Machine → Machine} (h : IsBlind f) : InPlace m (Act.change f) (pure (f m)) := by
  refine ⟨fun answers => ?_, takesFront_pure _⟩
  rw [Act.outcome_change, h]
  rfl

lemma throw (fault : Fault) : InPlace m (throw fault) (throw fault) :=
  ⟨fun _ => rfl, takesFront_throw fault⟩

lemma evaluate_bind {x : Machine → Eval α} {f : α → Act Unit} {g : α → Eval Machine}
    (hblind : ∀ answers, x { m with answers } = x m) (hx : (x m).TakesFront)
    (h : ∀ a, InPlace m (f a) (g a)) : InPlace m (Act.evaluate x >>= f) (x m >>= g) := by
  refine ⟨fun answers => ?_, hx.bind fun a => (h a).takesFront⟩
  have houtcome : (Act.evaluate x).outcome { m with answers } =
      (((x m).outcome answers).1, { m with answers := ((x m).outcome answers).2 }) := by
    rw [← hblind answers]
    rfl
  rw [Act.outcome_bind, houtcome, outcome_bind]
  rcases (x m).outcome answers with ⟨fault | a, rest⟩
  · rfl
  · exact (h a).outcome_eq rest

lemma eval_bind {e : Expr} {f : Float → Act Unit} {g : Float → Eval Machine}
    (h : ∀ x, InPlace m (f x) (g x)) :
    InPlace m (Act.evaluate (fun m => m.eval e) >>= f) (m.eval e >>= g) :=
  evaluate_bind (fun _ => rfl) (takesFront_eval m.frames m.canvas e) h

lemma text_bind {p : Primitive} {args : List Actual} {place : Nat} {f : String → Act Unit}
    {g : String → Eval Machine} (h : ∀ text, InPlace m (f text) (g text)) :
    InPlace m (Act.evaluate (fun m => m.textInput p args place) >>= f)
      (m.textInput p args place >>= g) :=
  evaluate_bind (fun _ => rfl) (m.takesFront_textInput p args place) h

/-- What was read beforehand is as good as what is there, if it is not the answers. -/
lemma get_bind {f : Machine → Act Unit} {x : Eval Machine}
    (hblind : ∀ answers, f { m with answers } = f m) (h : InPlace m (f m) x) :
    InPlace m (get >>= f) x := by
  refine ⟨fun answers => ?_, h.takesFront⟩
  rw [← h.outcome_eq answers, ← hblind answers]
  rfl

/-- A change after the last fault. -/
lemma then_change {work : Act Unit} {x : Eval Machine} {f : Machine → Machine}
    (h : InPlace m work x) (hf : IsBlind f) :
    InPlace m (work >>= fun _ => Act.change f) (x >>= fun next => pure (f next)) := by
  refine ⟨fun answers => ?_, h.takesFront.bind fun _ => takesFront_pure _⟩
  rw [Act.outcome_bind, h.outcome_eq, outcome_bind]
  rcases x.outcome answers with ⟨fault | next, rest⟩
  · rfl
  · exact congrArg _ (hf next rest)

end InPlace

lemma isBlind_moved (move : Turtle → Turtle × Option TurtleLine) :
    IsBlind fun m => m.moved (move m.turtle) := by
  intro m answers
  dsimp only
  rcases move m.turtle with ⟨turtle, _ | line⟩ <;> rfl

lemma isBlind_foldl_emit (lines : Turtle → List TurtleLine) :
    IsBlind fun m => (lines m.turtle).foldl (fun m line => m.emit (.turtle line)) m := by
  intro m answers
  dsimp only
  rw [Machine.foldl_emit, Machine.foldl_emit]

/-- A primitive in place comes to the same. -/
lemma inPlace_primitive (m : Machine) (p : Primitive) (args : List Actual) :
    InPlace m (Act.primitive p args) (m.primitive p args) := by
  refine InPlace.evaluate_bind (fun answers => ?_) (m.takesFront_numberInputs p _) fun numbers => ?_
  · exact Machine.numberInputs_congr (by rfl) (by rfl) p _
  · match numbers with
    | [] =>
        cases p
        case home => exact .change (isBlind_moved (·.home))
        case penUp | penDown | wait | clear => exact .change fun _ _ => rfl
        case setTextAlign =>
          exact .text_bind fun text => .evaluate_bind (fun _ => rfl) (Machine.takesFront_align _ _)
            fun side => .change fun _ _ => rfl
        case print | setFont => exact .text_bind fun text => .change fun _ _ => rfl
        case error => exact .text_bind fun text => .throw _
        all_goals exact .throw _
    | [d] =>
        cases p
        case forward => exact .change (isBlind_moved (·.forward d))
        case back => exact .change (isBlind_moved (·.back d))
        case left | right | setOpacity => exact .change fun _ _ => rfl
        case print => exact .text_bind fun text => .change fun _ _ => rfl
        case error => exact .text_bind fun text => .throw _
        all_goals exact .throw _
    | [degrees, radius] =>
        cases p
        case arc => exact .change (isBlind_foldl_emit (·.arc degrees radius))
        case print | text => exact .text_bind fun text => .change fun _ _ => rfl
        case error => exact .text_bind fun text => .throw _
        all_goals exact .throw _
    | [_, _, _] =>
        cases p
        case setColor => exact .change fun _ _ => rfl
        case fillCircle | frameCircle =>
          exact .evaluate_bind (fun _ => rfl) (Machine.takesFront_circle _)
            fun radii => .change fun _ _ => rfl
        case print => exact .text_bind fun text => .change fun _ _ => rfl
        case error => exact .text_bind fun text => .throw _
        all_goals exact .throw _
    | [_, _, _, _] =>
        cases p
        case setFillColor | setLineColor | fillRect | frameRect | line =>
          exact .change fun _ _ => rfl
        case print => exact .text_bind fun text => .change fun _ _ => rfl
        case error => exact .text_bind fun text => .throw _
        all_goals exact .throw _
    | [_, _, _, _, _, _] =>
        cases p
        case setPixel => exact .change fun _ _ => rfl
        case print => exact .text_bind fun text => .change fun _ _ => rfl
        case error => exact .text_bind fun text => .throw _
        all_goals exact .throw _
    | [_, _, _, _, _] | _ :: _ :: _ :: _ :: _ :: _ :: _ :: _ =>
        cases p
        case print => exact .text_bind fun text => .change fun _ _ => rfl
        case error => exact .text_bind fun text => .throw _
        all_goals exact .throw _

lemma isBlind_leave : IsBlind Machine.leave := by
  intro m answers
  unfold Machine.leave
  rcases m.frames with _ | ⟨f, _ | ⟨g, outer⟩⟩ <;> rfl

lemma isBlind_withLoops (change : List Nat → List Nat) (target : Machine → Nat)
    (h : ∀ m answers, target { m with answers } = target m) :
    IsBlind fun m => m.withLoops change (target m) := by
  intro m answers
  simp only [Machine.withLoops, h]
  rcases m.frames with _ | ⟨f, outer⟩ <;> rfl

lemma isBlind_nextTurn (body : Nat) : IsBlind fun m => m.nextTurn body := by
  intro m answers
  simp only [Machine.nextTurn]
  split
  · split
    · exact isBlind_withLoops _ (fun _ => body) (fun _ _ => rfl) m answers
    · exact isBlind_withLoops _ (·.pc + 1) (fun _ _ => rfl) m answers
  · rfl

/-- An instruction in place comes to the same. -/
lemma inPlace_instruction (m : Machine) (instr : Instr) :
    InPlace m (Act.instruction instr) (m.execute instr) := by
  cases instr with
  | primitive p args =>
      exact .get_bind (fun _ => rfl) ((inPlace_primitive m p args).then_change fun _ _ => rfl)
  | make name value =>
      exact .eval_bind fun x => (InPlace.change fun _ _ => rfl).then_change fun _ _ => rfl
  | call proc args =>
      refine .get_bind (fun _ => rfl) ?_
      simp only [Machine.execute]
      split
      · exact .throw _
      · cases m.program.procs[proc]? with
        | some target =>
            exact .evaluate_bind (fun _ => Machine.bindInputs_congr (by rfl) (by rfl) _)
              (m.takesFront_bindInputs _) fun bound =>
                (InPlace.change fun _ _ => rfl).then_change fun _ _ => rfl
        | none => exact .change fun _ _ => rfl
  | ret => exact .change isBlind_leave
  | jumpUnless cond target =>
      exact .eval_bind fun x => .eval_bind fun y => .change fun _ _ => rfl
  | loopStart count exit =>
      refine .eval_bind fun n => ?_
      unfold Machine.startLoop
      split
      · exact .throw _
      · split
        · exact .change fun _ _ => rfl
        · exact .change (isBlind_withLoops _ (·.pc + 1) fun _ _ => rfl)
  | loopNext body => exact .change (isBlind_nextTurn body)
  | halt => exact .change fun _ _ => rfl

/-- A step that meets a fault, as the machine is executed. -/
lemma step_of_execute_eq_error {m : Machine} {instr : Instr} {fault : Fault} {rest : List Input}
    (hidle : m.IsIdle) (hinstr : m.program.code[m.pc]? = some instr)
    (hfault : ({ m with yielded := false }.execute instr).outcome m.answers =
      (.error fault, rest)) :
    m.step = { m with
      yielded := false
      status := .halted
      answers := rest
      shown := m.faultEvent fault :: m.shown } := by
  rw [Machine.step_of_isIdle hidle, Machine.advance_eq]
  simp only [hinstr, hfault]
  rfl

/-- A fault leaves no work half done. When an instruction meets a fault, the step shows one event
more, which says the line of the instruction, and the run ends. Some answers may be gone from the
front, and all else is as before: where the program is, its frames, the turtle, and what waits
outside. Executed in place the instruction meets the same fault, and has then changed nothing but
the answers, so the machine did not need to take anything back. -/
theorem step_of_fault {m : Machine} {instr : Instr} {fault : Fault} {rest : List Input}
    (hidle : m.IsIdle) (hinstr : m.program.code[m.pc]? = some instr)
    (hfault : ({ m with yielded := false }.execute instr).outcome m.answers =
      (.error fault, rest)) :
    let event : Event := .runtimeError
      ("Line " ++ Number.digitText (m.program.line m.pc) ++ ": " ++ fault.message)
    m.step = { m with
      yielded := false
      status := .halted
      answers := rest
      shown := event :: m.shown } ∧
    m.step.events = m.events ++ [event] ∧
    rest <:+ m.answers ∧
    (Act.instruction instr).outcome { m with yielded := false } =
      (.error fault, { m with yielded := false, answers := rest }) := by
  have hstep := step_of_execute_eq_error hidle hinstr hfault
  have hplace := inPlace_instruction { m with yielded := false } instr
  refine ⟨hstep, ?_, ?_, ?_⟩
  · rw [hstep]
    exact List.reverse_cons
  · have htaken := hplace.takesFront m.answers
    rwa [hfault] at htaken
  · have houtcome := hplace.outcome_eq m.answers
    rwa [hfault] at houtcome

/-- A machine in a loop of a call, which is about to add an answer to a variable that is not
there. -/
def Machine.beforeFault : Machine :=
  let code : Array Instr := #[.make "x" (.op (.query .confirm) .add (.var "y")), .ret]
  { Machine.new ⟨code, #[3, 3], #[]⟩ [] defaultDepthLimit with
    frames := [⟨[("n", 5)], [2], 7⟩, ⟨[("x", 1)], [], 0⟩]
    status := .running
    answers := [.confirm true, .prompt "2"] }

theorem step_of_unknown_variable :
    Machine.beforeFault.step.events = [.runtimeError "Line 3: y has no value"] ∧
    Machine.beforeFault.step.answers = [.prompt "2"] ∧
    Machine.beforeFault.step.frames = [⟨[("n", 5)], [2], 7⟩, ⟨[("x", 1)], [], 0⟩] := by
  have hfault : ({ Machine.beforeFault with yielded := false }.execute
      (.make "x" (.op (.query .confirm) .add (.var "y")))).outcome Machine.beforeFault.answers =
        (.error (.unknownVariable "y"), [.prompt "2"]) := by rfl
  obtain ⟨hstep, hevents, -, -⟩ := step_of_fault ⟨rfl, rfl, rfl⟩ rfl hfault
  refine ⟨hevents.trans ?_, ?_, ?_⟩
  · decide
  · rw [hstep]
  · rw [hstep]
    rfl

end LogoStudio.Logo
