import LogoStudio.Proofs.Logo.Brackets
import LogoStudio.Proofs.Logo.Safety

/-!
# Variables and calls

A call makes a frame for the parameters of its procedure, and a variable is looked up in all
frames from the innermost on. So a procedure sees the variables of its callers, and an assignment
in it may change any of them or make a global one. What an operation of the host can do with the
frames is said once: it changes the loop counters of the innermost frame, makes an assignment,
enters a call or leaves one. All else follows: the names in a frame are the parameters it was
made with, nothing but a value changes in a frame that waits for a call, and after a call every
variable has the value that was assigned to it last.
-/
namespace LogoStudio.Logo

def Frame.Has (f : Frame) (name : String) : Prop := (f.vars.lookup name).isSome

lemma isSome_lookup_iff {vars : List (String × Float)} {name : String} :
    (vars.lookup name).isSome ↔ name ∈ vars.map Prod.fst := by
  simp [List.lookup_isSome_iff]

lemma map_fst_replaceVar (name : String) (x : Float) (vars : List (String × Float)) :
    (replaceVar name x vars).map Prod.fst = vars.map Prod.fst := by
  induction vars with
  | nil => rfl
  | cons first rest ih =>
      obtain ⟨n, y⟩ := first
      unfold replaceVar
      split
      · rfl
      · rw [List.map_cons, List.map_cons, ih]

lemma Frame.has_replaceVar (f : Frame) (name other : String) (x : Float) :
    Frame.Has { f with vars := replaceVar name x f.vars } other ↔ f.Has other := by
  unfold Frame.Has
  rw [isSome_lookup_iff, isSome_lookup_iff, map_fst_replaceVar]

lemma lookup_replaceVar_self {name : String} {vars : List (String × Float)}
    (h : (vars.lookup name).isSome) (x : Float) :
    (replaceVar name x vars).lookup name = some x := by
  induction vars with
  | nil => simp at h
  | cons first rest ih =>
      obtain ⟨n, y⟩ := first
      unfold replaceVar
      by_cases hn : n = name
      · simp [hn]
      · have hrest : (rest.lookup name).isSome := by
          simpa [List.lookup_cons, beq_false_of_ne (Ne.symm hn)] using h
        simp [hn, List.lookup_cons, beq_false_of_ne (Ne.symm hn), ih hrest]

lemma lookup_replaceVar_of_ne {name other : String} (h : other ≠ name) (x : Float)
    (vars : List (String × Float)) :
    (replaceVar name x vars).lookup other = vars.lookup other := by
  induction vars with
  | nil => rfl
  | cons first rest ih =>
      obtain ⟨n, y⟩ := first
      unfold replaceVar
      by_cases hn : n = name
      · simp [hn, List.lookup_cons, beq_false_of_ne h]
      · simp [hn, List.lookup_cons, ih]

lemma lookup?_cons (f : Frame) (outer : List Frame) (name : String) :
    lookup? (f :: outer) name = (f.vars.lookup name).or (lookup? outer name) := by
  unfold lookup?
  rw [List.findSome?_cons]
  cases f.vars.lookup name <;> rfl

section Assignments

variable (name : String) (x : Float)

lemma assign_cons_of_isSome {f : Frame} (h : (f.vars.lookup name).isSome) (outer : List Frame) :
    assign name x (f :: outer) = { f with vars := replaceVar name x f.vars } :: outer := by
  unfold assign
  rw [if_pos h]

lemma assign_cons_of_eq_none {f : Frame} {outer : List Frame} (h : f.vars.lookup name = none)
    (houter : outer ≠ []) : assign name x (f :: outer) = f :: assign name x outer := by
  obtain ⟨g, rest, rfl⟩ := List.exists_cons_of_ne_nil houter
  rw [assign, h]
  rfl

lemma assign_singleton_of_eq_none {f : Frame} (h : f.vars.lookup name = none) :
    assign name x [f] = [{ f with vars := (name, x) :: f.vars }] := by
  rw [assign, h]
  rfl

/-- The variable of an assignment has its value. -/
lemma lookup?_assign_self {frames : List Frame} (h : frames ≠ []) :
    lookup? (assign name x frames) name = some x := by
  induction frames with
  | nil => exact absurd rfl h
  | cons f outer ih =>
      by_cases hf : (f.vars.lookup name).isSome
      · rw [assign_cons_of_isSome name x hf, lookup?_cons, lookup_replaceVar_self hf,
          Option.some_or]
      · have hnone := Option.not_isSome_iff_eq_none.mp hf
        cases outer with
        | nil => simp [assign_singleton_of_eq_none name x hnone, lookup?_cons]
        | cons g rest =>
            have hne := List.cons_ne_nil g rest
            rw [assign_cons_of_eq_none name x hnone hne, lookup?_cons, hnone, Option.none_or,
              ih hne]

/-- Every other variable has the value it had. -/
lemma lookup?_assign_of_ne {other : String} (h : other ≠ name) (frames : List Frame) :
    lookup? (assign name x frames) other = lookup? frames other := by
  induction frames with
  | nil => rfl
  | cons f outer ih =>
      by_cases hf : (f.vars.lookup name).isSome
      · rw [assign_cons_of_isSome name x hf, lookup?_cons, lookup?_cons,
          lookup_replaceVar_of_ne h]
      · have hnone := Option.not_isSome_iff_eq_none.mp hf
        cases outer with
        | nil =>
            simp [assign_singleton_of_eq_none name x hnone, lookup?_cons, List.lookup_cons,
              beq_false_of_ne h]
        | cons g rest =>
            rw [assign_cons_of_eq_none name x hnone (List.cons_ne_nil g rest), lookup?_cons, ih,
              ← lookup?_cons]

/-- An assignment to a variable of the inner frames leaves the outer ones alone. -/
lemma assign_append_of_isSome {inner : List Frame} (h : (lookup? inner name).isSome)
    (outer : List Frame) : assign name x (inner ++ outer) = assign name x inner ++ outer := by
  induction inner with
  | nil => simp [lookup?] at h
  | cons f inner ih =>
      by_cases hf : (f.vars.lookup name).isSome
      · rw [List.cons_append, assign_cons_of_isSome name x hf, assign_cons_of_isSome name x hf,
          List.cons_append]
      · have hnone := Option.not_isSome_iff_eq_none.mp hf
        rw [lookup?_cons, hnone, Option.none_or] at h
        have hne : inner ≠ [] := by
          rintro rfl
          simp [lookup?] at h
        rw [List.cons_append, assign_cons_of_eq_none name x hnone (by simp [hne]), ih h,
          assign_cons_of_eq_none name x hnone hne, List.cons_append]

/-- An assignment to a variable that the inner frames do not have leaves them alone. -/
lemma assign_append_of_eq_none {inner outer : List Frame} (h : lookup? inner name = none)
    (houter : outer ≠ []) : assign name x (inner ++ outer) = inner ++ assign name x outer := by
  induction inner with
  | nil => rfl
  | cons f inner ih =>
      rw [lookup?_cons, Option.or_eq_none_iff] at h
      rw [List.cons_append, assign_cons_of_eq_none name x h.1 (by simp [houter]), ih h.2,
        List.cons_append]

/-- What is kept of a frame: its return address always, its loop counters unless it is the
innermost one, and its names unless it is the outermost one. -/
structure Frame.Kept (innermost outermost : Prop) (f g : Frame) : Prop where
  returnTo : g.returnTo = f.returnTo
  loops : ¬innermost → g.loops = f.loops
  has : ¬outermost → ∀ name, g.Has name ↔ f.Has name

lemma Frame.Kept.refl (innermost outermost : Prop) (f : Frame) : f.Kept innermost outermost f :=
  ⟨rfl, fun _ => rfl, fun _ _ => Iff.rfl⟩

/-- A frame with other frames around it, after an assignment. -/
lemma assign_around (inner : List Frame) (f : Frame) (outer : List Frame) :
    ∃ inner' g outer', assign name x (inner ++ f :: outer) = inner' ++ g :: outer' ∧
      outer'.length = outer.length ∧ f.Kept False (outer = []) g := by
  cases hinner : lookup? inner name with
  | some y =>
      rw [assign_append_of_isSome name x (by rw [hinner]; rfl)]
      exact ⟨_, f, outer, rfl, rfl, .refl _ _ f⟩
  | none =>
      rw [assign_append_of_eq_none name x hinner (List.cons_ne_nil f outer)]
      by_cases hf : (f.vars.lookup name).isSome
      · rw [assign_cons_of_isSome name x hf]
        exact ⟨inner, _, outer, rfl, rfl, rfl, fun _ => rfl,
          fun _ other => f.has_replaceVar name other x⟩
      · have hnone := Option.not_isSome_iff_eq_none.mp hf
        cases outer with
        | nil =>
            rw [assign_singleton_of_eq_none name x hnone]
            exact ⟨inner, _, [], rfl, rfl, rfl, fun _ => rfl, fun hout => absurd rfl hout⟩
        | cons g rest =>
            rw [assign_cons_of_eq_none name x hnone (List.cons_ne_nil g rest)]
            exact ⟨inner, f, _, rfl, length_assign name x _, .refl _ _ f⟩

end Assignments

/-- The assignment that an instruction makes, unless its value is a fault. -/
def Instr.assignment? (m : Machine) : Instr → Option (String × Float)
  | .make name value => ((m.eval value).outcome m.answers).1.toOption.map (name, ·)
  | _ => none

/-- The procedure that an instruction calls. -/
def Instr.callee? (p : Program) : Instr → Option Procedure
  | .call i _ => p.procs[i]?
  | _ => none

namespace Machine

/-- The instruction that the next step executes. -/
def current? (m : Machine) : Option Instr :=
  if m.status = .running ∧ m.queue.isEmpty ∧ m.waiting = false then m.program.code[m.pc]?
  else none

/-- The assignment that the next step makes, if it meets no fault. -/
def made? (m : Machine) : Option (String × Float) := m.current?.bind (·.assignment? m)

def entered? (m : Machine) : Option Procedure :=
  if m.frames.length < m.step.frames.length then m.current?.bind (·.callee? m.program) else none

/-- The frame with `k` frames around it. The frame of the main program has number zero. -/
def frame? (m : Machine) (k : Nat) : Option Frame := m.frames.reverse[k]?

lemma frame?_eq_some {m : Machine} {k : Nat} {f : Frame} :
    m.frame? k = some f ↔ ∃ inner outer, m.frames = inner ++ f :: outer ∧ outer.length = k := by
  unfold frame?
  constructor
  · intro h
    obtain ⟨hk, hf⟩ := List.getElem?_eq_some_iff.mp h
    refine ⟨(m.frames.reverse.drop (k + 1)).reverse, (m.frames.reverse.take k).reverse, ?_, ?_⟩
    · rw [← List.reverse_inj, List.reverse_append, List.reverse_cons, List.reverse_reverse,
        List.reverse_reverse, ← hf, List.take_concat_get' _ _ hk, List.take_append_drop]
    · rw [List.length_reverse, List.length_take]
      omega
  · rintro ⟨inner, outer, hframes, rfl⟩
    simp [hframes]

end Machine

/-- What a step can do to the frames: it goes on in the innermost frame, makes an assignment,
enters a call or leaves one. -/
inductive Changes (m m' : Machine) : Option (String × Float) → Option Procedure → Prop
  | turn {f f' : Frame} {outer : List Frame} (hframes : m.frames = f :: outer)
      (hframes' : m'.frames = f' :: outer) (hvars : f'.vars = f.vars)
      (hreturn : f'.returnTo = f.returnTo) : Changes m m' none none
  | assign {name : String} {x : Float} (hframes' : m'.frames = assign name x m.frames) :
      Changes m m' (some (name, x)) none
  | enter {i : Nat} {args : List Expr} {proc : Procedure} {vars : List (String × Float)}
      (hcode : m.program.code[m.pc]? = some (.call i args))
      (hproc : m.program.procs[i]? = some proc)
      (hvars : ∀ name, name ∈ vars.map Prod.fst ↔ name ∈ (proc.params.zip args).map Prod.fst)
      (hframes' : m'.frames = ⟨vars, [], m.pc + 1⟩ :: m.frames) : Changes m m' none (some proc)
  | leave {f g : Frame} {outer : List Frame} (hframes : m.frames = f :: g :: outer)
      (hframes' : m'.frames = g :: outer) (hpc : m'.pc = f.returnTo) : Changes m m' none none

namespace Changes

variable {m m' n n' : Machine} {made : Option (String × Float)} {entered : Option Procedure}

/-- Nothing matters but the code and the frames. -/
lemma congr (h : Changes m m' made entered) (hprogram : n.program = m.program)
    (hpc : n.pc = m.pc) (hframes : n.frames = m.frames) (hpc' : n'.pc = m'.pc)
    (hframes' : n'.frames = m'.frames) : Changes n n' made entered := by
  cases h with
  | turn h h' hvars hreturn => exact .turn (hframes.trans h) (hframes'.trans h') hvars hreturn
  | assign h' => exact .assign (by rw [hframes', h', hframes])
  | enter hcode hproc hvars h' =>
      refine .enter (by rw [hprogram, hpc, hcode]) (by rw [hprogram, hproc]) hvars ?_
      rw [hframes', h', hpc, hframes]
  | leave h h' hreturn => exact .leave (hframes.trans h) (hframes'.trans h') (hpc'.trans hreturn)

lemma frames_of_assign {name : String} {x : Float} (h : Changes m m' (some (name, x)) entered) :
    m'.frames = Logo.assign name x m.frames := by
  cases h with
  | assign hframes' => exact hframes'

lemma length_lt {proc : Procedure} (h : Changes m m' made (some proc)) :
    m.frames.length < m'.frames.length := by
  cases h with
  | enter _ _ _ hframes' => rw [hframes', List.length_cons]; exact Nat.lt_succ_self _

/-- A call has as many inputs as there are parameters, so the frame has them all. -/
lemma frames_of_enter {source : String} (hp : compile source = .ok m.program) {proc : Procedure}
    (h : Changes m m' made (some proc)) :
    ∃ i args f, m.program.code[m.pc]? = some (.call i args) ∧
      m.program.procs[i]? = some proc ∧ m'.frames = f :: m.frames ∧ f.returnTo = m.pc + 1 ∧
      ∀ name, f.Has name ↔ name ∈ proc.params := by
  cases h with
  | @enter i args proc vars hcode hproc hvars hframes' =>
      refine ⟨i, args, _, hcode, hproc, hframes', rfl, fun name => ?_⟩
      obtain ⟨proc', hproc', hlength⟩ := call_of_compile hp hcode
      obtain rfl := Option.some.inj (hproc'.symm.trans hproc)
      rw [Frame.Has, isSome_lookup_iff, hvars, List.map_fst_zip (Nat.le_of_eq hlength.symm)]

end Changes

namespace Machine

variable {m : Machine}

lemma changes_of_eq {m' : Machine} (hne : m.frames ≠ []) (hframes : m'.frames = m.frames) :
    Changes m m' none none := by
  obtain ⟨f, outer, hm⟩ := List.exists_cons_of_ne_nil hne
  exact .turn hm (hframes.trans hm) rfl rfl

lemma changes_withLoops (hne : m.frames ≠ []) (change : List Nat → List Nat) (pc : Nat) :
    Changes m (m.withLoops change pc) none none := by
  obtain ⟨f, outer, hm⟩ := List.exists_cons_of_ne_nil hne
  have hframes : (m.withLoops change pc).frames = { f with loops := change f.loops } :: outer := by
    rw [withLoops, hm]
  exact .turn hm hframes rfl rfl

lemma changes_nextTurn (hne : m.frames ≠ []) (body : Nat) :
    Changes m (m.nextTurn body) none none := by
  unfold nextTurn
  split
  · split <;> exact changes_withLoops hne _ _
  · exact changes_of_eq hne rfl

lemma changes_leave (hne : m.frames ≠ []) : Changes m m.leave none none := by
  obtain ⟨f, outer, hm⟩ := List.exists_cons_of_ne_nil hne
  unfold leave
  cases outer with
  | nil => exact changes_of_eq hne (by rw [hm])
  | cons g rest =>
      rw [hm]
      exact .leave hm rfl rfl

/-- The names of the inputs of a call do not depend on their values. -/
lemma map_fst_of_bindInputs {inputs : List (String × Expr)} {bound : List (String × Float)}
    {answers rest : List Input} (h : (m.bindInputs inputs).outcome answers = (.ok bound, rest)) :
    bound.map Prod.fst = inputs.map Prod.fst := by
  induction inputs generalizing bound answers rest with
  | nil =>
      simp only [bindInputs, Eval.outcome_pure, Prod.mk.injEq, Except.ok.injEq] at h
      rw [← h.1]
      rfl
  | cons first inputs ih =>
      obtain ⟨x, middle, -, h⟩ := Eval.outcome_bind_eq_ok.mp h
      obtain ⟨bound', last, hbound, h⟩ := Eval.outcome_bind_eq_ok.mp h
      simp only [Eval.outcome_pure, Prod.mk.injEq, Except.ok.injEq] at h
      rw [← h.1, List.map_cons, List.map_cons, ih hbound]

/-- A call that meets no fault enters a procedure. -/
lemma changes_call {m' : Machine} {i : Nat} {args : List Expr} {proc : Procedure}
    {answers rest : List Input} (hcode : m.program.code[m.pc]? = some (.call i args))
    (hproc : m.program.procs[i]? = some proc)
    (h : (m.execute (.call i args)).outcome answers = (.ok m', rest)) :
    Changes m m' none (some proc) := by
  simp only [execute, hproc] at h
  split at h
  · simp at h
  · obtain ⟨bound, middle, hbound, h⟩ := Eval.outcome_bind_eq_ok.mp h
    simp only [Eval.outcome_pure, Prod.mk.injEq, Except.ok.injEq] at h
    obtain ⟨rfl, -⟩ := h
    refine .enter hcode hproc (fun name => ?_) rfl
    rw [List.map_reverse, List.mem_reverse, map_fst_of_bindInputs hbound]

/-- Without an instruction to execute a step leaves the frames alone. -/
lemma frames_step_of_current?_eq_none (h : m.current? = none) : m.step.frames = m.frames := by
  unfold step
  dsimp only
  split
  · next hrun =>
      split
      · next token e rest _ => cases e <;> rfl
      · next hqueue =>
          split
          · rfl
          · next hwait =>
              have hcode : m.program.code[m.pc]? = none := by
                simpa [current?, hrun, hqueue, hwait] using h
              simp [advance, hcode]
  · rfl

/-- A step executes the current instruction. -/
lemma step_of_current? {instr : Instr} (h : m.current? = some instr) :
    m.step = { m with yielded := false }.advance ∧ m.program.code[m.pc]? = some instr := by
  unfold current? at h
  split at h
  · next hidle =>
      obtain ⟨hrun, hqueue, hwait⟩ := hidle
      exact ⟨by simp [step, hrun, List.isEmpty_iff.mp hqueue, hwait], h⟩
  · cases h

/-- What an instruction without a fault does to the frames. -/
lemma changes_execute {m' : Machine} {instr : Instr} {rest : List Input} (hne : m.frames ≠ [])
    (hcode : m.program.code[m.pc]? = some instr)
    (h : (m.execute instr).outcome m.answers = (.ok m', rest)) :
    Changes m m' (instr.assignment? m) (instr.callee? m.program) := by
  have hdoes := execute_eq_ok h
  cases instr with
  | primitive q args =>
      obtain ⟨next, ⟨turtle, new, -, rfl⟩ | ⟨-, rfl⟩, rfl⟩ := hdoes <;>
        exact changes_of_eq hne rfl
  | make name value =>
      obtain ⟨x, middle, hvalue, h⟩ := Eval.outcome_bind_eq_ok.mp h
      simp only [Eval.outcome_pure, Prod.mk.injEq, Except.ok.injEq] at h
      obtain ⟨rfl, -⟩ := h
      simp only [Instr.assignment?, hvalue]
      exact .assign rfl
  | call i args =>
      simp only [Instr.callee?]
      cases hproc : m.program.procs[i]? with
      | some proc => exact changes_call hcode hproc h
      | none =>
          simp only [Does, hproc] at hdoes
          exact changes_of_eq hne (by rw [hdoes.2])
  | ret =>
      obtain rfl : m' = m.leave := hdoes
      exact changes_leave hne
  | jumpUnless cond target => obtain rfl | rfl := hdoes <;> exact changes_of_eq hne rfl
  | loopStart count exit =>
      obtain rfl | ⟨n, rfl⟩ := hdoes
      · exact changes_of_eq hne rfl
      · exact changes_withLoops hne _ _
  | loopNext body =>
      obtain rfl : m' = m.nextTurn body := hdoes
      exact changes_nextTurn hne body
  | halt =>
      obtain rfl : m' = { m with status := .halted } := hdoes
      exact changes_of_eq hne rfl

/-- An assignment is not made if the value is a fault. -/
lemma assignment?_of_error {instr : Instr} {fault : Fault} {rest : List Input}
    (h : (m.execute instr).outcome m.answers = (.error fault, rest)) :
    instr.assignment? m = none := by
  cases instr with
  | make name value =>
      obtain hvalue | ⟨x, middle, -, h⟩ := Eval.outcome_bind_eq_error.mp h
      · simp [Instr.assignment?, hvalue, Except.toOption]
      · simp at h
  | _ => rfl

/-- What a step does to the frames. -/
lemma changes_step (hne : m.frames ≠ []) : Changes m m.step m.made? m.entered? := by
  cases hcurrent : m.current? with
  | none =>
      have hframes := frames_step_of_current?_eq_none hcurrent
      have hmade : m.made? = none := by rw [made?, hcurrent, Option.bind_none]
      have hentered : m.entered? = none := by rw [entered?, hframes, if_neg (Nat.lt_irrefl _)]
      rw [hmade, hentered]
      exact changes_of_eq hne hframes
  | some instr =>
      obtain ⟨hstep, hcode⟩ := step_of_current? hcurrent
      have hmade : m.made? = instr.assignment? { m with yielded := false } := by
        rw [made?, hcurrent]
        rfl
      rw [advance_eq] at hstep
      dsimp only at hstep
      rw [hcode] at hstep
      rcases houtcome : ({ m with yielded := false }.execute instr).outcome m.answers with
        ⟨fault | next, rest⟩
      · simp only [houtcome] at hstep
        have hframes : m.step.frames = m.frames := by rw [hstep]; rfl
        rw [hmade, assignment?_of_error houtcome, entered?, hframes, if_neg (Nat.lt_irrefl _)]
        exact changes_of_eq hne hframes
      · simp only [houtcome] at hstep
        have hchanges : Changes m m.step m.made? (instr.callee? m.program) := by
          rw [hmade]
          exact (@changes_execute { m with yielded := false } _ _ _ hne hcode houtcome).congr
            rfl rfl rfl (by rw [hstep]) (by rw [hstep])
        rw [entered?, hcurrent, Option.bind_some]
        cases hcallee : instr.callee? m.program with
        | none =>
            rw [hcallee] at hchanges
            rwa [ite_self]
        | some proc =>
            rw [hcallee] at hchanges
            rwa [if_pos hchanges.length_lt]

end Machine

namespace HostCall

def made? (m : Machine) : HostCall → Option (String × Float)
  | step => m.made?
  | _ => none

/-- The procedure that an operation enters. -/
def entered? (m : Machine) : HostCall → Option Procedure
  | step => m.entered?
  | _ => none

/-- What an operation other than a reset does to the frames. -/
lemma changes {m : Machine} (hne : m.frames ≠ []) {call : HostCall} (hcall : call ≠ .reset) :
    Changes m (call.apply m) (call.made? m) (call.entered? m) := by
  cases call with
  | step => exact Machine.changes_step hne
  | reset => exact absurd rfl hcall
  | stop => exact Machine.changes_of_eq hne rfl
  | setStatus status => exact Machine.changes_of_eq hne rfl
  | enqueue event data => exact Machine.changes_of_eq hne rfl
  | setTimer timer => exact Machine.changes_of_eq hne rfl
  | bindCanvas size => exact Machine.changes_of_eq hne rfl

lemma frames_refill (m : Machine) (inputs : List Input) : (m.refill inputs).frames = m.frames := by
  induction inputs generalizing m with
  | nil => rfl
  | cons input rest ih => cases input <;> exact ih _

lemma frames_reset (m : Machine) : (HostCall.reset.apply m).frames = [.empty] :=
  frames_refill _ m.supply

end HostCall

/-- What becomes of a frame in one operation. If it is left, the machine goes on at its return
address. -/
lemma Changes.frame {m m' : Machine} {made : Option (String × Float)} {entered : Option Procedure}
    (h : Changes m m' made entered) {k : Nat} {f : Frame} (hf : m.frame? k = some f) :
    (m'.frames.length = k ∧ m'.pc = f.returnTo ∧ k + 1 = m.frames.length) ∨
      ∃ g, m'.frame? k = some g ∧ f.Kept (k + 1 = m.frames.length) (k = 0) g := by
  obtain ⟨inner, outer, hm, rfl⟩ := Machine.frame?_eq_some.mp hf
  have hsame (inner' : List Frame) (hm' : m'.frames = inner' ++ f :: outer) :
      m'.frame? outer.length = some f :=
    Machine.frame?_eq_some.mpr ⟨inner', outer, hm', rfl⟩
  cases h with
  | @turn first first' rest hframes hframes' hvars hreturn =>
      rw [hframes] at hm
      cases inner with
      | nil =>
          obtain ⟨rfl, rfl⟩ := List.cons.inj hm
          have hfirst := Machine.frame?_eq_some.mpr ⟨[], rest, hframes', rfl⟩
          refine .inr ⟨first', hfirst, hreturn, ?_, ?_⟩
          · intro hinner
            rw [hframes] at hinner
            exact absurd rfl hinner
          · intro _ name
            rw [Frame.Has, Frame.Has, hvars]
      | cons second inner =>
          obtain ⟨rfl, rfl⟩ := List.cons.inj hm
          exact .inr ⟨f, hsame (first' :: inner) hframes', .refl _ _ f⟩
  | @assign name x hframes' =>
      obtain ⟨inner', g, outer', hassign, hlength, hkept⟩ := assign_around name x inner f outer
      rw [hm, hassign] at hframes'
      refine .inr ⟨g, Machine.frame?_eq_some.mpr ⟨inner', outer', hframes', hlength⟩,
        hkept.returnTo, fun _ => hkept.loops id, fun hk => hkept.has ?_⟩
      rwa [← List.length_eq_zero_iff]
  | @enter i args proc vars hcode hproc hvars hframes' =>
      rw [hm] at hframes'
      exact .inr ⟨f, hsame (_ :: inner) hframes', .refl _ _ f⟩
  | @leave first second rest hframes hframes' hpc =>
      rw [hframes] at hm
      cases inner with
      | nil =>
          obtain ⟨rfl, rfl⟩ := List.cons.inj hm
          exact .inl ⟨by rw [hframes'], hpc, by rw [hframes]; rfl⟩
      | cons third inner =>
          obtain ⟨-, hrest⟩ := List.cons.inj hm
          exact .inr ⟨f, hsame inner (hframes'.trans hrest), .refl _ _ f⟩

/-- Every frame but the last one was made by a call, to which it returns, and has variables for
the parameters of the procedure that was called and for nothing else. -/
inductive Scoped (p : Program) : List Frame → Prop
  | globals {f : Frame} : Scoped p [f]
  | call {i place : Nat} {args : List Expr} {proc : Procedure} {f : Frame} {outer : List Frame}
      (hcall : p.code[place]? = some (.call i args)) (hproc : p.procs[i]? = some proc)
      (hreturn : f.returnTo = place + 1) (hvars : ∀ name, f.Has name ↔ name ∈ proc.params)
      (hrest : Scoped p outer) : Scoped p (f :: outer)

namespace Scoped

variable {source : String} {p : Program} {frames : List Frame}

lemma ne_nil (h : Scoped p frames) : frames ≠ [] := by
  cases h <;> simp

lemma assign (h : Scoped p frames) (name : String) (x : Float) :
    Scoped p (assign name x frames) := by
  induction h with
  | globals =>
      simp only [Logo.assign]
      split <;> exact .globals
  | @call i place args proc f outer hcall hproc hreturn hvars hrest ih =>
      by_cases hf : (f.vars.lookup name).isSome
      · rw [assign_cons_of_isSome name x hf]
        exact .call hcall hproc hreturn
          (fun other => (f.has_replaceVar name other x).trans (hvars other)) hrest
      · rw [assign_cons_of_eq_none name x (Option.not_isSome_iff_eq_none.mp hf) hrest.ne_nil]
        exact .call hcall hproc hreturn hvars ih

/-- Every operation but a reset keeps the names of the parameters in their frames. -/
lemma of_changes {m m' : Machine} (hp : compile source = .ok m.program)
    {made : Option (String × Float)} {entered : Option Procedure} (h : Scoped m.program m.frames)
    (hchanges : Changes m m' made entered) : Scoped m.program m'.frames := by
  cases hchanges with
  | @turn f f' outer hframes hframes' hvars hreturn =>
      rw [hframes] at h
      rw [hframes']
      cases h with
      | globals => exact .globals
      | call hcall hproc hto hnames hrest =>
          refine .call hcall hproc (hreturn.trans hto) (fun name => ?_) hrest
          rw [← hnames, Frame.Has, Frame.Has, hvars]
  | assign hframes' =>
      rw [hframes']
      exact h.assign _ _
  | @enter i args proc vars hcode hproc hvars hframes' =>
      obtain ⟨i, args, f, hcode, hproc, hframes, hreturn, hnames⟩ :=
        (Changes.enter hcode hproc hvars hframes').frames_of_enter hp
      rw [hframes]
      exact .call hcode hproc hreturn hnames h
  | leave hframes hframes' hpc =>
      rw [hframes] at h
      rw [hframes']
      cases h with
      | call hcall hproc hto hnames hrest => exact hrest

/-- In every machine that a host can reach the frames have the names of the parameters. -/
lemma after (hp : compile source = .ok p) (supply : List Input) (limit : Nat)
    (past : List HostCall) : Scoped p (past.foldl HostCall.apply (.new p supply limit)).frames := by
  have hrun (m : Machine) (hm : InOrder p limit m) (h : Scoped p m.frames) :
      Scoped p (past.foldl HostCall.apply m).frames := by
    induction past generalizing m with
    | nil => exact h
    | cons call rest ih =>
        refine ih _ (hm.apply hp call) ?_
        by_cases hreset : call = .reset
        · rw [hreset, HostCall.frames_reset]
          exact .globals
        · have hprogram := hm.program
          subst hprogram
          exact h.of_changes hp (HostCall.changes h.ne_nil hreset)
  exact hrun _ (InOrder.after hp supply limit []) .globals

end Scoped

/-- No operation of a run is a reset, and before each one there are more than `n` frames. -/
def StaysAbove (n : Nat) (m : Machine) : List HostCall → Prop
  | [] => True
  | call :: rest => call ≠ .reset ∧ n < m.frames.length ∧ StaysAbove n (call.apply m) rest

/-- The assignments that a run makes, in order. -/
def madeIn (m : Machine) : List HostCall → List (String × Float)
  | [] => []
  | call :: rest => (call.made? m).toList ++ madeIn (call.apply m) rest

/-- The procedures that a run enters, in order. -/
def enteredIn (m : Machine) : List HostCall → List Procedure
  | [] => []
  | call :: rest => (call.entered? m).toList ++ enteredIn (call.apply m) rest

/-- The value that was assigned to a variable last. -/
def lastMade? (name : String) (made : List (String × Float)) : Option Float :=
  made.reverse.lookup name

lemma lastMade?_append (name : String) (a b : List (String × Float)) :
    lastMade? name (a ++ b) = (lastMade? name b).or (lastMade? name a) := by
  rw [lastMade?, List.reverse_append, List.lookup_append, lastMade?, lastMade?]

lemma Machine.lt_of_frame? {m : Machine} {k : Nat} {f : Frame} (h : m.frame? k = some f) :
    k < m.frames.length := by
  obtain ⟨inner, outer, hm, rfl⟩ := frame?_eq_some.mp h
  rw [hm, List.length_append, List.length_cons]
  omega

/-- A frame that waits for a call keeps its loop counters and its return address. -/
lemma StaysAbove.frame_kept {calls : List HostCall} {k : Nat} {m : Machine} {f : Frame}
    (h : StaysAbove (k + 1) m calls) (hf : m.frame? k = some f) :
    ∃ g, (calls.foldl HostCall.apply m).frame? k = some g ∧ g.loops = f.loops ∧
      g.returnTo = f.returnTo := by
  induction calls generalizing m f with
  | nil => exact ⟨f, hf, rfl, rfl⟩
  | cons call rest ih =>
      obtain ⟨hcall, habove, hrest⟩ := h
      have hchanges := HostCall.changes
        (List.ne_nil_of_length_pos (Nat.zero_lt_of_lt habove)) hcall
      obtain ⟨-, -, hlast⟩ | ⟨g, hg, hkept⟩ := hchanges.frame hf
      · omega
      · obtain ⟨g', hg', hloops, hreturn⟩ := ih hrest hg
        exact ⟨g', hg', hloops.trans (hkept.loops (by omega)), hreturn.trans hkept.returnTo⟩

/-- When a frame is left, the machine goes on at its return address. -/
lemma StaysAbove.returns {calls : List HostCall} {n : Nat} {m : Machine} {f : Frame}
    (h : StaysAbove n m calls) (hf : m.frame? n = some f)
    (hleft : (calls.foldl HostCall.apply m).frames.length ≤ n) :
    (calls.foldl HostCall.apply m).pc = f.returnTo ∧
      (calls.foldl HostCall.apply m).frames.length = n := by
  induction calls generalizing m f with
  | nil => exact absurd hleft (Nat.not_le.mpr (Machine.lt_of_frame? hf))
  | cons call rest ih =>
      obtain ⟨hcall, habove, hrest⟩ := h
      have hchanges := HostCall.changes
        (List.ne_nil_of_length_pos (Nat.zero_lt_of_lt habove)) hcall
      obtain ⟨hlength, hpc, -⟩ | ⟨g, hg, hkept⟩ := hchanges.frame hf
      · cases rest with
        | nil => exact ⟨hpc, hlength⟩
        | cons next rest => exact absurd hrest.2.1 (by omega)
      · obtain ⟨hpc, hlength⟩ := ih hrest hg hleft
        exact ⟨hpc.trans hkept.returnTo, hlength⟩

/-- A variable is found in the `n` outermost frames, and in no other one. -/
def FoundOutside (n : Nat) (name : String) (x : Float) (frames : List Frame) : Prop :=
  ∃ inner outer, frames = inner ++ outer ∧ outer.length = n ∧ lookup? inner name = none ∧
    lookup? outer name = some x

/-- In one operation a variable that is found outside keeps its value, or gets the one that is
assigned to it. -/
lemma FoundOutside.of_changes {n : Nat} {name : String} {x : Float} {m m' : Machine}
    {made : Option (String × Float)} {entered : Option Procedure}
    (h : FoundOutside n name x m.frames) (habove : n < m.frames.length)
    (hchanges : Changes m m' made entered) (hentered : ∀ proc ∈ entered, name ∉ proc.params) :
    FoundOutside n name ((lastMade? name made.toList).getD x) m'.frames := by
  obtain ⟨inner, outer, hm, rfl, hinner, houter⟩ := h
  have hne : inner ≠ [] := by
    rintro rfl
    rw [hm] at habove
    exact Nat.lt_irrefl _ habove
  cases hchanges with
  | @turn f f' rest hframes hframes' hvars hreturn =>
      obtain ⟨first, inner, rfl⟩ := List.exists_cons_of_ne_nil hne
      obtain ⟨rfl, rfl⟩ := List.cons.inj (hframes.symm.trans hm)
      refine ⟨f' :: inner, outer, hframes', rfl, ?_, houter⟩
      rwa [lookup?_cons, hvars, ← lookup?_cons]
  | @assign name' x' hframes' =>
      rw [hm] at hframes'
      have hne' : outer ≠ [] := by
        rintro rfl
        cases houter
      by_cases hname : name = name'
      · subst hname
        rw [assign_append_of_eq_none name x' hinner hne'] at hframes'
        refine ⟨inner, _, hframes', length_assign name x' outer, hinner, ?_⟩
        rw [lookup?_assign_self name x' hne']
        simp [lastMade?]
      · have hlast : (lastMade? name [(name', x')]).getD x = x := by
          simp [lastMade?, List.lookup_cons, beq_false_of_ne hname]
        rw [Option.toList_some, hlast]
        cases hfound : lookup? inner name' with
        | some y =>
            rw [assign_append_of_isSome name' x' (by rw [hfound]; rfl)] at hframes'
            refine ⟨_, outer, hframes', rfl, ?_, houter⟩
            rwa [lookup?_assign_of_ne name' x' hname]
        | none =>
            rw [assign_append_of_eq_none name' x' hfound hne'] at hframes'
            refine ⟨inner, _, hframes', length_assign name' x' outer, hinner, ?_⟩
            rwa [lookup?_assign_of_ne name' x' hname]
  | @enter i args proc vars hcode hproc hvars hframes' =>
      rw [hm] at hframes'
      refine ⟨⟨vars, [], m.pc + 1⟩ :: inner, outer, hframes', rfl, ?_, houter⟩
      have hnot : ¬(vars.lookup name).isSome := by
        rw [isSome_lookup_iff, hvars]
        intro hmem
        obtain ⟨⟨name', e⟩, hzip, rfl⟩ := List.mem_map.mp hmem
        exact hentered proc rfl (List.of_mem_zip hzip).1
      rw [lookup?_cons, Option.not_isSome_iff_eq_none.mp hnot, Option.none_or, hinner]
  | @leave f g rest hframes hframes' hpc =>
      obtain ⟨first, inner, rfl⟩ := List.exists_cons_of_ne_nil hne
      obtain ⟨rfl, hrest⟩ := List.cons.inj (hframes.symm.trans hm)
      rw [lookup?_cons, Option.or_eq_none_iff] at hinner
      exact ⟨inner, outer, hframes'.trans hrest, rfl, hinner.2, houter⟩

/-- In a run a variable that is found outside keeps its value, or gets the one that is assigned
to it last. -/
lemma FoundOutside.of_run {n : Nat} {name : String} {calls : List HostCall} {x : Float}
    {m : Machine} (h : FoundOutside n name x m.frames) (habove : StaysAbove n m calls)
    (hentered : ∀ proc ∈ enteredIn m calls, name ∉ proc.params) :
    FoundOutside n name ((lastMade? name (madeIn m calls)).getD x)
      (calls.foldl HostCall.apply m).frames := by
  induction calls generalizing m x with
  | nil => exact h
  | cons call rest ih =>
      obtain ⟨hcall, hlength, hrest⟩ := habove
      have hchanges := HostCall.changes
        (List.ne_nil_of_length_pos (Nat.zero_lt_of_lt hlength)) hcall
      simp only [enteredIn, List.mem_append, Option.mem_toList] at hentered
      have hstep := h.of_changes hlength hchanges fun proc hproc => hentered proc (.inl hproc)
      have hrun := ih hstep hrest fun proc hproc => hentered proc (.inr hproc)
      rw [madeIn, lastMade?_append, Option.getD_or]
      exact hrun

/-- A variable that is found outside has its value when nothing else is left. -/
lemma FoundOutside.lookup? {n : Nat} {name : String} {x : Float} {frames : List Frame}
    (h : FoundOutside n name x frames) (hleft : frames.length ≤ n) :
    lookup? frames name = some x := by
  obtain ⟨inner, outer, rfl, rfl, -, houter⟩ := h
  obtain rfl : inner = [] := by
    rw [List.length_append] at hleft
    exact List.length_eq_zero_iff.mp (by omega)
  exact houter

/-- The rules for variables and calls in a machine of the program `p`. -/
structure Machine.WellScoped (p : Program) (m : Machine) : Prop where
  /-- Each frame but that of the main program has the parameters of its procedure, and no other
  variable. -/
  parameters : Scoped p m.frames
  /-- New names come only into the frame of the main program. -/
  new_names : ∀ (call : HostCall) (k : Nat) (f g : Frame) (name : String),
    m.frame? k = some f → (call.apply m).frame? k = some g → g.Has name → f.Has name ∨ k = 0
  /-- A frame that is not the innermost one keeps its loop counters and its return address. -/
  suspended : ∀ (run : List HostCall) (k : Nat) (f : Frame),
    m.frame? k = some f → StaysAbove (k + 1) m run →
      ∃ g, (run.foldl HostCall.apply m).frame? k = some g ∧ g.loops = f.loops ∧
        g.returnTo = f.returnTo
  /-- An assignment changes one variable. -/
  make : ∀ (name : String) (x : Float), m.made? = some (name, x) →
    lookup? m.step.frames name = some x ∧
      ∀ other ≠ name, lookup? m.step.frames other = lookup? m.frames other
  /-- A call makes a frame with the parameters of its procedure. When that is left, the program
  goes on right after the call, and every variable that could be seen and was not hidden by a
  parameter has the value that was assigned to it last. -/
  call : ∀ (proc : Procedure) (run : List HostCall), m.entered? = some proc →
    (∃ f, m.step.frames = f :: m.frames ∧ ∀ name, f.Has name ↔ name ∈ proc.params) ∧
      (StaysAbove m.frames.length m.step run →
        (run.foldl HostCall.apply m.step).frames.length ≤ m.frames.length →
          (run.foldl HostCall.apply m.step).pc = m.pc + 1 ∧
            (run.foldl HostCall.apply m.step).frames.length = m.frames.length ∧
            ∀ (name : String) (x : Float), Logo.lookup? m.frames name = some x →
              (∀ q ∈ proc :: enteredIn m.step run, name ∉ q.params) →
              Logo.lookup? (run.foldl HostCall.apply m.step).frames name =
                some ((lastMade? name (madeIn m.step run)).getD x))

/-- Variables are scoped by the running calls. Whatever a host does with the machine of a compiled
program, the parameters of a procedure stay in the frames of its calls, nothing else comes into
these frames, and a call changes no variable of its callers but by assignments. -/
theorem wellScoped_of_compile {source : String} {p : Program} (hp : compile source = .ok p)
    (supply : List Input) (limit : Nat) (past : List HostCall) :
    (past.foldl HostCall.apply (.new p supply limit)).WellScoped p := by
  have horder := InOrder.after hp supply limit past
  have hscoped := Scoped.after hp supply limit past
  generalize past.foldl HostCall.apply (.new p supply limit) = m at horder hscoped
  obtain rfl := horder.program
  have hchanges := Machine.changes_step hscoped.ne_nil
  constructor
  case parameters => exact hscoped
  case new_names =>
    intro call k f g name hf hg hname
    by_cases hreset : call = .reset
    · have hk := Machine.lt_of_frame? hg
      rw [hreset, HostCall.frames_reset, List.length_singleton, Nat.lt_one_iff] at hk
      exact .inr hk
    · obtain ⟨hlength, -, -⟩ | ⟨g', hg', hkept⟩ := (HostCall.changes hscoped.ne_nil hreset).frame hf
      · exact absurd (Machine.lt_of_frame? hg) (by omega)
      · obtain rfl := Option.some.inj (hg'.symm.trans hg)
        by_cases hk : k = 0
        · exact .inr hk
        · exact .inl ((hkept.has hk name).mp hname)
  case suspended => exact fun run k f hf habove => habove.frame_kept hf
  case make =>
    intro name x hmade
    rw [hmade] at hchanges
    rw [hchanges.frames_of_assign]
    exact ⟨lookup?_assign_self name x hscoped.ne_nil,
      fun other hother => lookup?_assign_of_ne name x hother m.frames⟩
  case call =>
    intro proc run hentered
    rw [hentered] at hchanges
    obtain ⟨i, args, f, -, -, hframes, hreturn, hnames⟩ := hchanges.frames_of_enter hp
    refine ⟨⟨f, hframes, hnames⟩, fun habove hleft => ?_⟩
    have hf : m.step.frame? m.frames.length = some f :=
      Machine.frame?_eq_some.mpr ⟨[], m.frames, hframes, rfl⟩
    obtain ⟨hpc, hlength⟩ := habove.returns hf hleft
    refine ⟨hpc.trans hreturn, hlength, fun name x hx hhidden => ?_⟩
    have hnot : f.vars.lookup name = none := by
      rw [← Option.not_isSome_iff_eq_none]
      exact fun hhas => hhidden proc List.mem_cons_self ((hnames name).mp hhas)
    have hfound : FoundOutside m.frames.length name x m.step.frames := by
      refine ⟨[f], m.frames, hframes, rfl, ?_, hx⟩
      rw [lookup?_cons, hnot]
      rfl
    exact (hfound.of_run habove fun q hq => hhidden q (List.mem_cons_of_mem proc hq)).lookup? hleft

/-- A procedure that assigns to a variable of its caller, about to call itself. -/
theorem wellScoped_of_recursive_program :
    ∃ p, compile "to f :n make \"x :n if :n > 0 [f :n - 1] end make \"x 9 f 2" = .ok p ∧
      ([.reset, .step, .step, .step, .step].foldl HostCall.apply
        (.new p [] 8)).entered?.isSome ∧
      ([.reset, .step, .step, .step, .step].foldl HostCall.apply (.new p [] 8)).WellScoped p := by
  have hok : ((compile "to f :n make \"x :n if :n > 0 [f :n - 1] end make \"x 9 f 2").toOption.any
      fun p => ([.reset, .step, .step, .step, .step].foldl HostCall.apply
        (.new p [] 8)).entered?.isSome) = true := by decide +kernel
  cases hp : compile "to f :n make \"x :n if :n > 0 [f :n - 1] end make \"x 9 f 2" with
  | error problems =>
      rw [hp] at hok
      cases hok
  | ok p =>
      rw [hp, Except.toOption, Option.any_some] at hok
      exact ⟨p, rfl, hok, wellScoped_of_compile hp [] 8 _⟩

end LogoStudio.Logo
