import LogoStudio.Proofs.Logo.Inputs

/-!
# The machine follows the meaning

A scene of the direct semantics and the marks of the running calls, their loop counters and
the places they return to, make up a settled machine. From the start of the code of some
statements, ticks lead to the place after it, with the scene that the statements mean and
the same marks, or to a `ret` with the counters that were running there, or to a fault. The
meaning of procedure calls is a parameter, as it is in the semantics: what is needed of it
is stated once and proved by induction on the room for nested calls.
-/
namespace LogoStudio.Logo

/-- A frame without its variables. -/
structure Mark where
  /-- The turns left of the running loops, innermost first. -/
  loops : List Nat
  returnTo : Nat

/-- The frames with given marks and variables. -/
def framesOf (marks : List Mark) (scopes : List Scope) : List Frame :=
  List.zipWith (fun mark vars => ⟨vars, mark.loops, mark.returnTo⟩) marks scopes

lemma scopesOf_framesOf {marks : List Mark} {scopes : List Scope}
    (h : scopes.length = marks.length) : scopesOf (framesOf marks scopes) = scopes := by
  induction marks generalizing scopes with
  | nil =>
      obtain rfl := List.length_eq_zero_iff.mp h
      rfl
  | cons mark marks ih =>
      cases scopes with
      | nil => cases h
      | cons scope scopes => exact congrArg (scope :: ·) (ih (Nat.succ.inj h))

lemma length_framesOf {marks : List Mark} {scopes : List Scope}
    (h : scopes.length = marks.length) : (framesOf marks scopes).length = marks.length := by
  rw [framesOf, List.length_zipWith, h, Nat.min_self]

lemma length_setVariable (name : String) (x : Float) (scopes : List Scope) :
    (setVariable name x scopes).length = scopes.length := by
  fun_induction setVariable name x scopes with
  | case1 => rfl
  | case2 => rfl
  | case3 => rfl
  | case4 => rfl
  | case5 scope outer hne hlookup ih => exact congrArg (· + 1) ih

/-- An assignment changes variables and no marks. -/
lemma assign_framesOf (name : String) (x : Float) {marks : List Mark} {scopes : List Scope}
    (h : scopes.length = marks.length) :
    assign name x (framesOf marks scopes) = framesOf marks (setVariable name x scopes) := by
  induction marks generalizing scopes with
  | nil => rfl
  | cons mark marks ih =>
      cases scopes with
      | nil => cases h
      | cons scope scopes =>
          have hlength := Nat.succ.inj h
          cases marks with
          | nil =>
              obtain rfl := List.length_eq_zero_iff.mp hlength
              simp only [framesOf, List.zipWith_cons_cons, List.zipWith_nil_left, assign,
                setVariable]
              split <;> rfl
          | cons mark' marks =>
              cases scopes with
              | nil => cases hlength
              | cons scope' scopes =>
                  change (if (scope.lookup name).isSome then _
                    else _ :: assign name x (framesOf (mark' :: marks) (scope' :: scopes))) =
                      framesOf _ (if (scope.lookup name).isSome then _
                        else scope :: setVariable name x (scope' :: scopes))
                  split
                  · rfl
                  · exact congrArg (_ :: ·) (ih hlength)

section

variable (p : Program) (limit : Nat) (canvas : Option Size)

/-- The settled machine at a place, with given marks and a scene. -/
def Scene.machine (pc : Nat) (marks : List Mark) (s : Scene) : Machine :=
  { Machine.opening p limit canvas s.answers with
    pc
    frames := framesOf marks s.scopes
    turtle := s.turtle
    shown := s.shown }

end

namespace Machine

/-- Ticks lead from one machine to another. -/
def Leads (m m' : Machine) : Prop := ∃ n, tick^[n] m = m'

lemma Leads.refl (m : Machine) : m.Leads m := ⟨0, rfl⟩

lemma Leads.trans {m m' m'' : Machine} (h : m.Leads m') (h' : m'.Leads m'') : m.Leads m'' := by
  obtain ⟨n, rfl⟩ := h
  obtain ⟨k, rfl⟩ := h'
  exact ⟨k + n, Function.iterate_add_apply tick k n m⟩

lemma Leads.of_tick {m m' : Machine} (h : m.tick = m') : m.Leads m' := ⟨1, h⟩

/-- A tick that meets no fault settles what the instruction did. -/
lemma tick_of_ok {m next : Machine} {instr : Instr} {rest : List Input}
    (hrun : m.status = .running) (hinstr : m.program.code[m.pc]? = some instr)
    (hok : (m.execute instr).outcome m.answers = (.ok next, rest)) :
    m.tick = { next with answers := rest }.settle := by
  rw [tick, if_pos hrun, advance_eq, hinstr]
  dsimp only
  rw [hok]

/-- A tick that meets a fault halts with its message. -/
lemma tick_of_error {m : Machine} {instr : Instr} {fault : Fault} {rest : List Input}
    (hrun : m.status = .running) (hinstr : m.program.code[m.pc]? = some instr)
    (herror : (m.execute instr).outcome m.answers = (.error fault, rest)) :
    m.tick.status = .halted ∧ m.tick.shown = m.faultEvent fault :: m.shown := by
  rw [tick, if_pos hrun, advance_eq, hinstr]
  dsimp only
  rw [herror]
  exact ⟨rfl, rfl⟩

end Machine

section

variable (p : Program) (limit : Nat) (canvas : Option Size)

/-- A machine runs a course that goes on at the place `next`. If it is stopped, it is about
to leave the innermost call, whatever loops were running there. -/
def Realizes (mark : Mark) (outer : List Mark) (next : Nat) (m : Machine) : Course → Prop
  | .onward s => s.scopes.length = outer.length + 1 ∧
      m.Leads (s.machine p limit canvas next (mark :: outer))
  | .stopped s => s.scopes.length = outer.length + 1 ∧
      ∃ pc loops, p.code[pc]? = some .ret ∧
        m.Leads (s.machine p limit canvas pc (⟨loops, mark.returnTo⟩ :: outer))
  | .failed shown => ∃ m', m.Leads m' ∧ m'.status = .halted ∧ m'.shown = shown

end

namespace Realizes

variable {p : Program} {limit : Nat} {canvas : Option Size} {mark : Mark} {outer : List Mark}
  {next : Nat} {m m' : Machine} {c : Course}

lemma of_leads (h : m.Leads m') (h' : Realizes p limit canvas mark outer next m' c) :
    Realizes p limit canvas mark outer next m c := by
  cases c with
  | onward s => exact ⟨h'.1, h.trans h'.2⟩
  | stopped s =>
      obtain ⟨hlength, pc, loops, hret, hleads⟩ := h'
      exact ⟨hlength, pc, loops, hret, h.trans hleads⟩
  | failed shown =>
      obtain ⟨last, hleads, hhalted⟩ := h'
      exact ⟨last, h.trans hleads, hhalted⟩

/-- One course after another. -/
lemma andThen {middle : Nat} {mark' : Mark} {f : Scene → Course}
    (h : Realizes p limit canvas mark' outer middle m c)
    (hreturn : mark'.returnTo = mark.returnTo)
    (hf : ∀ s : Scene, s.scopes.length = outer.length + 1 →
      Realizes p limit canvas mark outer next
        (s.machine p limit canvas middle (mark' :: outer)) (f s)) :
    Realizes p limit canvas mark outer next m (c.andThen f) := by
  cases c with
  | onward s => exact (hf s h.1).of_leads h.2
  | stopped s =>
      obtain ⟨hlength, pc, loops, hret, hleads⟩ := h
      rw [hreturn] at hleads
      exact ⟨hlength, pc, loops, hret, hleads⟩
  | failed shown => exact h

/-- An instruction that evaluates something and goes on with its value. -/
lemma attempt {α : Type} {pc line : Nat} {instr : Instr} {marks : List Mark} {s : Scene}
    {x : Eval α} {f : α → Scene → Course} {g : α → Machine}
    (hinstr : p.code[pc]? = some instr) (hline : p.line pc = line)
    (hexecute : (s.machine p limit canvas pc marks).execute instr = g <$> x)
    (hf : ∀ a rest, x.outcome s.answers = (.ok a, rest) →
      Realizes p limit canvas mark outer next ({ g a with answers := rest }.settle)
        (f a { s with answers := rest })) :
    Realizes p limit canvas mark outer next (s.machine p limit canvas pc marks)
      (s.attempt line x f) := by
  unfold Scene.attempt
  rcases hx : x.outcome s.answers with ⟨fault | a, rest⟩
  · have herror : ((s.machine p limit canvas pc marks).execute instr).outcome s.answers =
        (.error fault, rest) := by
      rw [hexecute, Eval.outcome_map, hx]
      rfl
    obtain ⟨hhalted, hshown⟩ := Machine.tick_of_error rfl hinstr herror
    refine ⟨_, .of_tick rfl, hhalted, ?_⟩
    rw [hshown, ← hline]
    rfl
  · have hok : ((s.machine p limit canvas pc marks).execute instr).outcome s.answers =
        (.ok (g a), rest) := by
      rw [hexecute, Eval.outcome_map, hx]
      rfl
    exact (hf a rest hx).of_leads (.of_tick (Machine.tick_of_ok rfl hinstr hok))

end Realizes

section

variable {p : Program} {limit : Nat} {canvas : Option Size} {procs : List Definition}
  {depth : Nat} {enter : CallMeaning}

/-- What is needed of the meaning of procedure calls where `depth` calls are running: the
machine realizes it from the instruction of the call on. -/
def Enters (p : Program) (limit : Nat) (canvas : Option Size) (procs : List Definition)
    (depth : Nat) (enter : CallMeaning) : Prop :=
  ∀ {i : Nat} {d : Definition} {pc line : Nat} {args : List Arg} {mark : Mark}
    {outer : List Mark} {s : Scene}, procs[i]? = some d →
    List.Forall₂ Arg.Fits args (List.replicate d.params.length .num) →
    p.code[pc]? = some (.call i (args.filterMap Arg.expr?)) → p.line pc = line →
    s.scopes.length = outer.length + 1 → outer.length = depth →
    Realizes p limit canvas mark outer (pc + 1)
      (s.machine p limit canvas pc (mark :: outer)) (enter d line args s)

lemma eval_machine {s : Scene} {pc : Nat} {marks : List Mark}
    (h : s.scopes.length = marks.length) (e : NumExpr) :
    (s.machine p limit canvas pc marks).eval e.lower = e.value s.scopes canvas := by
  rw [Machine.eval_eq]
  exact congrArg (e.value · canvas) (scopesOf_framesOf h)

/-- The turns of a loop are counted as the machine counts them: a loop without turns is
left at once. -/
lemma startLoop_eq (m : Machine) (count : Float) (exit : Nat) :
    m.startLoop count exit =
      (fun turns => if turns = 0 then { m with pc := exit }
        else m.withLoops (turns :: ·) (m.pc + 1)) <$> turnsOf count := by
  unfold Machine.startLoop turnsOf
  split
  · rfl
  · next hcount =>
      rw [not_or] at hcount
      obtain ⟨hneg, hwhole⟩ := hcount
      rw [map_pure]
      by_cases hzero : (count == 0) = true
      · rw [if_pos hzero, if_pos (Number.toNat64_of_eq_zero hzero)]
      · have hpos := Number.toNat64_pos hneg (by simpa using hwhole) (by simpa using hzero)
        rw [if_neg hzero, if_neg (by omega)]

/-- Some turns of a loop, from the start of its body on. -/
lemma realizes_turns {base length : Nat} {outer : List Mark} {body : Scene → Course}
    (hnext : p.code[base + length]? = some (.loopNext base))
    (hbody : ∀ (mark : Mark) (s : Scene), s.scopes.length = outer.length + 1 →
      Realizes p limit canvas mark outer (base + length)
        (s.machine p limit canvas base (mark :: outer)) (body s))
    (mark : Mark) (turns : Nat) {s : Scene} (hlength : s.scopes.length = outer.length + 1) :
    Realizes p limit canvas mark outer (base + length + 1)
      (s.machine p limit canvas base (⟨(turns + 1) :: mark.loops, mark.returnTo⟩ :: outer))
      (times body (turns + 1) s) := by
  induction turns generalizing s with
  | zero =>
      rw [times]
      refine (hbody ⟨1 :: mark.loops, mark.returnTo⟩ s hlength).andThen rfl ?_
      intro s' hlength'
      obtain ⟨scope, scopes, hscopes⟩ := List.exists_cons_of_length_eq_add_one hlength'
      have htick := Machine.tick_of_ok (m := s'.machine p limit canvas (base + length)
        (⟨1 :: mark.loops, mark.returnTo⟩ :: outer)) rfl hnext rfl
      refine ⟨hlength', .of_tick (htick.trans ?_)⟩
      simp only [Scene.machine, hscopes]
      rfl
  | succ turns ih =>
      rw [times]
      refine (hbody ⟨(turns + 2) :: mark.loops, mark.returnTo⟩ s hlength).andThen rfl ?_
      intro s' hlength'
      obtain ⟨scope, scopes, hscopes⟩ := List.exists_cons_of_length_eq_add_one hlength'
      have htick := Machine.tick_of_ok (m := s'.machine p limit canvas (base + length)
        (⟨(turns + 2) :: mark.loops, mark.returnTo⟩ :: outer)) rfl hnext rfl
      refine (ih hlength').of_leads (.of_tick (htick.trans ?_))
      simp only [Scene.machine, hscopes]
      rfl

/-- A call statement. -/
lemma realizes_call (henter : Enters p limit canvas procs depth enter) {name : Ident}
    {args : List Arg} (hproblems : callProblems procs name args = []) {base : Nat}
    (hholds : p.Holds base ((Statement.call name args).code procs base)) {mark : Mark}
    {outer : List Mark} {s : Scene} (hlength : s.scopes.length = outer.length + 1)
    (hdepth : outer.length = depth) :
    Realizes p limit canvas mark outer (base + ((Statement.call name args).code procs base).length)
      (s.machine p limit canvas base (mark :: outer))
      (callMeaning procs canvas enter name args s) := by
  obtain ⟨instr, hcode, hcalls⟩ := calls_of_no_problems hproblems
  simp only [Statement.code, hcode, Option.map_some, Option.toList_some, List.length_cons,
    List.length_nil, Nat.zero_add] at hholds ⊢
  obtain ⟨hinstr, hline⟩ := hholds.head
  cases hcalls with
  | stop hname =>
      rw [callMeaning, if_pos hname]
      exact ⟨hlength, base, mark.loops, hinstr, .refl _⟩
  | @primitive q hname hq hfits =>
      rw [callMeaning, if_neg hname, hq]
      dsimp only
      by_cases hwait : q = .wait
      · subst hwait
        obtain rfl := List.forall₂_nil_right_iff.mp hfits
        refine Realizes.attempt
          (g := fun _ => { (s.machine p limit canvas base (mark :: outer)).suspended with
            pc := base + 1 }) hinstr hline rfl ?_
        intro result rest hresult
        obtain ⟨rfl, rfl⟩ : (s.turtle, []) = result ∧ s.answers = rest := by
          simpa [inputValues, Primitive.perform] using hresult
        exact ⟨hlength, .refl _⟩
      · have hscopes : scopesOf (s.machine p limit canvas base (mark :: outer)).frames = s.scopes :=
          scopesOf_framesOf hlength
        have hexecute := Machine.primitive_eq (s.machine p limit canvas base (mark :: outer))
          hwait hfits
        rw [hscopes] at hexecute
        refine Realizes.attempt
          (g := fun result =>
            { (s.machine p limit canvas base (mark :: outer)).presented result with
              pc := base + 1 }) hinstr hline ?_ ?_
        · rw [Machine.execute, hexecute, bind_map_left, ← bind_pure_comp]
          rfl
        · intro result rest hresult
          exact ⟨hlength, .refl _⟩
  | @procedure i d hname hq hd hfind hfits =>
      rw [callMeaning, if_neg hname, hq]
      dsimp only
      rw [hfind]
      exact henter hd hfits hinstr hline hlength hdepth

mutual
/-- The code of a statement realizes its meaning. -/
lemma realizes_code (henter : Enters p limit canvas procs depth enter) (statement : Statement)
    (hproblems : statement.callProblems procs = []) {base : Nat}
    (hholds : p.Holds base (statement.code procs base)) {mark : Mark} {outer : List Mark}
    {s : Scene} (hlength : s.scopes.length = outer.length + 1) (hdepth : outer.length = depth) :
    Realizes p limit canvas mark outer (base + (statement.code procs base).length)
      (s.machine p limit canvas base (mark :: outer))
      (statement.meaning procs canvas enter s) := by
  have heval : ∀ e : NumExpr, (s.machine p limit canvas base (mark :: outer)).eval e.lower =
      e.value s.scopes canvas := eval_machine hlength
  cases statement with
  | define name params body endLine => exact ⟨hlength, .refl _⟩
  | call name args => exact realizes_call henter hproblems hholds hlength hdepth
  | make name value =>
      obtain ⟨hinstr, hline⟩ := hholds.head
      rw [Statement.meaning]
      refine Realizes.attempt
        (g := fun x => { s.machine p limit canvas base (mark :: outer) with
          frames := assign name.name x (framesOf (mark :: outer) s.scopes)
          pc := base + 1 }) hinstr hline ?_ ?_
      · rw [Machine.execute, heval, ← bind_pure_comp]
        rfl
      · intro x rest hx
        refine ⟨(length_setVariable _ _ _).trans hlength, ?_⟩
        rw [assign_framesOf name.name x hlength]
        exact .refl _
  | branch line cond body =>
      simp only [Statement.code] at hholds ⊢
      obtain ⟨hinstr, hline⟩ := hholds.head
      rw [Statement.meaning]
      refine Realizes.attempt
        (g := fun holds : Bool => { s.machine p limit canvas base (mark :: outer) with
          pc := if holds then base + 1 else base + 1 + (codeOf procs (base + 1) body).length })
        hinstr hline ?_ ?_
      · simp only [Machine.execute, Condition.lower, heval, Condition.value, map_bind, map_pure]
        rfl
      · intro holds rest hholds'
        rw [List.length_cons, Nat.add_comm _ 1, ← Nat.add_assoc]
        cases holds with
        | true => exact realizes_codeOf henter body hproblems hholds.tail hlength hdepth
        | false => exact ⟨hlength, .refl _⟩
  | loop line count body =>
      simp only [Statement.code, List.cons_append] at hholds ⊢
      obtain ⟨hinstr, hline⟩ := hholds.head
      have hbody := hholds.tail
      have hnext := hbody.right.head.1
      rw [List.length_cons, List.length_append, List.length_singleton]
      have hplace : base + ((codeOf procs (base + 1) body).length + 1 + 1) =
          base + 1 + (codeOf procs (base + 1) body).length + 1 := by omega
      have hexit : base + 2 + (codeOf procs (base + 1) body).length =
          base + 1 + (codeOf procs (base + 1) body).length + 1 := by omega
      rw [hplace]
      rw [hexit] at hinstr
      rw [Statement.meaning]
      have hexecute : (s.machine p limit canvas base (mark :: outer)).execute
          (.loopStart count.lower (base + 1 + (codeOf procs (base + 1) body).length + 1)) =
            (fun turns => if turns = 0 then { s.machine p limit canvas base (mark :: outer) with
                pc := base + 1 + (codeOf procs (base + 1) body).length + 1 }
              else (s.machine p limit canvas base (mark :: outer)).withLoops (turns :: ·)
                (base + 1)) <$> (do turnsOf (← count.value s.scopes canvas)) := by
        rw [Machine.execute, heval, map_bind]
        simp only [startLoop_eq]
        rfl
      refine Realizes.attempt hinstr hline hexecute ?_
      intro turns rest hturns
      cases turns with
      | zero => exact ⟨hlength, .refl _⟩
      | succ turns =>
          obtain ⟨scope, scopes, hscopes⟩ := List.exists_cons_of_length_eq_add_one hlength
          have hstart : { (s.machine p limit canvas base (mark :: outer)).withLoops
                ((turns + 1) :: ·) (base + 1) with answers := rest }.settle =
              { s with answers := rest }.machine p limit canvas (base + 1)
                (⟨(turns + 1) :: mark.loops, mark.returnTo⟩ :: outer) := by
            simp only [Scene.machine, hscopes]
            rfl
          have hturns := realizes_turns hnext
            (fun mark s hlength => realizes_codeOf henter body hproblems hbody.left hlength hdepth)
            mark turns
            (show { s with answers := rest }.scopes.length = outer.length + 1 from hlength)
          rw [← hstart] at hturns
          exact hturns

/-- The code of statements realizes their meaning. -/
lemma realizes_codeOf (henter : Enters p limit canvas procs depth enter)
    (statements : List Statement) (hproblems : callProblemsIn procs statements = []) {base : Nat}
    (hholds : p.Holds base (codeOf procs base statements)) {mark : Mark} {outer : List Mark}
    {s : Scene} (hlength : s.scopes.length = outer.length + 1) (hdepth : outer.length = depth) :
    Realizes p limit canvas mark outer (base + (codeOf procs base statements).length)
      (s.machine p limit canvas base (mark :: outer))
      (meaningOf procs canvas enter statements s) := by
  cases statements with
  | nil => exact ⟨hlength, .refl _⟩
  | cons first rest =>
      obtain ⟨hfirst, hrest⟩ := List.append_eq_nil_iff.mp hproblems
      simp only [codeOf] at hholds ⊢
      rw [List.length_append, ← Nat.add_assoc]
      refine (realizes_code henter first hfirst hholds.left hlength hdepth).andThen rfl ?_
      intro s' hlength'
      exact realizes_codeOf henter rest hrest hholds.right hlength' hdepth
end

/-- A `ret` leaves the innermost call. -/
lemma tick_ret {pc back : Nat} {loops : List Nat} {mark : Mark} {outer : List Mark} {s : Scene}
    (hret : p.code[pc]? = some .ret) (hlength : s.scopes.length = outer.length + 2) :
    (s.machine p limit canvas pc (⟨loops, back⟩ :: mark :: outer)).tick =
      { s with scopes := s.scopes.tail }.machine p limit canvas back (mark :: outer) := by
  obtain ⟨scope, scopes, hscopes⟩ := List.exists_cons_of_length_eq_add_one hlength
  rw [hscopes, List.length_cons] at hlength
  obtain ⟨scope', scopes', rfl⟩ := List.exists_cons_of_length_eq_add_one (Nat.succ.inj hlength)
  rw [Machine.tick_of_ok (m := s.machine p limit canvas pc (⟨loops, back⟩ :: mark :: outer))
    rfl hret rfl]
  simp only [Scene.machine, hscopes]
  rfl

/-- The body of a procedure and the `ret` after it. -/
lemma Realizes.leave {pc back : Nat} {mark : Mark} {outer : List Mark} {m : Machine} {c : Course}
    (hret : p.code[pc]? = some .ret)
    (h : Realizes p limit canvas ⟨[], back⟩ (mark :: outer) pc m c) :
    Realizes p limit canvas mark outer back m c.leave := by
  have htail {s : Scene} (hlength : s.scopes.length = outer.length + 2) :
      s.scopes.tail.length = outer.length + 1 := by
    rw [List.length_tail, hlength]
    rfl
  cases c with
  | onward s =>
      obtain ⟨hlength, hleads⟩ := h
      exact ⟨htail hlength, hleads.trans (.of_tick (tick_ret hret hlength))⟩
  | stopped s =>
      obtain ⟨hlength, pc', loops, hret', hleads⟩ := h
      exact ⟨htail hlength, hleads.trans (.of_tick (tick_ret hret' hlength))⟩
  | failed shown => exact h

/-- Every procedure of a list stands at its entry, and its calls are right. -/
def Program.Provides (p : Program) (procs : List Definition) : Prop :=
  ∀ (i : Nat) (d : Definition), procs[i]? = some d → ∃ entry,
    p.procs[i]? = some ⟨d.name.name, d.params.map Ident.name, entry⟩ ∧
    p.Holds entry (d.code procs entry) ∧ callProblemsIn procs d.body = []

/-- The machine realizes procedure calls, as deep as they may nest. -/
lemma enters_enterProcedure (hprovides : p.Provides procs) {room : Nat} (h : depth + room = limit) :
    Enters p limit canvas procs depth (enterProcedure procs canvas limit room) := by
  induction room generalizing depth with
  | zero =>
      intro i d pc line args mark outer s hd hfits hinstr hline hlength hdepth
      have hframes : (s.machine p limit canvas pc (mark :: outer)).depthLimit <
          (s.machine p limit canvas pc (mark :: outer)).frames.length := by
        change limit < (framesOf (mark :: outer) s.scopes).length
        rw [length_framesOf hlength, List.length_cons]
        omega
      have herror : ((s.machine p limit canvas pc (mark :: outer)).execute
          (.call i (args.filterMap Arg.expr?))).outcome s.answers =
            (.error (.tooManyCalls limit), s.answers) := by
        rw [Machine.execute, if_pos hframes]
        rfl
      obtain ⟨hhalted, hshown⟩ := Machine.tick_of_error rfl hinstr herror
      refine ⟨_, .of_tick rfl, hhalted, ?_⟩
      rw [hshown, ← hline]
      rfl
  | succ room ih =>
      intro i d pc line args mark outer s hd hfits hinstr hline hlength hdepth
      obtain ⟨entry, hproc, hholds, hproblems⟩ := hprovides i d hd
      have hframes : ¬(s.machine p limit canvas pc (mark :: outer)).depthLimit <
          (s.machine p limit canvas pc (mark :: outer)).frames.length := by
        change ¬limit < (framesOf (mark :: outer) s.scopes).length
        rw [length_framesOf hlength, List.length_cons]
        omega
      have hscopes : scopesOf (s.machine p limit canvas pc (mark :: outer)).frames = s.scopes :=
        scopesOf_framesOf hlength
      have hinputs := Machine.bindInputs_eq (s.machine p limit canvas pc (mark :: outer)) hfits
      rw [hscopes] at hinputs
      have hexecute : (s.machine p limit canvas pc (mark :: outer)).execute
          (.call i (args.filterMap Arg.expr?)) =
            (fun scope => { s.machine p limit canvas pc (mark :: outer) with
              frames := ⟨scope.reverse, [], pc + 1⟩ :: framesOf (mark :: outer) s.scopes
              pc := entry }) <$> inputScope s.scopes canvas d.params args := by
        have htarget : (s.machine p limit canvas pc (mark :: outer)).program.procs[i]? =
            some ⟨d.name.name, d.params.map Ident.name, entry⟩ := hproc
        rw [Machine.execute, if_neg hframes, htarget, ← bind_pure_comp]
        dsimp only
        rw [Machine.call, hinputs]
        rfl
      rw [enterProcedure]
      refine Realizes.attempt hinstr hline hexecute ?_
      intro scope rest hscope
      have hbody : Realizes p limit canvas ⟨[], pc + 1⟩ (mark :: outer)
          (entry + (codeOf procs entry d.body).length)
          ({ s with answers := rest, scopes := scope.reverse :: s.scopes }.machine p limit canvas
            entry (⟨[], pc + 1⟩ :: mark :: outer)) _ :=
        realizes_codeOf (@ih (depth + 1) (by omega)) d.body hproblems hholds.left
          (congrArg (· + 1) hlength) (congrArg (· + 1) hdepth)
      exact hbody.leave hholds.right.head.1

end

lemma assemble_provides {lastLine : Nat} {program : List Statement}
    (h : ∀ d ∈ accepted program, callProblemsIn (accepted program) d.body = []) :
    (assemble lastLine program).Provides (accepted program) := by
  intro i d hd
  obtain ⟨entry, hproc, -, -, hholds, -⟩ := assemble_procedure lastLine program hd
  exact ⟨entry, hproc, hholds, h d (List.mem_of_getElem? hd)⟩

/-- A compiled program that starts halts, and has then shown what the program means. -/
lemma opening_leads {source : String} {p : Program} {program : List Statement}
    (hp : compile source = .ok p) (hparse : parse source = .ok program) (limit : Nat)
    (canvas : Option Size) (answers : List Input) :
    ∃ m, (Machine.opening p limit canvas answers).Leads m ∧ m.status = .halted ∧
      m.events = programMeaning limit canvas answers program := by
  obtain ⟨program', hparse', rfl, haccepted, hmain, hbodies⟩ := compile_eq_ok hp
  obtain rfl := Except.ok.inj (hparse'.symm.trans hparse)
  have hholds := assemble_holds_main (lineCount source) program'
  have hrun : Realizes (assemble (lineCount source) program') limit canvas ⟨[], 0⟩ []
      (0 + (codeOf (accepted program') 0 program').length)
      ((Scene.start answers).machine (assemble (lineCount source) program') limit canvas 0
        [⟨[], 0⟩])
      (meaningOf (accepted program') canvas
        (enterProcedure (accepted program') canvas limit limit) program' (.start answers)) :=
    realizes_codeOf (enters_enterProcedure (assemble_provides hbodies) (Nat.zero_add limit))
      program' hmain hholds.left rfl rfl
  have hstart : Machine.opening (assemble (lineCount source) program') limit canvas answers =
      (Scene.start answers).machine (assemble (lineCount source) program') limit canvas 0
        [⟨[], 0⟩] := rfl
  rw [hstart, programMeaning, ← haccepted]
  cases hcourse : meaningOf (accepted program') canvas
      (enterProcedure (accepted program') canvas limit limit) program' (.start answers) with
  | onward s =>
      rw [hcourse] at hrun
      obtain ⟨hlength, hleads⟩ := hrun
      have hhalt := Machine.tick_of_ok (m := s.machine _ limit canvas _ [⟨[], 0⟩]) rfl
        hholds.right.head.1 rfl
      exact ⟨_, hleads.trans (.of_tick hhalt), rfl, rfl⟩
  | stopped s =>
      rw [hcourse] at hrun
      obtain ⟨hlength, pc, loops, hret, hleads⟩ := hrun
      obtain ⟨scope, scopes, hscopes⟩ := List.exists_cons_of_length_eq_add_one hlength
      rw [hscopes] at hlength
      obtain rfl := List.length_eq_zero_iff.mp (Nat.succ.inj hlength)
      have hend := Machine.tick_of_ok (m := s.machine _ limit canvas pc [⟨loops, 0⟩]) rfl hret rfl
      refine ⟨_, hleads.trans (.of_tick hend), ?_, ?_⟩
      · simp only [Scene.machine, hscopes]
        rfl
      · simp only [Scene.machine, hscopes]
        rfl
  | failed shown =>
      rw [hcourse] at hrun
      obtain ⟨m, hleads, hhalted, hshown⟩ := hrun
      exact ⟨m, hleads, hhalted, congrArg List.reverse hshown⟩

end LogoStudio.Logo
