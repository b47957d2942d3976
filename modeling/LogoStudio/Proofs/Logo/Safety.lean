import LogoStudio.Proofs.Logo.Inputs
import LogoStudio.Proofs.Logo.Lines
import LogoStudio.Proofs.Logo.Nesting

/-!
# Compiled programs cannot go wrong

Whatever a host does with the machine of a compiled program, the frames of the machine
agree with the code: each frame stands in the code of the procedure it was made for, and
has one counter for each loop around its place. The agreement survives every instruction,
also one that fails and is tried again, and every operation of the host. So the machine
always has an instruction to execute, the procedures and counters that instructions name
are there, and no fault is met that the checks of the compiler rule out.
-/
namespace LogoStudio.Logo

inductive HostCall where
  | step
  | reset
  | stop
  | setStatus (status : Status)
  | enqueue (event : HostEvent) (data : Json)
  | setTimer (timer : Option Nat)
  | bindCanvas (size : Size)

def HostCall.apply (m : Machine) : HostCall → Machine
  | step => interpreter.step m
  | reset => interpreter.reset m
  | stop => interpreter.stop m
  | setStatus status => interpreter.setStatus status m
  | enqueue event data => (interpreter.enqueue event data m).2
  | setTimer timer => interpreter.setTimer timer m
  | bindCanvas size => interpreter.bindCanvas size m

/-- The frames of a machine at `pc` agree with the code. The main program is executed in
the last frame; every other frame was made by a call, executes the procedure that was
called, and returns to the place after the call. In each frame there is one counter for
each loop around the place of the frame. -/
inductive Stacked (p : Program) : Nat → List Frame → Prop
  | main {pc : Nat} {f : Frame} (hat : p.At none f.loops.length pc) (hreturn : f.returnTo = 0) :
      Stacked p pc [f]
  | call {pc i place : Nat} {args : List Expr} {f : Frame} {outer : List Frame}
      (hat : p.At (some i) f.loops.length pc) (hcall : p.code[place]? = some (.call i args))
      (hreturn : f.returnTo = place + 1) (hrest : Stacked p (place + 1) outer) :
      Stacked p pc (f :: outer)

namespace Stacked

variable {p : Program} {pc : Nat} {f : Frame} {frames outer : List Frame}

lemma ne_nil (h : Stacked p pc frames) : frames ≠ [] := by
  cases h <;> simp

/-- The innermost frame may move to any place of its procedure that its counters allow. -/
lemma move (h : Stacked p pc (f :: outer)) :
    ∃ owner, p.At owner f.loops.length pc ∧
      ∀ pc' f', f'.returnTo = f.returnTo → p.At owner f'.loops.length pc' →
        Stacked p pc' (f' :: outer) := by
  cases h with
  | main hat hreturn => exact ⟨none, hat, fun pc' f' hf' hat' => .main hat' (hf'.trans hreturn)⟩
  | call hat hcall hreturn hrest =>
      exact ⟨some _, hat, fun pc' f' hf' hat' => .call hat' hcall (hf'.trans hreturn) hrest⟩

/-- Variables do not matter. -/
lemma assign (h : Stacked p pc frames) (name : String) (x : Float) :
    Stacked p pc (assign name x frames) := by
  induction h with
  | main hat hreturn =>
      simp only [Logo.assign]
      split <;> exact .main hat hreturn
  | @call pc i place args f outer hat hcall hreturn hrest ih =>
      cases outer with
      | nil => exact absurd rfl hrest.ne_nil
      | cons g rest =>
          rw [Logo.assign]
          split
          · exact .call hat hcall hreturn hrest
          · exact .call hat hcall hreturn ih

/-- Leaving a call goes back to the frame it was made in. -/
lemma leave {g : Frame} (h : Stacked p pc (f :: g :: outer)) :
    Stacked p f.returnTo (g :: outer) := by
  cases h with
  | call hat hcall hreturn hrest => rwa [hreturn]

end Stacked

lemma length_assign (name : String) (x : Float) (frames : List Frame) :
    (assign name x frames).length = frames.length := by
  induction frames with
  | nil => rfl
  | cons f outer ih =>
      unfold assign
      split
      · rfl
      · cases outer with
        | nil => rfl
        | cons g rest => exact congrArg (· + 1) ih

def NamesLineZero (e : Event) : Prop :=
  ∃ message, e = .runtimeError message ∧ "Line 0:".toList <+: message.toList

lemma toDigits_eq_zero {n : Nat} {rest after : List Char}
    (h : '0' :: ':' :: rest = Nat.toDigits 10 n ++ after) : n = 0 := by
  have hdigits (c : Char) (hc : c ∈ Nat.toDigits 10 n) : c.isDigit :=
    Nat.isDigit_of_mem_toDigits (by decide) (by decide) hc
  have hvalue := @Nat.ofDigitChars_ten_toDigits n
  cases hn : Nat.toDigits 10 n with
  | nil => exact absurd hn Nat.toDigits_ne_nil
  | cons c digits =>
      rw [hn, List.cons_append, List.cons.injEq] at h
      obtain ⟨rfl, h⟩ := h
      cases digits with
      | nil =>
          rw [hn] at hvalue
          exact hvalue.symm
      | cons d digits =>
          rw [List.cons_append, List.cons.injEq] at h
          have hd := hdigits d (by simp [hn])
          rw [← h.1] at hd
          exact absurd hd (by decide)

/-- The message of a fault on a line that counts from one does not name line zero. -/
lemma not_namesLineZero_faultEvent {m : Machine} (h : 1 ≤ m.program.line m.pc) (fault : Fault) :
    ¬NamesLineZero (m.faultEvent fault) := by
  rintro ⟨message, hmessage, rest, hrest⟩
  obtain rfl := Event.runtimeError.inj hmessage
  have htext : "Line 0:".toList ++ rest = "Line ".toList ++ ('0' :: ':' :: rest) := rfl
  rw [htext, String.toList_append, String.toList_append, String.toList_append,
    Number.digitText, List.append_assoc, List.append_assoc, List.append_cancel_left_eq] at hrest
  rw [String.toList_ofList] at hrest
  have hzero := toDigits_eq_zero hrest
  omega

/-- A machine of the program `p` whose frames agree with the code. -/
structure InOrder (p : Program) (limit : Nat) (m : Machine) : Prop where
  program : m.program = p
  depthLimit : m.depthLimit = limit
  stacked : Stacked p m.pc m.frames
  depth : m.frames.length ≤ limit + 1
  messages : ∀ e ∈ m.shown, ¬NamesLineZero e

namespace InOrder

variable {source : String} {p : Program} {limit : Nat} {m m' : Machine}

/-- A machine that differs in none of the fields that matter is in order as well. -/
lemma of_eq (h : InOrder p limit m) (hprogram : m'.program = m.program)
    (hlimit : m'.depthLimit = m.depthLimit) (hpc : m'.pc = m.pc) (hframes : m'.frames = m.frames)
    (hshown : m'.shown = m.shown) : InOrder p limit m' := by
  constructor
  · rw [hprogram, h.program]
  · rw [hlimit, h.depthLimit]
  · rw [hpc, hframes]
    exact h.stacked
  · rw [hframes]
    exact h.depth
  · rw [hshown]
    exact h.messages

/-- An instruction that meets no fault keeps the frames in agreement with the code. -/
lemma stacked_of_does (hp : compile source = .ok p) (h : InOrder p limit m) {instr : Instr}
    (hinstr : p.code[m.pc]? = some instr) (hdoes : m.Does instr m') :
    Stacked p m'.pc m'.frames ∧ m'.frames.length ≤ limit + 1 := by
  obtain ⟨f, outer, hframes⟩ := List.exists_cons_of_ne_nil h.stacked.ne_nil
  have hstacked := h.stacked
  have hdepth := h.depth
  rw [hframes] at hstacked hdepth
  obtain ⟨owner, hat, hmove⟩ := hstacked.move
  obtain ⟨instr', hinstr', hsound⟩ := sound_of_compile hp hat.within
  obtain rfl := Option.some.inj (hinstr'.symm.trans hinstr)
  cases instr' with
  | primitive q args =>
      rw [Program.Sound, hat.loops] at hsound
      have hkeep : m'.frames = m.frames ∧ m'.pc = m.pc + 1 := by
        obtain ⟨next, ⟨turtle, new, -, rfl⟩ | ⟨-, rfl⟩, rfl⟩ := hdoes <;> exact ⟨rfl, rfl⟩
      rw [hkeep.1, hkeep.2, hframes]
      exact ⟨hmove _ f rfl hsound.1, hdepth⟩
  | make name value =>
      rw [Program.Sound, hat.loops] at hsound
      obtain ⟨x, rfl⟩ := hdoes
      dsimp only
      rw [length_assign, hframes]
      exact ⟨(hmove _ f rfl hsound).assign name x, hdepth⟩
  | call i args =>
      rw [Program.Sound, hat.loops] at hsound
      obtain ⟨hnext, hi⟩ := hsound
      obtain ⟨hlimit, hdoes⟩ := hdoes
      rw [h.program, Array.getElem?_eq_getElem hi] at hdoes
      obtain ⟨vars, rfl⟩ := hdoes
      rw [h.depthLimit] at hlimit
      refine ⟨?_, by rw [List.length_cons]; omega⟩
      dsimp only
      rw [hframes]
      exact .call (at_entry_of_compile hp (Array.getElem?_eq_getElem hi)) hinstr rfl
        (hmove _ f rfl hnext)
  | ret =>
      obtain rfl : m' = m.leave := hdoes
      unfold Machine.leave
      rw [hframes]
      cases outer with
      | nil => exact ⟨hstacked, hdepth⟩
      | cons g rest =>
          refine ⟨hstacked.leave, ?_⟩
          dsimp only
          rw [List.length_cons] at hdepth
          omega
  | jumpUnless cond target =>
      rw [Program.Sound, hat.loops] at hsound
      obtain rfl | rfl := hdoes
      · dsimp only
        rw [hframes]
        exact ⟨hmove _ f rfl hsound.1, hdepth⟩
      · dsimp only
        rw [hframes]
        exact ⟨hmove _ f rfl hsound.2, hdepth⟩
  | loopStart count exit =>
      rw [Program.Sound, hat.loops] at hsound
      obtain rfl | ⟨n, rfl⟩ := hdoes
      · dsimp only
        rw [hframes]
        exact ⟨hmove _ f rfl hsound.2, hdepth⟩
      · unfold Machine.withLoops
        rw [hframes]
        exact ⟨hmove _ { f with loops := n :: f.loops } rfl hsound.1, hdepth⟩
  | loopNext body =>
      rw [Program.Sound, hat.loops] at hsound
      obtain ⟨hbody, hnext, hloops⟩ := hsound
      obtain rfl : m' = m.nextTurn body := hdoes
      obtain ⟨left, loops, hleft⟩ := List.exists_cons_of_length_pos hloops
      unfold Machine.nextTurn Machine.withLoops
      rw [hframes]
      simp only [List.head?_cons, Option.bind_some, hleft, List.tail_cons]
      rw [hleft, List.length_cons] at hbody hnext
      split
      · exact ⟨hmove _ { f with loops := (left - 1) :: loops } rfl hbody, hdepth⟩
      · exact ⟨hmove _ { f with loops := loops } rfl hnext, hdepth⟩
  | halt =>
      obtain rfl : m' = { m with status := .halted } := hdoes
      exact ⟨h.stacked, h.depth⟩

/-- An instruction that meets no fault keeps the machine in order. -/
lemma does (hp : compile source = .ok p) (h : InOrder p limit m) {instr : Instr}
    (hinstr : p.code[m.pc]? = some instr) (hdoes : m.Does instr m') : InOrder p limit m' := by
  obtain ⟨hstacked, hdepth⟩ := h.stacked_of_does hp hinstr hdoes
  have hkept := hdoes.kept
  obtain ⟨new, hnew, hshown⟩ := hdoes.shows
  refine ⟨hkept.program.trans h.program, hkept.depthLimit.trans h.depthLimit, hstacked, hdepth, ?_⟩
  intro e he
  rw [hshown] at he
  obtain he | he := List.mem_append.mp he
  · rintro ⟨message, rfl, -⟩
    exact hnew _ he
  · exact h.messages e he

lemma advance (hp : compile source = .ok p) (h : InOrder p limit m) :
    InOrder p limit m.advance := by
  rw [Machine.advance_eq]
  split
  · exact h.of_eq rfl rfl rfl rfl rfl
  · next instr hinstr =>
      rw [h.program] at hinstr
      split
      · next next answers hok =>
          exact (h.does hp hinstr (Machine.execute_eq_ok hok)).of_eq rfl rfl rfl rfl rfl
      · next fault answers herror =>
          refine ⟨h.program, h.depthLimit, h.stacked, h.depth, ?_⟩
          intro e he
          obtain rfl | he := List.mem_cons.mp he
          · apply not_namesLineZero_faultEvent
            rw [h.program]
            exact line_pos_of_compile hp hinstr
          · exact h.messages e he

lemma step (hp : compile source = .ok p) (h : InOrder p limit m) : InOrder p limit m.step := by
  unfold Machine.step
  dsimp only
  split
  · split
    · next token e rest hqueue => cases e <;> exact h.of_eq rfl rfl rfl rfl rfl
    · split
      · exact h.of_eq rfl rfl rfl rfl rfl
      · exact advance hp (h.of_eq rfl rfl rfl rfl rfl)
  · exact h.of_eq rfl rfl rfl rfl rfl

lemma refill (h : InOrder p limit m) (inputs : List Input) : InOrder p limit (m.refill inputs) := by
  induction inputs generalizing m with
  | nil => exact h
  | cons input rest ih =>
      cases input <;> exact ih (h.of_eq rfl rfl rfl rfl rfl)

/-- A machine that starts is in order. -/
lemma of_start (hp : compile source = .ok p) (hprogram : m.program = p)
    (hlimit : m.depthLimit = limit) (hpc : m.pc = 0) (hframes : m.frames = [.empty])
    (hmessages : ∀ e ∈ m.shown, ¬NamesLineZero e) : InOrder p limit m := by
  refine ⟨hprogram, hlimit, ?_, ?_, hmessages⟩
  · rw [hpc, hframes]
    exact .main (at_start_of_compile hp) rfl
  · rw [hframes]
    exact Nat.le_add_left 1 limit

lemma apply (hp : compile source = .ok p) (h : InOrder p limit m) (call : HostCall) :
    InOrder p limit (call.apply m) := by
  cases call with
  | step => exact h.step hp
  | reset =>
      change InOrder p limit (Machine.refill _ m.supply)
      apply refill
      exact of_start hp h.program h.depthLimit rfl rfl h.messages
  | stop => exact h.of_eq rfl rfl rfl rfl rfl
  | setStatus status => exact h.of_eq rfl rfl rfl rfl rfl
  | enqueue event data => exact h.of_eq rfl rfl rfl rfl rfl
  | setTimer timer => exact h.of_eq rfl rfl rfl rfl rfl
  | bindCanvas size => exact h.of_eq rfl rfl rfl rfl rfl

/-- Every machine that a host can reach is in order. -/
lemma after (hp : compile source = .ok p) (supply : List Input) (limit : Nat)
    (calls : List HostCall) :
    InOrder p limit (calls.foldl HostCall.apply (.new p supply limit)) := by
  have hrun (m : Machine) (h : InOrder p limit m) :
      InOrder p limit (calls.foldl HostCall.apply m) := by
    induction calls generalizing m with
    | nil => exact h
    | cons call rest ih => exact ih _ (h.apply hp call)
  exact hrun _ (of_start hp rfl rfl rfl rfl (by simp [Machine.new]))

end InOrder

open Eval

/-- A sound instruction meets no fault that the checks rule out. -/
lemma isChecked_execute {m : Machine} {owner : Option Nat} {pc : Nat} {instr : Instr}
    (h : m.program.Sound owner pc instr) : (m.execute instr).IsChecked := by
  have heval (e : Expr) : (m.eval e).IsChecked := isChecked_eval m.frames m.canvas e
  cases instr with
  | primitive q args =>
      obtain ⟨-, inputs, rfl, hfits⟩ := h
      exact (isChecked_primitive m hfits).bind fun _ => isChecked_pure _
  | make name value => exact (heval value).bind fun _ => isChecked_pure _
  | call i args =>
      have hbind (inputs : List (String × Expr)) : (m.bindInputs inputs).IsChecked := by
        induction inputs with
        | nil => exact isChecked_pure _
        | cons input rest ih =>
            exact (heval input.2).bind fun _ => ih.bind fun _ => isChecked_pure _
      simp only [Machine.execute]
      split
      · exact isChecked_throw id
      · split
        · exact (hbind _).bind fun _ => isChecked_pure _
        · exact isChecked_pure _
  | ret => exact isChecked_pure _
  | jumpUnless cond target => exact (heval _).bind fun _ => (heval _).bind fun _ => isChecked_pure _
  | loopStart count exit =>
      refine (heval count).bind fun x => ?_
      unfold Machine.startLoop
      split
      · exact isChecked_throw id
      · split <;> exact isChecked_pure _
  | loopNext body => exact isChecked_pure _
  | halt => exact isChecked_pure _

/-- What cannot go wrong in a machine of the program `p` with a limit for nested calls. -/
structure Machine.Safe (p : Program) (limit : Nat) (m : Machine) : Prop where
  frames_ne_nil : m.frames ≠ []
  frames_length : m.frames.length ≤ limit + 1
  /-- Places and loop counters agree with the code in every frame. -/
  stacked : Stacked p m.pc m.frames
  returnTo_lt : ∀ f ∈ m.frames, f.returnTo < p.code.size
  /-- There is an instruction to execute; the procedure or the counter that it needs is
  there, and whatever the answers, it meets no fault that the checks rule out. -/
  instruction : ∃ instr, m.program.code[m.pc]? = some instr ∧
    (∀ i args, instr = .call i args → i < m.program.procs.size) ∧
    (∀ body, instr = .loopNext body → ∃ f left loops outer,
      m.frames = f :: outer ∧ f.loops = left :: loops) ∧
    ∀ answers fault rest, (m.execute instr).outcome answers = (.error fault, rest) →
      (∀ name found, fault ≠ .wrongInputs name found) ∧
        ∀ name arg, fault = .badInput name arg → name = "settextalign"
  messages : ∀ message, .runtimeError message ∈ m.events → ¬"Line 0:".toList <+: message.toList

lemma Stacked.returnTo_lt {source : String} {p : Program} (hp : compile source = .ok p) {pc : Nat}
    {frames : List Frame} (h : Stacked p pc frames) : ∀ f ∈ frames, f.returnTo < p.code.size := by
  have hlt {owner : Option Nat} {pc : Nat} (hpc : p.Within owner pc) : pc < p.code.size := by
    obtain ⟨instr, hinstr, -⟩ := sound_of_compile hp hpc
    exact (Array.getElem?_eq_some_iff.mp hinstr).1
  induction h with
  | main hat hreturn =>
      intro f hf
      obtain rfl := List.mem_singleton.mp hf
      rw [hreturn]
      exact hlt (at_start_of_compile hp).within
  | @call pc i place args f outer hat hcall hreturn hrest ih =>
      intro g hg
      obtain rfl | hg := List.mem_cons.mp hg
      · rw [hreturn]
        obtain ⟨first, rest, rfl⟩ := List.exists_cons_of_ne_nil hrest.ne_nil
        obtain ⟨owner, hat', -⟩ := hrest.move
        exact hlt hat'.within
      · exact ih g hg

/-- Compiled programs cannot go wrong, whatever the host does with the machine. -/
theorem safe_of_compile {source : String} {p : Program} (hp : compile source = .ok p)
    (supply : List Input) (limit : Nat) (calls : List HostCall) :
    (calls.foldl HostCall.apply (.new p supply limit)).Safe p limit := by
  have h := InOrder.after hp supply limit calls
  generalize calls.foldl HostCall.apply (.new p supply limit) = m at h
  obtain ⟨f, outer, hframes⟩ := List.exists_cons_of_ne_nil h.stacked.ne_nil
  have hstacked := h.stacked
  rw [hframes] at hstacked
  obtain ⟨owner, hat, -⟩ := hstacked.move
  obtain ⟨instr, hinstr, hsound⟩ := sound_of_compile hp hat.within
  rw [← h.program] at hinstr hsound
  refine ⟨h.stacked.ne_nil, h.depth, h.stacked, h.stacked.returnTo_lt hp,
    ⟨instr, hinstr, ?_, ?_, ?_⟩, ?_⟩
  · rintro i args rfl
    exact hsound.2
  · rintro body rfl
    have hloops := hsound.2.2
    rw [h.program, hat.loops] at hloops
    obtain ⟨left, loops, hleft⟩ := List.exists_cons_of_length_pos hloops
    exact ⟨f, left, loops, outer, hframes, hleft⟩
  · intro answers fault rest hfault
    have hchecked := isChecked_execute hsound answers fault rest hfault
    constructor
    · rintro name found rfl
      exact hchecked trivial
    · rintro name arg rfl
      by_contra hname
      exact hchecked hname
  · intro message hmessage hline
    exact h.messages _ (List.mem_reverse.mp hmessage) ⟨message, rfl, hline⟩

/-- A procedure that calls itself inside a loop, driven by a host that starts the machine
again after it has halted. -/
theorem safe_of_recursive_program :
    ∃ p, compile "to f repeat 2 [f] end f" = .ok p ∧
      ([.reset, .step, .step, .step, .step, .setStatus .running, .step].foldl HostCall.apply
        (.new p [] 1)).Safe p 1 := by
  have hok : (compile "to f repeat 2 [f] end f").toBool = true := by decide +kernel
  cases hp : compile "to f repeat 2 [f] end f" with
  | error problems =>
      rw [hp] at hok
      cases hok
  | ok p => exact ⟨p, rfl, safe_of_compile hp [] 1 _⟩

end LogoStudio.Logo
