import LogoStudio.Proofs.Logo.Safety

/-!
# A reset forgets everything

A machine that is reset goes on as one that was just made, whatever was done with it before.
Two things are left of its past: the events it has shown, and the tokens it has given out,
since no token is given out twice. So the two machines are the same up to the events before the
reset and a fixed distance between their tokens. Every operation of the host keeps this, as long
as the host makes up no tokens of its own but stores those that it was given.
-/
namespace LogoStudio.Logo

namespace Machine

/-- The machine with all tokens moved up by `offset`, and with events shown before its own. -/
def later (offset : Nat) (earlier : List Event) (m : Machine) : Machine :=
  { m with
    queue := m.queue.map fun (token, e) => (token + offset, e)
    issued := m.issued + offset
    timer := m.timer.map (· + offset)
    shown := m.shown ++ earlier }

def surroundings (m : Machine) : Surroundings := ⟨m.supply, m.queue, m.issued, m.timer, []⟩

lemma amid_surroundings (m : Machine) : m.amid m.surroundings = m := by
  simp [amid, surroundings]

/-- An instruction leaves alone what is around the program. -/
lemma surroundings_advance (m : Machine) : m.advance.surroundings = m.surroundings := by
  have hadvance := advance_amid m m.surroundings
  rw [amid_surroundings] at hadvance
  rw [hadvance]
  rfl

section Later

variable (offset : Nat) (earlier : List Event) (m : Machine)

lemma advance_later : (m.later offset earlier).advance = m.advance.later offset earlier := by
  have hlater : m.later offset earlier = m.amid
      ⟨m.supply, m.queue.map fun (token, e) => (token + offset, e), m.issued + offset,
        m.timer.map (· + offset), earlier⟩ := rfl
  obtain ⟨hsupply, hqueue, hissued, htimer, -⟩ := Surroundings.mk.inj m.surroundings_advance
  rw [hlater, advance_amid, ← hsupply, ← hqueue, ← hissued, ← htimer]
  rfl

lemma enqueue_later (e : HostEvent) :
    (m.later offset earlier).enqueue e = (m.enqueue e).later offset earlier := by
  simp [enqueue, later, Nat.add_right_comm]

lemma handle_later (token : Nat) (e : HostEvent) :
    (m.later offset earlier).handle (token + offset) e =
      (m.handle token e).later offset earlier := by
  cases e with
  | interaction i => rfl
  | timer =>
      have hpending : m.timer.map (· + offset) = some (token + offset) ↔ m.timer = some token := by
        cases m.timer <;> simp
      by_cases h : m.timer = some token
      · simp [handle, later, h]
      · simp [handle, later, h, hpending]

lemma step_later : (m.later offset earlier).step = m.step.later offset earlier := by
  by_cases hrun : m.status = .running
  · cases hqueue : m.queue with
    | cons first rest =>
        obtain ⟨token, e⟩ := first
        have hstep : m.step = { m with yielded := false, queue := rest }.handle token e := by
          simp [step, hrun, hqueue]
        rw [hstep, ← handle_later]
        simp [step, later, hrun, hqueue]
    | nil =>
        cases hwait : m.waiting with
        | true => simp [step, later, hrun, hqueue, hwait]
        | false =>
            have hstep : m.step = { m with yielded := false }.advance := by
              simp [step, hrun, hqueue, hwait]
            rw [hstep, ← advance_later]
            simp [step, later, hrun, hqueue, hwait]
  · simp [step, later, hrun]

lemma refill_later (inputs : List Input) :
    (m.later offset earlier).refill inputs = (m.refill inputs).later offset earlier := by
  induction inputs generalizing m with
  | nil => rfl
  | cons input rest ih =>
      cases input with
      | interaction i => rw [refill, refill, enqueue_later, ih]
      | confirm answer => exact ih { m with answers := m.answers ++ [.confirm answer] }
      | prompt answer => exact ih { m with answers := m.answers ++ [.prompt answer] }

lemma reset_later : (m.later offset earlier).reset = m.reset.later offset earlier := by
  simp only [reset, ← refill_later]
  rfl

end Later

/-- A machine that was just made, with a canvas if there is one. -/
def fresh (program : Program) (supply : List Input) (depthLimit : Nat) (canvas : Option Size) :
    Machine :=
  match canvas with
  | some size => interpreter.bindCanvas size (.new program supply depthLimit)
  | none => .new program supply depthLimit

lemma fresh_eq (program : Program) (supply : List Input) (depthLimit : Nat)
    (canvas : Option Size) :
    fresh program supply depthLimit canvas =
      { Machine.new program supply depthLimit with canvas } := by
  cases canvas <;> rfl

lemma shown_refill (m : Machine) (inputs : List Input) : (m.refill inputs).shown = m.shown := by
  induction inputs generalizing m with
  | nil => rfl
  | cons input rest ih => cases input <;> exact ih _

/-- A machine that was just made and reset has shown nothing. -/
lemma events_reset_fresh (program : Program) (supply : List Input) (depthLimit : Nat)
    (canvas : Option Size) :
    (fresh program supply depthLimit canvas).reset.events = [] := by
  rw [events, reset, shown_refill, fresh_eq]
  rfl

/-- After a reset a machine is one that was just made and reset, but for its past. -/
lemma reset_eq (m : Machine) :
    m.reset = (fresh m.program m.supply m.depthLimit m.canvas).reset.later m.issued m.shown := by
  rw [fresh_eq]
  simp only [reset, ← refill_later]
  simp [later, new]

structure MadeWith (program : Program) (supply : List Input) (depthLimit : Nat) (m : Machine) :
    Prop where
  program : m.program = program
  supply : m.supply = supply
  depthLimit : m.depthLimit = depthLimit

namespace MadeWith

variable {program : Program} {supply : List Input} {depthLimit : Nat} {m : Machine}

lemma step (h : MadeWith program supply depthLimit m) :
    MadeWith program supply depthLimit m.step := by
  obtain ⟨rfl, rfl, rfl⟩ := h
  unfold Machine.step
  dsimp only
  split
  · split
    · next token e rest _ => cases e <;> exact ⟨rfl, rfl, rfl⟩
    · split
      · exact ⟨rfl, rfl, rfl⟩
      · next hwait =>
          have hkept := kept_advance { m with yielded := false }
          have hsupply := congrArg Surroundings.supply
            (surroundings_advance { m with yielded := false })
          exact ⟨hkept.program, hsupply, hkept.depthLimit⟩
  · exact ⟨rfl, rfl, rfl⟩

lemma refill (h : MadeWith program supply depthLimit m) (inputs : List Input) :
    MadeWith program supply depthLimit (m.refill inputs) := by
  induction inputs generalizing m with
  | nil => exact h
  | cons input rest ih =>
      obtain ⟨hprogram, hsupply, hlimit⟩ := h
      cases input <;> exact ih ⟨hprogram, hsupply, hlimit⟩

/-- No operation of the host changes what a machine was made with. -/
lemma apply (h : MadeWith program supply depthLimit m) (call : HostCall) :
    MadeWith program supply depthLimit (call.apply m) := by
  obtain ⟨hprogram, hsupply, hlimit⟩ := h
  cases call with
  | step => exact MadeWith.step ⟨hprogram, hsupply, hlimit⟩
  | reset =>
      change MadeWith program supply depthLimit (Machine.refill _ m.supply)
      apply refill
      exact ⟨hprogram, hsupply, hlimit⟩
  | stop => exact ⟨hprogram, hsupply, hlimit⟩
  | setStatus status => exact ⟨hprogram, hsupply, hlimit⟩
  | enqueue event data => exact ⟨hprogram, hsupply, hlimit⟩
  | setTimer timer => exact ⟨hprogram, hsupply, hlimit⟩
  | bindCanvas size => exact ⟨hprogram, hsupply, hlimit⟩

lemma foldl_apply (h : MadeWith program supply depthLimit m) (calls : List HostCall) :
    MadeWith program supply depthLimit (calls.foldl HostCall.apply m) := by
  induction calls generalizing m with
  | nil => exact h
  | cons call rest ih => exact ih (h.apply call)

end MadeWith

end Machine

/-- A machine and the tokens that its host was given, the latest first. -/
structure Hosted where
  machine : Machine
  tokens : List Nat

/-- An operation of a host that makes up no tokens. -/
inductive GivenCall where
  | step
  | setStatus (status : Status)
  | reset
  | stop
  | bindCanvas (size : Size)
  | enqueue (event : HostEvent) (data : Json)
  | clearTimer
  /-- Store a token that was given out; number zero is the latest. -/
  | storeTimer (number : Nat)

/-- The machine after an operation, with the tokens given out so far. -/
def GivenCall.apply (h : Hosted) : GivenCall → Hosted
  | step => { h with machine := interpreter.step h.machine }
  | setStatus status => { h with machine := interpreter.setStatus status h.machine }
  | reset => { h with machine := interpreter.reset h.machine }
  | stop => { h with machine := interpreter.stop h.machine }
  | bindCanvas size => { h with machine := interpreter.bindCanvas size h.machine }
  | enqueue event data =>
      let (token, machine) := interpreter.enqueue event data h.machine
      ⟨machine, token.toList ++ h.tokens⟩
  | clearTimer => { h with machine := interpreter.setTimer none h.machine }
  | storeTimer number =>
      match h.tokens[number]? with
      | some token => { h with machine := interpreter.setTimer (some token) h.machine }
      | none => h

/-- The same for a machine with a past. -/
def Hosted.later (offset : Nat) (earlier : List Event) (h : Hosted) : Hosted :=
  ⟨h.machine.later offset earlier, h.tokens.map (· + offset)⟩

/-- An operation does the same to a machine with a past. -/
lemma GivenCall.apply_later (offset : Nat) (earlier : List Event) (h : Hosted) (call : GivenCall) :
    call.apply (h.later offset earlier) = (call.apply h).later offset earlier := by
  cases call with
  | step => exact congrArg (Hosted.mk · _) (h.machine.step_later offset earlier)
  | setStatus status => rfl
  | reset => exact congrArg (Hosted.mk · _) (h.machine.reset_later offset earlier)
  | stop => rfl
  | bindCanvas size => rfl
  | enqueue event data =>
      have hmachine := h.machine.enqueue_later offset earlier event
      have htoken : h.machine.issued + offset + 1 = h.machine.issued + 1 + offset :=
        Nat.add_right_comm _ _ _
      simp only [apply, interpreter, Hosted.later, hmachine]
      simp [Machine.later, htoken]
  | clearTimer => rfl
  | storeTimer number =>
      simp only [apply, Hosted.later, List.getElem?_map]
      cases h.tokens[number]? <;> rfl

lemma foldl_apply_later (offset : Nat) (earlier : List Event) (calls : List GivenCall)
    (h : Hosted) :
    calls.foldl GivenCall.apply (h.later offset earlier) =
      (calls.foldl GivenCall.apply h).later offset earlier := by
  induction calls generalizing h with
  | nil => rfl
  | cons call rest ih => rw [List.foldl_cons, List.foldl_cons, GivenCall.apply_later, ih]

/-- What a host sees of two machines is the same, up to a distance between their tokens and the
events that the first one has shown before. -/
structure Alike (offset : Nat) (before : List Event) (a b : Hosted) : Prop where
  status : interpreter.status a.machine = interpreter.status b.machine
  yielded : interpreter.yielded a.machine = interpreter.yielded b.machine
  events : interpreter.events a.machine = before ++ interpreter.events b.machine
  given : a.tokens = b.tokens.map (· + offset)
  stored : interpreter.timer a.machine = (interpreter.timer b.machine).map (· + offset)

lemma alike_later (offset : Nat) (earlier : List Event) (h : Hosted) :
    Alike offset earlier.reverse (h.later offset earlier) h :=
  ⟨rfl, rfl, List.reverse_append, rfl, rfl⟩

/-- A reset forgets everything. Whatever was done with a machine, after a reset and any further
operations it looks to its host as a machine that was just made for the same program and inputs,
bound to the same canvas, and reset: the status, the end of slices and all new events are the
same, and all tokens differ by the same number. -/
theorem reset_forgets (program : Program) (supply : List Input) (depthLimit : Nat)
    (past : List HostCall) :
    let m := past.foldl HostCall.apply (.new program supply depthLimit)
    let fresh := Machine.fresh program supply depthLimit m.canvas
    interpreter.events (interpreter.reset fresh) = [] ∧
      ∃ offset, ∀ calls : List GivenCall,
        Alike offset (interpreter.events m)
          (calls.foldl GivenCall.apply ⟨interpreter.reset m, []⟩)
          (calls.foldl GivenCall.apply ⟨interpreter.reset fresh, []⟩) := by
  intro m fresh
  have hnew : Machine.MadeWith program supply depthLimit (.new program supply depthLimit) :=
    ⟨rfl, rfl, rfl⟩
  obtain ⟨hprogram, hsupply, hlimit⟩ := hnew.foldl_apply past
  have hreset : m.reset = fresh.reset.later m.issued m.shown := by
    rw [m.reset_eq, hprogram, hsupply, hlimit]
  refine ⟨Machine.events_reset_fresh program supply depthLimit m.canvas, m.issued, ?_⟩
  intro calls
  have hlater : Hosted.mk (interpreter.reset m) [] =
      Hosted.later m.issued m.shown ⟨interpreter.reset fresh, []⟩ :=
    congrArg (Hosted.mk · []) hreset
  rw [hlater, foldl_apply_later]
  exact alike_later m.issued m.shown _

end LogoStudio.Logo
