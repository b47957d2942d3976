import LogoStudio.Proofs.Logo.Faults
import LogoStudio.Proofs.Logo.Restart

/-!
# Host queues keep order and identity

Two queues stand between a host and a machine. Events from outside wait in the one until a step
of the running machine handles the oldest; each has a token of its own. Answers wait in the other
until the program asks for them. A reset fills both from the inputs of the machine: interactions
are events, everything else is an answer.

All events that were ever queued make one long list, and their tokens number it from one on. What
is queued now is the end of this list, and what was handled stands before it in the same order;
events that a reset or a stop threw away are left out and do not come back. Every operation of the
host keeps this, and so do whole histories of them.
-/
namespace LogoStudio.Logo

namespace HostCall

/-- The events that an operation queues, with the tokens it gives out for them. A reset leaves
nothing in the queue that was there before. -/
def queued (m : Machine) : HostCall → List (Nat × HostEvent)
  | enqueue event data => (interpreter.enqueue event data m).1.toList.map (·, event)
  | reset => (interpreter.reset m).queue
  | _ => []

def handled (m : Machine) : HostCall → Option (Nat × HostEvent)
  | step => if m.status = .running then m.queue.head? else none
  | _ => none

/-- Whether an operation throws away what is in the queue. -/
def clears : HostCall → Bool
  | reset | stop => true
  | _ => false

end HostCall

def queuedBy (m : Machine) : List HostCall → List (Nat × HostEvent)
  | [] => []
  | call :: rest => call.queued m ++ queuedBy (call.apply m) rest

def handledBy (m : Machine) : List HostCall → List (Nat × HostEvent)
  | [] => []
  | call :: rest => (call.handled m).toList ++ handledBy (call.apply m) rest

namespace Machine

def eventOf? : Input → Option HostEvent
  | .interaction i => some (.interaction i)
  | _ => none

/-- Events with consecutive tokens. -/
def numbered (first : Nat) (events : List HostEvent) : List (Nat × HostEvent) :=
  (events.zipIdx first).map Prod.swap

lemma tokens_numbered (first : Nat) (events : List HostEvent) :
    (numbered first events).map Prod.fst = List.range' first events.length := by
  rw [numbered, List.map_map, ← List.zipIdx_map_snd]
  rfl

@[simp] lemma length_numbered (first : Nat) (events : List HostEvent) :
    (numbered first events).length = events.length := by
  simp [numbered]

lemma queue_refill (m : Machine) (inputs : List Input) :
    (m.refill inputs).queue = m.queue ++ numbered (m.issued + 1) (inputs.filterMap eventOf?) := by
  induction inputs generalizing m with
  | nil => simp [refill, numbered]
  | cons input rest ih =>
      cases input with
      | interaction i =>
          rw [refill, ih]
          simp [enqueue, numbered, eventOf?]
      | confirm answer | prompt answer => exact ih _

lemma issued_refill (m : Machine) (inputs : List Input) :
    (m.refill inputs).issued = m.issued + (inputs.filterMap eventOf?).length := by
  induction inputs generalizing m with
  | nil => rfl
  | cons input rest ih =>
      cases input with
      | interaction i =>
          rw [refill, ih]
          change m.issued + 1 + (rest.filterMap eventOf?).length =
            m.issued + ((rest.filterMap eventOf?).length + 1)
          omega
      | confirm answer | prompt answer => exact ih _

/-- After a reset the interactions of the inputs are queued, and nothing else. -/
lemma queue_reset (m : Machine) :
    m.reset.queue = numbered (m.issued + 1) (m.supply.filterMap eventOf?) := by
  rw [reset, queue_refill]
  rfl

lemma issued_reset (m : Machine) :
    m.reset.issued = m.issued + (m.supply.filterMap eventOf?).length := by
  rw [reset, issued_refill]

/-- After a reset all answers are there again. -/
lemma answers_reset (m : Machine) : m.reset.answers = m.supply.filter isAnswer :=
  congrArg answers m.settle_reset

/-- An instruction takes answers from the front, whatever comes of it. -/
lemma answers_advance (m : Machine) : m.advance.answers <:+ m.answers := by
  rw [advance_eq]
  split
  · exact List.suffix_refl _
  · next instr hinstr =>
      have htaken := (inPlace_instruction m instr).takesFront m.answers
      split
      · next hok => rwa [hok] at htaken
      · next herror => rwa [herror] at htaken

/-- A step handles the oldest event of the queue, or it takes answers from the front and leaves
alone what is around the program. -/
lemma step_handles (m : Machine) :
    (∃ token e rest, HostCall.step.handled m = some (token, e) ∧ m.queue = (token, e) :: rest ∧
        m.step = { m with yielded := false, queue := rest }.handle token e) ∨
      (HostCall.step.handled m = none ∧ m.step.surroundings = m.surroundings ∧
        m.step.answers <:+ m.answers) := by
  by_cases hrun : m.status = .running
  · have hhandled : HostCall.step.handled m = m.queue.head? := if_pos hrun
    rw [hhandled]
    obtain ⟨token, e, rest, hqueue, hstep⟩ | ⟨hqueue, -, hstep⟩ | ⟨hqueue, -, hstep⟩ :=
      step_cases hrun
    · exact .inl ⟨token, e, rest, by rw [hqueue]; rfl, hqueue, hstep⟩
    · rw [hqueue, hstep]
      exact .inr ⟨rfl, rfl, List.suffix_refl _⟩
    · rw [hqueue, hstep, surroundings_advance]
      exact .inr ⟨rfl, rfl, answers_advance { m with yielded := false }⟩
  · rw [step_of_not_running hrun]
    exact .inr ⟨if_neg hrun, rfl, List.suffix_refl _⟩

lemma step_of_handled {m : Machine} {token : Nat} {e : HostEvent}
    (h : HostCall.step.handled m = some (token, e)) : ∃ rest, m.queue = (token, e) :: rest ∧
      m.step = { m with yielded := false, queue := rest }.handle token e := by
  obtain ⟨token', e', rest, hhandled, hstep⟩ | ⟨hhandled, -⟩ := m.step_handles
  · obtain ⟨rfl, rfl⟩ := Prod.mk.inj (Option.some.inj (hhandled.symm.trans h))
    exact ⟨rest, hstep⟩
  · rw [hhandled] at h
    cases h

/-- A timer that is pending is cleared exactly by handling its own event, and no event sets one. -/
lemma timer_handle (m : Machine) (token : Nat) (e : HostEvent) :
    ((m.handle token e).timer = m.timer ∨ (m.handle token e).timer = none) ∧
      ((m.handle token e).timer ≠ m.timer ↔ e = .timer ∧ m.timer = some token) := by
  cases e with
  | interaction i => simp [handle]
  | timer =>
      by_cases htimer : m.timer = some token
      · simp [handle, htimer]
      · simp [handle, htimer]

lemma timer_step_of_handled {m : Machine} {token : Nat} {e : HostEvent}
    (h : HostCall.step.handled m = some (token, e)) :
    (m.step.timer = m.timer ∨ m.step.timer = none) ∧
      (m.step.timer ≠ m.timer ↔ e = .timer ∧ m.timer = some token) := by
  obtain ⟨rest, -, hstep⟩ := step_of_handled h
  rw [hstep]
  exact timer_handle { m with yielded := false, queue := rest } token e

lemma idles_of_handled {m : Machine} (h : HostCall.step.handled m = none) :
    m.step.queue = m.queue ∧ m.step.timer = m.timer := by
  obtain ⟨token, e, rest, hhandled, -⟩ | ⟨-, hsame, -⟩ := m.step_handles
  · rw [hhandled] at h
    cases h
  · exact ⟨congrArg Surroundings.queue hsame, congrArg Surroundings.timer hsame⟩

lemma answers_step (m : Machine) : m.step.answers <:+ m.answers := by
  obtain ⟨token, e, rest, -, -, hstep⟩ | ⟨-, -, htaken⟩ := m.step_handles
  · rw [hstep]
    cases e <;> exact List.suffix_refl _
  · exact htaken

end Machine

namespace HostCall

variable (m : Machine) (call : HostCall)

/-- Tokens are given out one after the other. -/
lemma tokens_queued :
    (call.queued m).map Prod.fst = List.range' (m.issued + 1) (call.queued m).length := by
  cases call with
  | reset =>
      have hqueued : queued m .reset = m.reset.queue := rfl
      rw [hqueued, m.queue_reset, Machine.tokens_numbered, Machine.length_numbered]
  | step | stop | setStatus | enqueue | setTimer | bindCanvas => rfl

/-- The machine counts the tokens that it gives out. -/
lemma issued_apply : (call.apply m).issued = m.issued + (call.queued m).length := by
  cases call with
  | step =>
      change m.step.issued = m.issued
      obtain ⟨token, e, rest, -, -, hstep⟩ | ⟨-, hsame, -⟩ := m.step_handles
      · rw [hstep]
        cases e <;> rfl
      · exact congrArg Machine.Surroundings.issued hsame
  | reset =>
      have hqueued : queued m .reset = m.reset.queue := rfl
      rw [hqueued, m.queue_reset, Machine.length_numbered]
      exact m.issued_reset
  | stop | setStatus | enqueue | setTimer | bindCanvas => rfl

/-- After a reset or a stop only what it has queued itself is left. -/
lemma queue_apply_of_clears (h : call.clears = true) :
    call.handled m = none ∧ (call.apply m).queue = call.queued m := by
  cases call with
  | reset => exact ⟨rfl, rfl⟩
  | stop => exact ⟨rfl, rfl⟩
  | step | setStatus | enqueue | setTimer | bindCanvas => cases h

/-- What is handled leaves the queue at its front, what is queued enters it at its end, and
nothing else happens. -/
lemma queue_apply (h : call.clears = false) :
    m.queue ++ call.queued m = (call.handled m).toList ++ (call.apply m).queue := by
  cases call with
  | reset | stop => cases h
  | step =>
      rw [show queued m .step = [] from rfl, List.append_nil]
      change m.queue = (handled m .step).toList ++ m.step.queue
      obtain ⟨token, e, rest, hhandled, hqueue, hstep⟩ | ⟨hhandled, hsame, -⟩ := m.step_handles
      · rw [hhandled, hqueue, hstep]
        cases e <;> rfl
      · rw [hhandled]
        exact (congrArg Machine.Surroundings.queue hsame).symm
  | enqueue event data => rfl
  | setStatus | setTimer | bindCanvas => exact List.append_nil _

/-- Answers are taken from the front, or are all there again. -/
lemma answers_apply :
    (call.apply m).answers <:+ m.answers ∨
      (call.apply m).answers = m.supply.filter Machine.isAnswer := by
  cases call with
  | step => exact .inl m.answers_step
  | reset => exact .inr m.answers_reset
  | stop | setStatus | enqueue | setTimer | bindCanvas => exact .inl (List.suffix_refl _)

end HostCall

/-- Until the next reset or stop, events come out of the queue as they went in. -/
lemma queue_foldl_apply (m : Machine) (calls : List HostCall)
    (h : ∀ call ∈ calls, call.clears = false) :
    m.queue ++ queuedBy m calls = handledBy m calls ++ (calls.foldl HostCall.apply m).queue := by
  induction calls generalizing m with
  | nil => exact List.append_nil _
  | cons call rest ih =>
      have hcall := call.queue_apply m (h call List.mem_cons_self)
      have hrest := ih (call.apply m) fun later hlater => h later (List.mem_cons_of_mem _ hlater)
      rw [queuedBy, handledBy, ← List.append_assoc, hcall, List.append_assoc, hrest,
        List.append_assoc, List.foldl_cons]

/-- What was queued and handled in the past accounts for the present queue. -/
structure Accounts (queued handled : List (Nat × HostEvent)) (m : Machine) : Prop where
  /-- Everything queued so far is numbered from one on. -/
  tokens : queued.map Prod.fst = List.range' 1 m.issued
  /-- The queue is the end of it, and what was handled stands before. -/
  inOrder : ∃ gone, queued = gone ++ m.queue ∧ handled.Sublist gone

namespace Accounts

variable {queued handled : List (Nat × HostEvent)} {m : Machine}

lemma apply (h : Accounts queued handled m) (call : HostCall) :
    Accounts (queued ++ call.queued m) (handled ++ (call.handled m).toList) (call.apply m) := by
  obtain ⟨htokens, gone, rfl, hhandled⟩ := h
  constructor
  · rw [List.map_append, htokens, call.tokens_queued, call.issued_apply, Nat.add_comm m.issued 1,
      List.range'_append_1]
  · cases hclears : call.clears with
    | true =>
        obtain ⟨hnone, hemptied⟩ := call.queue_apply_of_clears m hclears
        refine ⟨gone ++ m.queue, by rw [hemptied], ?_⟩
        rw [hnone, Option.toList_none, List.append_nil]
        exact hhandled.trans (List.sublist_append_left _ _)
    | false =>
        refine ⟨gone ++ (call.handled m).toList, ?_, hhandled.append_right _⟩
        rw [List.append_assoc, call.queue_apply m hclears, List.append_assoc]

lemma foldl_apply (h : Accounts queued handled m) (calls : List HostCall) :
    Accounts (queued ++ queuedBy m calls) (handled ++ handledBy m calls)
      (calls.foldl HostCall.apply m) := by
  induction calls generalizing queued handled m with
  | nil => simpa [queuedBy, handledBy] using h
  | cons call rest ih =>
      rw [queuedBy, handledBy, ← List.append_assoc, ← List.append_assoc]
      exact ih (h.apply call)

/-- The tokens in the queue stand at the end of all tokens. -/
lemma tokens_suffix (h : Accounts queued handled m) :
    m.queue.map Prod.fst <:+ List.range' 1 m.issued := by
  obtain ⟨htokens, gone, rfl, -⟩ := h
  rw [← htokens, List.map_append]
  exact List.suffix_append _ _

/-- The tokens of what was handled stand among all tokens in the same order. -/
lemma tokens_sublist (h : Accounts queued handled m) :
    (handled.map Prod.fst).Sublist (List.range' 1 m.issued) := by
  obtain ⟨htokens, gone, rfl, hhandled⟩ := h
  rw [← htokens]
  exact (hhandled.trans (List.sublist_append_left _ _)).map _

/-- Numbers of 64 bits are enough for fewer than `2 ^ 64` tokens. -/
lemma nodup_words (h : Accounts queued handled m) (hfew : queued.length < 2 ^ 64) :
    (queued.map fun entry => UInt64.ofNat entry.1).Nodup := by
  have hlength : m.issued = queued.length := by
    simpa using (congrArg List.length h.tokens).symm
  have hwords : (queued.map fun entry => UInt64.ofNat entry.1) =
      (List.range' 1 m.issued).map UInt64.ofNat := by
    rw [← h.tokens, List.map_map]
    rfl
  rw [hwords]
  refine List.Nodup.map_on ?_ List.nodup_range'
  intro a ha b hb hab
  rw [List.mem_range'_1] at ha hb
  have hvalue := congrArg UInt64.toNat hab
  rwa [UInt64.toNat_ofNat', UInt64.toNat_ofNat', Nat.mod_eq_of_lt (by omega),
    Nat.mod_eq_of_lt (by omega)] at hvalue

end Accounts

/-- The answers that are left are the end of all answers among the inputs. -/
lemma answers_foldl_apply {program : Program} {supply : List Input} {depthLimit : Nat} {m : Machine}
    (hmade : m.MadeWith program supply depthLimit)
    (h : m.answers <:+ supply.filter Machine.isAnswer) (calls : List HostCall) :
    (calls.foldl HostCall.apply m).answers <:+ supply.filter Machine.isAnswer := by
  induction calls generalizing m with
  | nil => exact h
  | cons call rest ih =>
      apply ih (hmade.apply call)
      obtain hsuffix | hall := call.answers_apply m
      · exact hsuffix.trans h
      · rw [hall, hmade.supply]

/-- What a machine keeps of its queues: the inputs it was made with, everything that was queued
and handled so far with its tokens, and its present state. -/
structure QueuesKept (supply : List Input) (queued handled : List (Nat × HostEvent))
    (m : Machine) : Prop where
  /-- Tokens in the queue increase. -/
  increasing : (m.queue.map Prod.fst).Pairwise (· < ·)
  /-- None of them is above the last one given out. -/
  le_issued : ∀ token e, (token, e) ∈ m.queue → token ≤ m.issued
  /-- Tokens number everything queued so far from one on. -/
  tokens : queued.map Prod.fst = List.range' 1 m.issued
  /-- No token was given out twice. -/
  distinct : (queued.map Prod.fst).Nodup
  /-- As numbers of 64 bits they differ as long as there are fewer than `2 ^ 64`. -/
  distinctWords : queued.length < 2 ^ 64 → (queued.map fun entry => UInt64.ofNat entry.1).Nodup
  /-- The queue is the end of everything queued so far, and what was handled stands before it
  in the order in which it was queued. -/
  inOrder : ∃ gone, queued = gone ++ m.queue ∧ handled.Sublist gone
  /-- Nothing was handled twice. -/
  once : (handled.map Prod.fst).Nodup
  /-- Until the next reset or stop nothing is lost: what is queued now is handled first, and then
  what is queued later. -/
  firstIn : ∀ calls : List HostCall, (∀ call ∈ calls, call.clears = false) →
    m.queue ++ queuedBy m calls = handledBy m calls ++ (calls.foldl HostCall.apply m).queue
  /-- A step that handles an event takes it from the front of the queue. -/
  handles : ∀ token e, HostCall.step.handled m = some (token, e) → ∃ rest,
    m.queue = (token, e) :: rest ∧
      interpreter.step m = { m with yielded := false, queue := rest }.handle token e
  /-- It clears a pending timer exactly if the event is a timer event with that very token, and
  otherwise leaves the timer alone. -/
  timer : ∀ token e, HostCall.step.handled m = some (token, e) →
    (interpreter.timer (interpreter.step m) = interpreter.timer m ∨
        interpreter.timer (interpreter.step m) = none) ∧
      (interpreter.timer (interpreter.step m) ≠ interpreter.timer m ↔
        e = .timer ∧ interpreter.timer m = some token)
  /-- Every other step leaves the queue and the timer alone. -/
  idles : HostCall.step.handled m = none →
    (interpreter.step m).queue = m.queue ∧
      interpreter.timer (interpreter.step m) = interpreter.timer m
  /-- No interaction waits among the answers. -/
  noInteraction : ∀ i, .interaction i ∉ m.answers
  /-- The answers are the end of the inputs without their interactions. -/
  answers : m.answers <:+ supply.filter Machine.isAnswer
  /-- A reset queues the interactions with new tokens and brings all answers back. -/
  reset : (interpreter.reset m).queue =
      Machine.numbered (m.issued + 1) (supply.filterMap Machine.eventOf?) ∧
    (interpreter.reset m).answers = supply.filter Machine.isAnswer

/-- The queues keep order and identity, whatever the host does with the machine: tokens increase
in the queue and are never given out twice, also across resets, events are handled in the order in
which they were queued and at most once, handling one clears the timer only if it is the timer's
own event, and the answers are the end of the inputs without their interactions. -/
theorem queues_keep_order_and_identity (program : Program) (supply : List Input) (depthLimit : Nat)
    (calls : List HostCall) :
    let start := Machine.new program supply depthLimit
    QueuesKept supply (queuedBy start calls) (handledBy start calls)
      (calls.foldl HostCall.apply start) := by
  intro start
  have hmade : start.MadeWith program supply depthLimit := ⟨rfl, rfl, rfl⟩
  have hstart : Accounts [] [] start := ⟨rfl, [], rfl, .slnil⟩
  have haccounts := hstart.foldl_apply calls
  rw [List.nil_append, List.nil_append] at haccounts
  have hanswers := answers_foldl_apply hmade List.nil_suffix calls
  have hsupply := (hmade.foldl_apply calls).supply
  have hnodup : (List.range' 1 (calls.foldl HostCall.apply start).issued).Nodup := List.nodup_range'
  generalize calls.foldl HostCall.apply start = m at *
  exact {
    increasing := List.Pairwise.sublist haccounts.tokens_suffix.sublist List.pairwise_lt_range'
    le_issued := fun token e hmem => by
      have htoken := haccounts.tokens_suffix.mem (List.mem_map_of_mem hmem)
      rw [List.mem_range'_1] at htoken
      omega
    tokens := haccounts.tokens
    distinct := haccounts.tokens ▸ hnodup
    distinctWords := haccounts.nodup_words
    inOrder := haccounts.inOrder
    once := hnodup.sublist haccounts.tokens_sublist
    firstIn := queue_foldl_apply m
    handles := fun token e => Machine.step_of_handled
    timer := fun token e => Machine.timer_step_of_handled
    idles := Machine.idles_of_handled
    noInteraction := fun i hmem => by
      have hkept := (List.mem_filter.mp (hanswers.mem hmem)).2
      cases hkept
    answers := hanswers
    reset := ⟨hsupply ▸ m.queue_reset, hsupply ▸ m.answers_reset⟩ }

/-- A click among the inputs, a timer that is handled after it, and a second reset. -/
theorem queues_kept_of_click_and_timer :
    let click : Interaction := ⟨"canvas.mousedown", .null⟩
    let supply : List Input := [.confirm true, .interaction click, .prompt "5"]
    let start := Machine.new ⟨#[.make "x" (.query .confirm), .halt], #[1, 1], #[]⟩ supply 1
    let before : List HostCall := [.reset, .enqueue .timer .null, .setTimer (some 2), .step]
    let calls : List HostCall := before ++ [.step, .step, .reset]
    let m := before.foldl HostCall.apply start
    queuedBy start calls = [(1, .interaction click), (2, .timer), (3, .interaction click)] ∧
      handledBy start calls = [(1, .interaction click), (2, .timer)] ∧
      QueuesKept supply (queuedBy start calls) (handledBy start calls)
        (calls.foldl HostCall.apply start) ∧
      interpreter.timer m = some 2 ∧ interpreter.timer (interpreter.step m) = none := by
  intro click supply start before calls m
  have hhandled : HostCall.step.handled m = some (2, .timer) := rfl
  have htimer : interpreter.timer m = some 2 := rfl
  have hkept := queues_keep_order_and_identity start.program supply 1 before
  obtain ⟨hsame | hnone, hcleared⟩ := hkept.timer 2 .timer hhandled
  · exact absurd hsame (hcleared.mpr ⟨rfl, htimer⟩)
  · exact ⟨rfl, rfl, queues_keep_order_and_identity start.program supply 1 calls, htimer, hnone⟩

end LogoStudio.Logo
