import LogoStudio.Proofs.Logo.Lines
import LogoStudio.Proofs.Logo.Nesting
import Mathlib.Data.List.Forall2

/-!
# The form of compiled code

Loops and branches are written into the code as jumps over the code of their bodies, and since
bodies are nested in the source, the jumps are nested in the code as brackets are. Code of this
form is given by its rules, and what is to be known of the jumps is read off the rules once. A
compiled program is such code for the main program, up to its only halt, and then for each
procedure, up to its last return. All that instructions name is there: procedures, with as many
parameters as they are given inputs, and slots of primitives that fit their inputs.
-/
namespace LogoStudio.Logo

/-- In a listing from `base` on, an instruction stands at a place. -/
def Stands (base : Nat) (listing : Listing) (place : Nat) (instr : Instr) : Prop :=
  ∃ k line, place = base + k ∧ listing[k]? = some (instr, line)

/-- The place to which an instruction jumps forward. -/
def Instr.exit? : Instr → Option Nat
  | .jumpUnless _ target => some target
  | .loopStart _ exit => some exit
  | _ => none

/-- In a listing from `base` on, the instruction at a place jumps forward to `exit`. -/
def SpansIn (base : Nat) (listing : Listing) (place exit : Nat) : Prop :=
  ∃ instr, Stands base listing place instr ∧ instr.exit? = some exit

section Places

variable {base place exit : Nat} {instr : Instr} {first : Instr × Nat} {a b : Listing}

@[simp] lemma not_stands_nil : ¬Stands base [] place instr := by
  rintro ⟨k, line, -, hk⟩
  simp at hk

@[simp] lemma stands_cons : Stands base (first :: a) place instr ↔
    (place = base ∧ first.1 = instr) ∨ Stands (base + 1) a place instr := by
  constructor
  · rintro ⟨k, line, rfl, hk⟩
    cases k with
    | zero =>
        obtain rfl : first = (instr, line) := by simpa using hk
        exact .inl ⟨rfl, rfl⟩
    | succ k => exact .inr ⟨k, line, by omega, by simpa using hk⟩
  · rintro (⟨rfl, rfl⟩ | ⟨k, line, rfl, hk⟩)
    · exact ⟨0, first.2, rfl, rfl⟩
    · exact ⟨k + 1, line, by omega, by simpa using hk⟩

@[simp] lemma stands_append : Stands base (a ++ b) place instr ↔
    Stands base a place instr ∨ Stands (base + a.length) b place instr := by
  induction a generalizing base with
  | nil => simp
  | cons first rest ih =>
      rw [List.cons_append, stands_cons, stands_cons, ih, or_assoc, List.length_cons,
        Nat.add_right_comm, Nat.add_assoc]

lemma Stands.bounds (h : Stands base a place instr) :
    base ≤ place ∧ place < base + a.length := by
  obtain ⟨k, line, rfl, hk⟩ := h
  obtain ⟨hlt, -⟩ := List.getElem?_eq_some_iff.mp hk
  omega

@[simp] lemma not_spansIn_nil : ¬SpansIn base [] place exit := by simp [SpansIn]

@[simp] lemma spansIn_cons : SpansIn base (first :: a) place exit ↔
    (place = base ∧ first.1.exit? = some exit) ∨ SpansIn (base + 1) a place exit := by
  simp only [SpansIn, stands_cons, or_and_right, exists_or, and_assoc, exists_and_left,
    exists_eq_left']

@[simp] lemma spansIn_append : SpansIn base (a ++ b) place exit ↔
    SpansIn base a place exit ∨ SpansIn (base + a.length) b place exit := by
  simp only [SpansIn, stands_append, or_and_right, exists_or]

end Places

/-- An instruction that neither jumps forward nor back. -/
def Instr.IsPlain : Instr → Prop
  | .jumpUnless _ _ => False
  | .loopStart _ _ => False
  | .loopNext _ => False
  | _ => True

/-- Code from `base` on whose jumps are nested like brackets. -/
inductive Bracketed : Nat → Listing → Prop
  | nil {base : Nat} : Bracketed base []
  | plain {base line : Nat} {instr : Instr} {rest : Listing} (hinstr : instr.IsPlain)
      (hrest : Bracketed (base + 1) rest) : Bracketed base ((instr, line) :: rest)
  | branch {base line : Nat} {cond : Cond} {inner rest : Listing}
      (hinner : Bracketed (base + 1) inner) (hrest : Bracketed (base + 1 + inner.length) rest) :
      Bracketed base ((.jumpUnless cond (base + 1 + inner.length), line) :: (inner ++ rest))
  | loop {base line line' : Nat} {count : Expr} {inner rest : Listing}
      (hinner : Bracketed (base + 1) inner) (hrest : Bracketed (base + 2 + inner.length) rest) :
      Bracketed base ((.loopStart count (base + 2 + inner.length), line) ::
        (inner ++ (.loopNext (base + 1), line') :: rest))

namespace Bracketed

variable {base : Nat} {a b : Listing}

lemma single {line : Nat} {instr : Instr} (h : instr.IsPlain) : Bracketed base [(instr, line)] :=
  .plain h .nil

lemma append (ha : Bracketed base a) (hb : Bracketed (base + a.length) b) :
    Bracketed base (a ++ b) := by
  induction ha with
  | nil => exact hb
  | plain hinstr hrest ih =>
      rw [List.length_cons, Nat.add_comm _ 1, ← Nat.add_assoc] at hb
      exact .plain hinstr (ih hb)
  | @branch base line cond inner rest hinner hrest _ ih =>
      rw [List.cons_append, List.append_assoc]
      refine .branch hinner (ih ?_)
      simpa only [List.length_cons, List.length_append, Nat.add_assoc, Nat.add_comm,
        Nat.add_left_comm] using hb
  | @loop base line line' count inner rest hinner hrest _ ih =>
      rw [List.cons_append, List.append_assoc, List.cons_append]
      refine .loop hinner (ih ?_)
      rw [show base + 2 + inner.length + rest.length = base + ((.loopStart count
        (base + 2 + inner.length), line) :: (inner ++ (.loopNext (base + 1), line') ::
          rest)).length by simp only [List.length_cons, List.length_append]; omega]
      exact hb

/-- The jumps of plain code and what follows it. -/
lemma spans_plain {line i e : Nat} {instr : Instr} {rest : Listing} (hinstr : instr.IsPlain)
    (h : SpansIn base ((instr, line) :: rest) i e) : SpansIn (base + 1) rest i e := by
  obtain ⟨-, hexit⟩ | h := spansIn_cons.mp h
  · cases instr <;> simp [Instr.IsPlain, Instr.exit?] at hinstr hexit
  · exact h

/-- The jumps of a branch and what follows it. -/
lemma spans_branch {line i e : Nat} {cond : Cond} {inner rest : Listing}
    (h : SpansIn base ((.jumpUnless cond (base + 1 + inner.length), line) :: (inner ++ rest)) i e) :
    (i = base ∧ e = base + 1 + inner.length) ∨ SpansIn (base + 1) inner i e ∨
      SpansIn (base + 1 + inner.length) rest i e := by
  simpa [Instr.exit?, eq_comm] using h

/-- The jumps of a loop and what follows it. -/
lemma spans_loop {line line' i e : Nat} {count : Expr} {inner rest : Listing}
    (h : SpansIn base ((.loopStart count (base + 2 + inner.length), line) ::
      (inner ++ (.loopNext (base + 1), line') :: rest)) i e) :
    (i = base ∧ e = base + 2 + inner.length) ∨ SpansIn (base + 1) inner i e ∨
      SpansIn (base + 2 + inner.length) rest i e := by
  have hnext : base + 1 + inner.length + 1 = base + 2 + inner.length := by omega
  simpa [Instr.exit?, eq_comm, hnext] using h

/-- A jump goes forward, and not past the end of the code. -/
lemma bounds (h : Bracketed base a) {i e : Nat} (hspan : SpansIn base a i e) :
    base ≤ i ∧ i < e ∧ e ≤ base + a.length := by
  induction h with
  | nil => simp at hspan
  | plain hinstr hrest ih =>
      have hbounds := ih (spans_plain hinstr hspan)
      rw [List.length_cons]
      omega
  | branch hinner hrest ihinner ihrest =>
      rw [List.length_cons, List.length_append]
      obtain ⟨rfl, rfl⟩ | hspan | hspan := spans_branch hspan
      · omega
      · have hbounds := ihinner hspan
        omega
      · have hbounds := ihrest hspan
        omega
  | loop hinner hrest ihinner ihrest =>
      rw [List.length_cons, List.length_append, List.length_cons]
      obtain ⟨rfl, rfl⟩ | hspan | hspan := spans_loop hspan
      · omega
      · have hbounds := ihinner hspan
        omega
      · have hbounds := ihrest hspan
        omega

end Bracketed

/-- Of two intervals of places the one lies inside the other, or they lie apart. -/
def NestedOrApart (i e j t : Nat) : Prop :=
  e ≤ j ∨ t ≤ i ∨ (i ≤ j ∧ t ≤ e) ∨ (j ≤ i ∧ e ≤ t)

/-- A bracket from `start` to `close` with intervals inside and intervals behind it. -/
lemma nestedOrApart_bracket {start close : Nat} {inside behind : Nat → Nat → Prop}
    (hinside : ∀ i e, inside i e → start ≤ i ∧ i < e ∧ e ≤ close)
    (hbehind : ∀ i e, behind i e → close ≤ i)
    (hin : ∀ i e j t, inside i e → inside j t → NestedOrApart i e j t)
    (hout : ∀ i e j t, behind i e → behind j t → NestedOrApart i e j t) {i e j t : Nat}
    (hi : (i = start ∧ e = close) ∨ inside i e ∨ behind i e)
    (hj : (j = start ∧ t = close) ∨ inside j t ∨ behind j t) : NestedOrApart i e j t := by
  unfold NestedOrApart at *
  obtain ⟨rfl, rfl⟩ | hi | hi := hi <;> obtain ⟨hj, ht⟩ | hj | hj := hj
  all_goals grind

namespace Bracketed

variable {base : Nat} {a : Listing}

lemma nested (h : Bracketed base a) {i e j t : Nat} (hi : SpansIn base a i e)
    (hj : SpansIn base a j t) : NestedOrApart i e j t := by
  induction h generalizing i e j t with
  | nil => simp at hi
  | plain hinstr hrest ih => exact ih (spans_plain hinstr hi) (spans_plain hinstr hj)
  | @branch base line cond inner rest hinner hrest ihinner ihrest =>
      refine nestedOrApart_bracket (fun i e h => ?_) (fun i e h => (hrest.bounds h).1)
        (fun _ _ _ _ => ihinner) (fun _ _ _ _ => ihrest) (spans_branch hi) (spans_branch hj)
      have hbounds := hinner.bounds h
      omega
  | @loop base line line' count inner rest hinner hrest ihinner ihrest =>
      refine nestedOrApart_bracket (fun i e h => ?_) (fun i e h => (hrest.bounds h).1)
        (fun _ _ _ _ => ihinner) (fun _ _ _ _ => ihrest) (spans_loop hi) (spans_loop hj)
      have hbounds := hinner.bounds h
      omega

/-- The end of a loop stands right before its exit and goes back to the body. -/
lemma loop_end (h : Bracketed base a) {i e : Nat} {count : Expr}
    (hi : Stands base a i (.loopStart count e)) :
    i + 1 < e ∧ Stands base a (e - 1) (.loopNext (i + 1)) := by
  induction h with
  | nil => simp at hi
  | @plain base line instr rest hinstr hrest ih =>
      obtain ⟨-, rfl⟩ | hi := stands_cons.mp hi
      · exact hinstr.elim
      · exact ⟨(ih hi).1, stands_cons.mpr (.inr (ih hi).2)⟩
  | @branch base line cond inner rest hinner hrest ihinner ihrest =>
      simp only [stands_cons, stands_append, reduceCtorEq, and_false, false_or] at hi ⊢
      obtain hi | hi := hi
      · exact ⟨(ihinner hi).1, .inl (ihinner hi).2⟩
      · exact ⟨(ihrest hi).1, .inr (ihrest hi).2⟩
  | @loop base line line' count inner rest hinner hrest ihinner ihrest =>
      have hnext : base + 1 + inner.length + 1 = base + 2 + inner.length := by omega
      simp only [stands_cons, stands_append, reduceCtorEq, and_false, false_or, hnext,
        Instr.loopStart.injEq, Instr.loopNext.injEq] at hi ⊢
      obtain ⟨rfl, -, rfl⟩ | hi | hi := hi
      · exact ⟨by omega, .inr (.inl ⟨by omega, rfl⟩)⟩
      · exact ⟨(ihinner hi).1, .inl (ihinner hi).2⟩
      · exact ⟨(ihrest hi).1, .inr (.inr (ihrest hi).2)⟩

/-- The end of a loop belongs to a start. -/
lemma loop_start (h : Bracketed base a) {j body : Nat} (hj : Stands base a j (.loopNext body)) :
    ∃ i count, Stands base a i (.loopStart count (j + 1)) := by
  induction h with
  | nil => simp at hj
  | @plain base line instr rest hinstr hrest ih =>
      obtain ⟨-, rfl⟩ | hj := stands_cons.mp hj
      · exact hinstr.elim
      · obtain ⟨i, count, hi⟩ := ih hj
        exact ⟨i, count, stands_cons.mpr (.inr hi)⟩
  | @branch base line cond inner rest hinner hrest ihinner ihrest =>
      simp only [stands_cons, stands_append, reduceCtorEq, and_false, false_or] at hj ⊢
      obtain hj | hj := hj
      · obtain ⟨i, count, hi⟩ := ihinner hj
        exact ⟨i, count, .inl hi⟩
      · obtain ⟨i, count, hi⟩ := ihrest hj
        exact ⟨i, count, .inr hi⟩
  | @loop base line line' count inner rest hinner hrest ihinner ihrest =>
      have hnext : base + 1 + inner.length + 1 = base + 2 + inner.length := by omega
      simp only [stands_cons, stands_append, reduceCtorEq, and_false, false_or, hnext] at hj ⊢
      obtain hj | ⟨rfl, -⟩ | hj := hj
      · obtain ⟨i, count, hi⟩ := ihinner hj
        exact ⟨i, count, .inr (.inl hi)⟩
      · exact ⟨base, count, .inl ⟨rfl, by rw [hnext]⟩⟩
      · obtain ⟨i, count, hi⟩ := ihrest hj
        exact ⟨i, count, .inr (.inr hi)⟩

end Bracketed

section Statements

variable (procs : List Definition)

lemma isPlain_callCode {name : Ident} {args : List Arg} {instr : Instr}
    (h : callCode? procs name args = some instr) : instr.IsPlain := by
  unfold callCode? at h
  split at h
  · obtain rfl := Option.some.inj h
    trivial
  · split at h
    · obtain rfl := Option.some.inj h
      trivial
    · obtain ⟨i, -, rfl⟩ := Option.map_eq_some_iff.mp h
      trivial

mutual
lemma bracketed_code (s : Statement) (base : Nat) : Bracketed base (s.code procs base) := by
  cases s with
  | define => exact .nil
  | call name args =>
      simp only [Statement.code]
      cases hcode : callCode? procs name args with
      | none => exact .nil
      | some instr => exact .single (isPlain_callCode procs hcode)
  | branch line cond body =>
      have hbranch := @Bracketed.branch base line cond.lower _ _
        (bracketed_codeOf body (base + 1)) .nil
      rwa [List.append_nil] at hbranch
  | loop line count body => exact .loop (bracketed_codeOf body (base + 1)) .nil
  | make name value => exact .single trivial

/-- The code of statements is nested like brackets. -/
lemma bracketed_codeOf (statements : List Statement) (base : Nat) :
    Bracketed base (codeOf procs base statements) := by
  cases statements with
  | nil => exact .nil
  | cons first rest => exact (bracketed_code first base).append (bracketed_codeOf rest _)
end

lemma bracketed_procedures (ds : List Definition) (base : Nat) :
    Bracketed base (procedures procs base ds).1 := by
  induction ds generalizing base with
  | nil => exact .nil
  | cons d rest ih =>
      have hret : Instr.IsPlain .ret := trivial
      exact ((bracketed_codeOf procs d.body base).append (.single hret)).append (ih _)

end Statements

namespace Program

/-- The instruction at a place jumps forward to `exit`. -/
def Spans (p : Program) (place exit : Nat) : Prop :=
  ∃ instr, p.code[place]? = some instr ∧ instr.exit? = some exit

lemma stands_ofListing {listing : Listing} {table : List Procedure} {place : Nat} {instr : Instr} :
    (ofListing listing table).code[place]? = some instr ↔ Stands 0 listing place instr := by
  simp only [ofListing, List.getElem?_toArray, List.getElem?_map, Option.map_eq_some_iff, Stands,
    Nat.zero_add]
  constructor
  · rintro ⟨⟨instr, line⟩, hx, rfl⟩
    exact ⟨place, line, rfl, hx⟩
  · rintro ⟨k, line, rfl, hx⟩
    exact ⟨_, hx, rfl⟩

end Program

def Actual.Fits : Actual → Slot → Prop
  | .num _, .num | .num _, .any => True
  | .word _, .word | .word _, .any => True
  | _, _ => False

/-- The form of a compiled program whose source has `lineCount` lines. Its code is that of the
main program, up to the first entry, and then that of the procedures, each from its entry to the
next one. -/
structure Program.WellFormed (lineCount : Nat) (p : Program) : Prop where
  lines_size : p.lines.size = p.code.size
  lines_range : ∀ line ∈ p.lines, 1 ≤ line ∧ line ≤ lineCount
  main_nonempty : 0 < p.start 0
  /-- The main program ends with a halt, and there is no other. -/
  halt : ∀ pc : Nat, p.code[pc]? = some .halt ↔ pc + 1 = p.start 0
  /-- Each procedure starts at its entry, right after the one before it, and ends with a return. -/
  procedure : ∀ (i : Nat) (proc : Procedure), p.procs[i]? = some proc →
    p.start i = proc.entry ∧ p.start i < p.start (i + 1) ∧
      p.code[p.start (i + 1) - 1]? = some .ret
  procedures_end : p.start p.procs.size = p.code.size
  /-- The end of a loop stands right before its exit. -/
  loop : ∀ (i : Nat) (count : Expr) (exit : Nat), p.code[i]? = some (.loopStart count exit) →
    i + 1 < exit ∧ p.code[exit - 1]? = some (.loopNext (i + 1))
  loop_partner : ∀ j body : Nat, p.code[j]? = some (.loopNext body) →
    ∃! i : Nat, ∃ count, p.code[i]? = some (.loopStart count (j + 1))
  branch : ∀ (i : Nat) (cond : Cond) (target : Nat),
    p.code[i]? = some (.jumpUnless cond target) → i < target
  nested : ∀ i e j t, p.Spans i e → p.Spans j t → NestedOrApart i e j t
  /-- The place that a jump leads to belongs to the same procedure, so that the jump stops before
  its last instruction. -/
  inside : ∀ i e, p.Spans i e → ∃ owner, p.Within owner i ∧ p.Within owner e
  call : ∀ (pc i : Nat) (args : List Expr), p.code[pc]? = some (.call i args) →
    ∃ proc, p.procs[i]? = some proc ∧ args.length = proc.params.length
  primitive : ∀ (pc : Nat) (q : Primitive) (args : List Actual),
    p.code[pc]? = some (.primitive q args) →
    List.Forall₂ Actual.Fits args q.slots

/-- Every place of the code belongs to the main program or to a procedure. -/
lemma Program.exists_within {p : Program} {pc : Nat} (h : pc < p.code.size) :
    ∃ owner, p.Within owner pc := by
  have hend : p.start p.procs.size = p.code.size := by simp [Program.start]
  have hbefore (n : Nat) (hn : pc < p.start n) : ∃ owner, p.Within owner pc := by
    induction n with
    | zero => exact ⟨none, hn⟩
    | succ n ih =>
        by_cases hlt : pc < p.start n
        · exact ih hlt
        · exact ⟨some n, by omega, hn⟩
  exact hbefore p.procs.size (by omega)

section

variable {procs : List Definition}

/-- What the instructions of statements name is there. -/
def Instr.Named (procs : List Definition) : Instr → Prop
  | .call i args => ∃ d, procs[i]? = some d ∧ args.length = d.params.length
  | .halt => False
  | _ => True

lemma length_filterMap_expr {args : List Arg} {n : Nat}
    (h : List.Forall₂ Arg.Fits args (List.replicate n .num)) :
    (args.filterMap Arg.expr?).length = n := by
  induction args generalizing n with
  | nil =>
      cases n with
      | zero => rfl
      | succ n => cases h
  | cons arg rest ih =>
      cases n with
      | zero => cases h
      | succ n =>
          rw [List.replicate_succ, List.forall₂_cons] at h
          cases arg with
          | num e => simpa [Arg.expr?] using ih h.2
          | word w => exact h.1.elim

lemma Calls.named {name : Ident} {args : List Arg} {instr : Instr}
    (h : Calls procs name args instr) : instr.Named procs := by
  cases h with
  | stop => trivial
  | primitive => trivial
  | @procedure i d hname hp hd hfind hfits => exact ⟨d, hd, length_filterMap_expr hfits⟩

mutual
lemma named_code (s : Statement) (hs : s.callProblems procs = []) {base : Nat} {x : Instr × Nat}
    (h : x ∈ s.code procs base) : x.1.Named procs := by
  cases s with
  | define => simp [Statement.code] at h
  | call name args =>
      obtain ⟨instr, hcode, hcalls⟩ := calls_of_no_problems hs
      simp only [Statement.code, hcode, Option.map_some, Option.toList_some,
        List.mem_singleton] at h
      rw [h]
      exact hcalls.named
  | branch line cond body =>
      obtain rfl | h := List.mem_cons.mp h
      · trivial
      · exact named_codeOf body hs h
  | loop line count body =>
      simp only [Statement.code, List.mem_append, List.mem_cons, List.not_mem_nil, or_false] at h
      obtain (rfl | h) | rfl := h
      · trivial
      · exact named_codeOf body hs h
      · trivial
  | make name value =>
      obtain rfl := List.mem_singleton.mp h
      trivial

/-- What the instructions of statements without problems name is there. -/
lemma named_codeOf (statements : List Statement) (hs : callProblemsIn procs statements = [])
    {base : Nat} {x : Instr × Nat} (h : x ∈ codeOf procs base statements) :
    x.1.Named procs := by
  cases statements with
  | nil => simp [codeOf] at h
  | cons first rest =>
      obtain ⟨hfirst, hrest⟩ := List.append_eq_nil_iff.mp hs
      obtain h | h := List.mem_append.mp h
      · exact named_code first hfirst h
      · exact named_codeOf rest hrest h
end

end

/-- What an instruction names is there in a program. -/
def Program.Names (p : Program) : Instr → Prop
  | .call i args => ∃ proc, p.procs[i]? = some proc ∧ args.length = proc.params.length
  | .halt => False
  | _ => True

section

variable {lastLine : Nat} {program : List Statement}

lemma names_of_named {instr : Instr} (h : instr.Named (accepted program)) :
    (assemble lastLine program).Names instr := by
  cases instr with
  | call i args =>
      obtain ⟨d, hd, hlength⟩ := h
      obtain ⟨entry, hproc, -, -, -, -⟩ := assemble_procedure lastLine program hd
      exact ⟨_, hproc, by rw [hlength, List.length_map]⟩
  | halt => exact h
  | _ => trivial

/-- The instructions of a block name what is there, up to the one that ends the block. -/
lemma names_of_block {base line : Nat} {statements : List Statement} {final : Instr}
    (hholds : (assemble lastLine program).Holds base
      (codeOf (accepted program) base statements ++ [(final, line)]))
    (hs : callProblemsIn (accepted program) statements = []) {pc : Nat} (hlow : base ≤ pc)
    (hhigh : pc ≤ base + (codeOf (accepted program) base statements).length) {instr : Instr}
    (hinstr : (assemble lastLine program).code[pc]? = some instr) :
    (assemble lastLine program).Names instr ∨
      (instr = final ∧ pc = base + (codeOf (accepted program) base statements).length) := by
  obtain ⟨k, rfl⟩ := Nat.exists_eq_add_of_le hlow
  by_cases hlt : k < (codeOf (accepted program) base statements).length
  · have hk := List.getElem?_eq_getElem hlt
    obtain ⟨hcode, -⟩ := hholds.left k _ _ hk
    obtain rfl := Option.some.inj (hcode.symm.trans hinstr)
    exact .inl (names_of_named (named_codeOf statements hs (List.getElem_mem hlt)))
  · obtain rfl : k = (codeOf (accepted program) base statements).length := by omega
    obtain ⟨hcode, -⟩ := hholds.right.head
    exact .inr ⟨(Option.some.inj (hcode.symm.trans hinstr)).symm, rfl⟩

end

section

variable {source : String} {p : Program} (hp : compile source = .ok p)

include hp

lemma bracketed_of_compile :
    ∃ listing table, p = .ofListing listing table ∧ Bracketed 0 listing := by
  obtain ⟨program, -, rfl, -, -, -⟩ := compile_eq_ok hp
  refine ⟨_, _, assemble_eq _ _, ?_⟩
  have hhalt : Instr.IsPlain .halt := trivial
  have hmain := (bracketed_codeOf (accepted program) program 0).append
    (@Bracketed.single _ (lineCount source) _ hhalt)
  refine Bracketed.append hmain ?_
  rw [Nat.zero_add]
  exact bracketed_procedures _ _ _

/-- An instruction names what is there, or it is the last one of the main program or of a
procedure. -/
lemma names_of_compile {owner : Option Nat} {pc : Nat} (h : p.Within owner pc) {instr : Instr}
    (hinstr : p.code[pc]? = some instr) :
    p.Names instr ∨ (owner = none ∧ instr = .halt ∧ pc + 1 = p.start 0) ∨
      ∃ i, owner = some i ∧ instr = .ret ∧ pc + 1 = p.start (i + 1) := by
  obtain ⟨program, -, rfl, -, hmain, hbodies⟩ := compile_eq_ok hp
  cases owner with
  | none =>
      have hlength : (mainListing (lineCount source) program).length =
          (codeOf (accepted program) 0 program).length + 1 := by
        simp [mainListing]
      rw [Program.Within, assemble_start_zero] at h
      rw [assemble_start_zero]
      obtain hnames | ⟨hhalt, hpc⟩ := names_of_block (assemble_holds_main _ program) hmain
        (Nat.zero_le pc) (by omega) hinstr
      · exact .inl hnames
      · exact .inr (.inl ⟨rfl, hhalt, by omega⟩)
  | some i =>
      obtain ⟨hlow, hhigh⟩ := h
      have hi : i < (accepted program).length := by
        by_contra hge
        rw [← assemble_procs_size (lineCount source)] at hge
        rw [Program.start, Array.getElem?_eq_none (by omega)] at hlow hhigh
        exact absurd hhigh (Nat.not_lt.mpr hlow)
      obtain ⟨entry, -, hstart, hnext, hholds, -⟩ :=
        @assemble_block_procedure (lineCount source) _ _ _ (List.getElem?_eq_getElem hi)
      rw [hstart] at hlow
      rw [hnext] at hhigh
      obtain hnames | ⟨hret, hpc⟩ := names_of_block hholds (hbodies _ (List.getElem_mem hi)) hlow
        (by omega) hinstr
      · exact .inl hnames
      · exact .inr (.inr ⟨i, rfl, hret, by omega⟩)

/-- The main program ends with a halt. -/
lemma halt_of_compile : 0 < p.start 0 ∧ p.code[p.start 0 - 1]? = some .halt := by
  obtain ⟨program, -, rfl, -, -, -⟩ := compile_eq_ok hp
  rw [assemble_start_zero]
  have hlength : (mainListing (lineCount source) program).length =
      (codeOf (accepted program) 0 program).length + 1 := by
    simp [mainListing]
  refine ⟨by omega, ?_⟩
  have hholds := (assemble_holds_main (lineCount source) program).right.head
  rw [hlength, Nat.add_sub_cancel]
  simpa using hholds.1

/-- A procedure ends with a return. -/
lemma ret_of_compile {i : Nat} {proc : Procedure} (h : p.procs[i]? = some proc) :
    p.start i = proc.entry ∧ p.start i < p.start (i + 1) ∧
      p.code[p.start (i + 1) - 1]? = some .ret := by
  obtain ⟨program, -, rfl, -, -, -⟩ := compile_eq_ok hp
  have hi : i < (accepted program).length := by
    rw [← assemble_procs_size (lineCount source)]
    exact (Array.getElem?_eq_some_iff.mp h).1
  obtain ⟨entry, hproc, hstart, hnext, hholds, -⟩ :=
    @assemble_block_procedure (lineCount source) _ _ _ (List.getElem?_eq_getElem hi)
  obtain rfl := Option.some.inj (hproc.symm.trans h)
  refine ⟨hstart, by omega, ?_⟩
  rw [hnext, Nat.add_sub_cancel]
  exact hholds.right.head.1

/-- Every instruction is sound where it stands. -/
lemma sound_of_instr {pc : Nat} {instr : Instr} (h : p.code[pc]? = some instr) :
    ∃ owner, p.Within owner pc ∧ p.Sound owner pc instr := by
  obtain ⟨owner, howner⟩ := Program.exists_within (Array.getElem?_eq_some_iff.mp h).1
  obtain ⟨there, hthere, hsound⟩ := sound_of_compile hp howner
  obtain rfl := Option.some.inj (hthere.symm.trans h)
  exact ⟨owner, howner, hsound⟩

/-- A jump leads to a place of the same procedure. -/
lemma within_of_spans {i e : Nat} (h : p.Spans i e) :
    ∃ owner, p.Within owner i ∧ p.Within owner e := by
  obtain ⟨instr, hinstr, hexit⟩ := h
  obtain ⟨owner, howner, hsound⟩ := sound_of_instr hp hinstr
  refine ⟨owner, howner, ?_⟩
  cases instr with
  | jumpUnless cond target =>
      obtain rfl := Option.some.inj hexit
      exact hsound.2.within
  | loopStart count exit =>
      obtain rfl := Option.some.inj hexit
      exact hsound.2.within
  | _ => cases hexit

/-- There is no halt but the one of the main program. -/
lemma halt_iff_of_compile (pc : Nat) : p.code[pc]? = some .halt ↔ pc + 1 = p.start 0 := by
  obtain ⟨hpos, hhalt⟩ := halt_of_compile hp
  constructor
  · intro h
    obtain ⟨owner, howner⟩ := Program.exists_within (Array.getElem?_eq_some_iff.mp h).1
    obtain hnames | ⟨-, -, hpc⟩ | ⟨i, -, hret, -⟩ := names_of_compile hp howner h
    · exact hnames.elim
    · exact hpc
    · cases hret
  · intro h
    rwa [← h, Nat.add_sub_cancel] at hhalt

lemma call_of_compile {pc i : Nat} {args : List Expr} (h : p.code[pc]? = some (.call i args)) :
    ∃ proc, p.procs[i]? = some proc ∧ args.length = proc.params.length := by
  obtain ⟨owner, howner⟩ := Program.exists_within (Array.getElem?_eq_some_iff.mp h).1
  obtain hnames | ⟨-, hhalt, -⟩ | ⟨i, -, hret, -⟩ := names_of_compile hp howner h
  · exact hnames
  · cases hhalt
  · cases hret

lemma primitive_of_compile {pc : Nat} {q : Primitive} {args : List Actual}
    (h : p.code[pc]? = some (.primitive q args)) : List.Forall₂ Actual.Fits args q.slots := by
  obtain ⟨_, -, -, inputs, rfl, hfits⟩ := sound_of_instr hp h
  rw [List.forall₂_map_left_iff]
  refine hfits.imp fun input slot hfit => ?_
  cases input <;> cases slot <;> exact hfit

end

/-- The code of a compiled program is well formed: it has lines of the source, its jumps are
nested like brackets and stay inside the main program or a procedure, and whatever it names is
there. -/
theorem wellFormed_of_compile {source : String} {p : Program} (hp : compile source = .ok p) :
    p.WellFormed (lineCount source) := by
  obtain ⟨listing, table, hlisting, hbracketed⟩ := bracketed_of_compile hp
  have hstands {pc : Nat} {instr : Instr} :
      p.code[pc]? = some instr ↔ Stands 0 listing pc instr := by
    rw [hlisting, Program.stands_ofListing]
  have hspans {i e : Nat} (h : p.Spans i e) : SpansIn 0 listing i e := by
    obtain ⟨instr, hinstr, hexit⟩ := h
    exact ⟨instr, hstands.mp hinstr, hexit⟩
  have hloop (i : Nat) (count : Expr) (exit : Nat)
      (h : p.code[i]? = some (.loopStart count exit)) :
      i + 1 < exit ∧ p.code[exit - 1]? = some (.loopNext (i + 1)) := by
    rw [hstands] at h ⊢
    exact hbracketed.loop_end h
  constructor
  case lines_size => exact lines_size_of_compile hp
  case lines_range => exact fun line => line_range_of_compile hp
  case main_nonempty => exact (halt_of_compile hp).1
  case halt => exact halt_iff_of_compile hp
  case procedure => exact fun i proc => ret_of_compile hp
  case procedures_end => simp [Program.start]
  case loop => exact hloop
  case loop_partner =>
    intro j body hj
    obtain ⟨i, count, hi⟩ := hbracketed.loop_start (hstands.mp hj)
    refine ⟨i, ⟨count, hstands.mpr hi⟩, ?_⟩
    rintro i' ⟨count', hi'⟩
    have hend := (hloop i count (j + 1) (hstands.mpr hi)).2
    have hend' := (hloop i' count' (j + 1) hi').2
    have hsameBody : i' + 1 = i + 1 := Instr.loopNext.inj (Option.some.inj (hend'.symm.trans hend))
    omega
  case branch =>
    intro i cond target h
    exact (hbracketed.bounds (hspans ⟨_, h, rfl⟩)).2.1
  case nested => exact fun i e j t hi hj => hbracketed.nested (hspans hi) (hspans hj)
  case inside => exact fun i e => within_of_spans hp
  case call => exact fun pc i args => call_of_compile hp
  case primitive => exact fun pc q args => primitive_of_compile hp

/-- A branch in a loop in a branch, in a procedure that calls itself. -/
theorem wellFormed_of_nested_program :
    ∃ p, compile "to f :n\nif :n > 0 [repeat :n [if :n < 9 [f :n - 1]]]\nend\nf 3" = .ok p ∧
      p.WellFormed 4 := by
  have hok : (compile "to f :n\nif :n > 0 [repeat :n [if :n < 9 [f :n - 1]]]\nend\nf 3").toBool =
      true := by decide +kernel
  cases hp : compile "to f :n\nif :n > 0 [repeat :n [if :n < 9 [f :n - 1]]]\nend\nf 3" with
  | error problems =>
      rw [hp] at hok
      cases hok
  | ok p => exact ⟨p, rfl, wellFormed_of_compile hp⟩

end LogoStudio.Logo
