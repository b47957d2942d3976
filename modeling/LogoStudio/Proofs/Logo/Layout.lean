import LogoStudio.Logo.Compile
import Mathlib.Data.List.Basic
import Mathlib.Tactic.Common

/-!
# The layout of compiled code

The code of the main program stands first, and the code of each procedure from its entry to
the entry of the next one. A listing that stands in a program from some place on is found
there instruction by instruction, so that proofs about statements can follow the listing
and never look at the whole code. Calls that pass the checks have code, and their inputs
fit the slots of what they call.
-/
namespace LogoStudio.Logo

namespace Program

/-- A listing stands in a program from the place `base` on. -/
def Holds (p : Program) (base : Nat) (listing : Listing) : Prop :=
  ∀ k instr line, listing[k]? = some (instr, line) →
    p.code[base + k]? = some instr ∧ p.line (base + k) = line

variable {p : Program} {base line : Nat} {instr : Instr} {a b : Listing}

lemma Holds.head (h : p.Holds base ((instr, line) :: a)) :
    p.code[base]? = some instr ∧ p.line base = line := h 0 instr line rfl

lemma Holds.tail (h : p.Holds base ((instr, line) :: a)) : p.Holds (base + 1) a := by
  intro k i l hk
  have hnext := h (k + 1) i l (by simpa using hk)
  rwa [show base + (k + 1) = base + 1 + k by omega] at hnext

lemma Holds.left (h : p.Holds base (a ++ b)) : p.Holds base a := by
  intro k i l hk
  obtain ⟨hlt, -⟩ := List.getElem?_eq_some_iff.mp hk
  exact h k i l (by rwa [List.getElem?_append_left hlt])

lemma Holds.right (h : p.Holds base (a ++ b)) : p.Holds (base + a.length) b := by
  intro k i l hk
  have hnext := h (a.length + k) i l (by simpa [List.getElem?_append_right] using hk)
  rwa [← Nat.add_assoc] at hnext

/-- The program with a listing as its code. -/
def ofListing (listing : Listing) (table : List Procedure) : Program :=
  ⟨(listing.map Prod.fst).toArray, (listing.map Prod.snd).toArray, table.toArray⟩

lemma holds_ofListing (listing : Listing) (table : List Procedure) :
    (ofListing listing table).Holds 0 listing := by
  intro k i l hk
  simp [ofListing, Program.line, hk]

/-- The place where a procedure starts; the end of the code for a number past the last. -/
def start (p : Program) (i : Nat) : Nat := (p.procs[i]?.map Procedure.entry).getD p.code.size

/-- Whether a place belongs to the main program or to the procedure with a number. -/
def Within (p : Program) (owner : Option Nat) (pc : Nat) : Prop :=
  match owner with
  | none => pc < p.start 0
  | some i => p.start i ≤ pc ∧ pc < p.start (i + 1)

end Program

/-- Whether an instruction at a place starts a loop that has not ended at `pc`. -/
def Instr.surrounds (place pc : Nat) : Instr → Bool
  | .loopStart _ exit => place < pc && pc < exit
  | _ => false

/-- The number of loops whose bodies are around a place. -/
def Program.loopsAround (p : Program) (pc : Nat) : Nat :=
  p.code.toList.zipIdx.countP fun (instr, place) => instr.surrounds place pc

/-- The number of loops in a listing, which stands from `base` on, that are around `pc`. -/
def openLoops (base pc : Nat) : Listing → Nat
  | [] => 0
  | (instr, _) :: rest => (instr.surrounds base pc).toNat + openLoops (base + 1) pc rest

lemma loopsAround_ofListing (listing : Listing) (table : List Procedure) (pc : Nat) :
    (Program.ofListing listing table).loopsAround pc = openLoops 0 pc listing := by
  have hcount (base : Nat) :
      ((listing.map Prod.fst).zipIdx base).countP (fun (instr, place) => instr.surrounds place pc) =
        openLoops base pc listing := by
    induction listing generalizing base with
    | nil => rfl
    | cons first rest ih =>
        rw [List.map_cons, List.zipIdx_cons, List.countP_cons, ih, openLoops, Nat.add_comm]
        cases hfirst : first.1.surrounds base pc <;> simp [hfirst]
  exact hcount 0

lemma openLoops_append (base pc : Nat) (a b : Listing) :
    openLoops base pc (a ++ b) = openLoops base pc a + openLoops (base + a.length) pc b := by
  induction a generalizing base with
  | nil => simp [openLoops]
  | cons first rest ih =>
      simp only [List.cons_append, openLoops, List.length_cons]
      rw [ih, show base + 1 + rest.length = base + (rest.length + 1) by omega]
      omega

/-- No loop of a listing is around a place before it. -/
lemma openLoops_of_le {base pc : Nat} (h : pc ≤ base) (a : Listing) : openLoops base pc a = 0 := by
  induction a generalizing base with
  | nil => rfl
  | cons first rest ih =>
      obtain ⟨instr, line⟩ := first
      have hfirst : instr.surrounds base pc = false := by
        cases instr <;> simp [Instr.surrounds]
        omega
      rw [openLoops, hfirst, ih (by omega)]
      rfl

section

variable (procs : List Definition)

mutual
/-- No loop of a statement is around a place after it. -/
lemma openLoops_code (s : Statement) {base pc : Nat}
    (h : base + (s.code procs base).length ≤ pc) : openLoops base pc (s.code procs base) = 0 := by
  cases s with
  | define => rfl
  | call name args =>
      simp only [Statement.code]
      cases hcode : callCode? procs name args with
      | none => rfl
      | some instr =>
          have hinstr : instr.surrounds base pc = false := by
            unfold callCode? at hcode
            split at hcode
            · obtain rfl := Option.some.inj hcode
              rfl
            · split at hcode
              · obtain rfl := Option.some.inj hcode
                rfl
              · obtain ⟨i, -, rfl⟩ := Option.map_eq_some_iff.mp hcode
                rfl
          simp [openLoops, hinstr]
  | branch line cond body =>
      simp only [Statement.code, List.length_cons] at h ⊢
      rw [openLoops, openLoops_codeOf body (by omega)]
      rfl
  | loop line count body =>
      simp only [Statement.code, List.length_cons, List.length_append, List.length_nil,
        List.cons_append] at h ⊢
      rw [openLoops, openLoops_append, openLoops_codeOf body (by omega)]
      simp only [openLoops, Instr.surrounds, Bool.toNat_eq_zero, Bool.and_eq_false_iff,
        decide_eq_false_iff_not, Nat.add_eq_zero_iff, Bool.toNat_false, and_true]
      omega
  | make name value => rfl

/-- No loop of some statements is around a place after them. -/
lemma openLoops_codeOf (statements : List Statement) {base pc : Nat}
    (h : base + (codeOf procs base statements).length ≤ pc) :
    openLoops base pc (codeOf procs base statements) = 0 := by
  cases statements with
  | nil => rfl
  | cons first rest =>
      simp only [codeOf, List.length_append] at h ⊢
      rw [openLoops_append, openLoops_code first (by omega), openLoops_codeOf rest (by omega)]
end

end

section

variable (procs : List Definition)

/-- No loop of a procedure is around a place after it. -/
lemma openLoops_definition (d : Definition) {base pc : Nat}
    (h : base + (d.code procs base).length ≤ pc) : openLoops base pc (d.code procs base) = 0 := by
  simp only [Definition.code, List.length_append] at h ⊢
  rw [openLoops_append, openLoops_codeOf procs d.body (by omega)]
  rfl

lemma procedures_start (base : Nat) (ds : List Definition) :
    ((procedures procs base ds).2[0]?.map Procedure.entry).getD
      (base + (procedures procs base ds).1.length) = base := by
  cases ds <;> simp [procedures]

/-- Each procedure stands at its entry, right before the entry of the next one. No loop of
the procedures before it is around its code. -/
lemma procedures_getElem {base i : Nat} {ds : List Definition} {d : Definition}
    (h : ds[i]? = some d) :
    ∃ before after entry, entry = base + before.length ∧
      (procedures procs base ds).1 = before ++ (d.code procs entry ++ after) ∧
      (∀ pc, entry ≤ pc → openLoops base pc before = 0) ∧
      (procedures procs base ds).2[i]? =
        some ⟨d.name.name, d.params.map Ident.name, entry⟩ ∧
      ((procedures procs base ds).2[i + 1]?.map Procedure.entry).getD
        (base + (procedures procs base ds).1.length) =
          entry + (d.code procs entry).length := by
  induction ds generalizing base i with
  | nil => simp at h
  | cons first rest ih =>
      cases i with
      | zero =>
          obtain rfl : first = d := by simpa using h
          refine ⟨[], _, base, rfl, rfl, fun _ _ => rfl, rfl, ?_⟩
          have hnext := procedures_start procs (base + (first.code procs base).length) rest
          simpa [procedures, Nat.add_assoc] using hnext
      | succ i =>
          obtain ⟨before, after, entry, hentry, hlisting, hclosed, htable, hnext⟩ :=
            @ih (base + (first.code procs base).length) i (by simpa using h)
          refine ⟨first.code procs base ++ before, after, entry, ?_, ?_, ?_, ?_, ?_⟩
          · rw [hentry, List.length_append]
            omega
          · simp [procedures, hlisting]
          · intro pc hpc
            rw [openLoops_append, hclosed pc hpc, openLoops_definition]
            omega
          · simpa [procedures] using htable
          · simpa [procedures, Nat.add_assoc] using hnext

end

/-- The code of the main program. -/
def mainListing (lastLine : Nat) (program : List Statement) : Listing :=
  codeOf (accepted program) 0 program ++ [(.halt, lastLine)]

/-- The procedures of a program, placed after the main program. -/
def placed (lastLine : Nat) (program : List Statement) : Listing × List Procedure :=
  procedures (accepted program) (mainListing lastLine program).length (accepted program)

lemma assemble_eq (lastLine : Nat) (program : List Statement) :
    assemble lastLine program =
      .ofListing (mainListing lastLine program ++ (placed lastLine program).1)
        (placed lastLine program).2 := rfl

section

variable (lastLine : Nat) (program : List Statement)

lemma assemble_holds_main :
    (assemble lastLine program).Holds 0 (mainListing lastLine program) :=
  (Program.holds_ofListing _ _).left

/-- No loop of the main program is around a place after it. -/
lemma openLoops_main {pc : Nat} (h : (mainListing lastLine program).length ≤ pc) :
    openLoops 0 pc (mainListing lastLine program) = 0 := by
  simp only [mainListing, List.length_append] at h ⊢
  rw [openLoops_append, openLoops_codeOf _ program (by omega)]
  rfl

/-- Only loops of the main program are around its places. -/
lemma assemble_loopsAround_main {pc : Nat} (h : pc ≤ (mainListing lastLine program).length) :
    (assemble lastLine program).loopsAround pc = openLoops 0 pc (mainListing lastLine program) := by
  rw [assemble_eq, loopsAround_ofListing, openLoops_append,
    openLoops_of_le (show pc ≤ 0 + (mainListing lastLine program).length by omega)]
  rfl

lemma assemble_start_zero :
    (assemble lastLine program).start 0 = (mainListing lastLine program).length := by
  have h := procedures_start (accepted program) (mainListing lastLine program).length
    (accepted program)
  simpa [assemble_eq, Program.start, Program.ofListing, placed] using h

/-- The code of a procedure is found at its entry and ends where the next one starts. -/
lemma assemble_procedure {i : Nat} {d : Definition} (h : (accepted program)[i]? = some d) :
    ∃ entry,
      (assemble lastLine program).procs[i]? =
        some ⟨d.name.name, d.params.map Ident.name, entry⟩ ∧
      (assemble lastLine program).start i = entry ∧
      (assemble lastLine program).start (i + 1) =
        entry + (d.code (accepted program) entry).length ∧
      (assemble lastLine program).Holds entry (d.code (accepted program) entry) ∧
      ∀ pc, entry ≤ pc → pc ≤ entry + (d.code (accepted program) entry).length →
        (assemble lastLine program).loopsAround pc =
          openLoops entry pc (d.code (accepted program) entry) := by
  obtain ⟨before, after, entry, hentry, hlisting, hclosed, htable, hnext⟩ :=
    @procedures_getElem (accepted program) (mainListing lastLine program).length i _ d h
  refine ⟨entry, ?_, ?_, ?_, ?_, ?_⟩
  · simpa [assemble_eq, Program.ofListing, placed] using htable
  · simp [assemble_eq, Program.start, Program.ofListing, placed, htable]
  · rw [← hnext]
    simp [assemble_eq, Program.start, Program.ofListing, placed]
  · have hplaced := (Program.holds_ofListing
      (mainListing lastLine program ++ (placed lastLine program).1)
      (placed lastLine program).2).right
    rw [← assemble_eq] at hplaced
    rw [placed, hlisting] at hplaced
    have hcode := hplaced.right.left
    rwa [Nat.zero_add, ← hentry] at hcode
  · intro pc hlow hhigh
    rw [assemble_eq, loopsAround_ofListing, placed, hlisting, openLoops_append, openLoops_append,
      openLoops_append, Nat.zero_add, ← hentry, hclosed pc hlow, openLoops_of_le hhigh after,
      openLoops_main lastLine program (by omega)]
    omega

end

lemma declare_of_no_problems {taken : List String} {ds : List Definition}
    (h : (declare taken ds).2 = []) : (declare taken ds).1 = ds := by
  induction ds generalizing taken with
  | nil => rfl
  | cons d rest ih =>
      simp only [declare] at h ⊢
      split at h
      · simp at h
      · next hbuiltin =>
          rw [if_neg hbuiltin]
          split at h
          · simp at h
          · next htaken =>
              rw [if_neg htaken]
              exact congrArg (d :: ·) (ih h)

/-- A program compiles if it can be read and has no problems. Then all its definitions are
accepted and all its calls are right. -/
lemma compile_eq_ok {source : String} {p : Program} (h : compile source = .ok p) :
    ∃ program, parse source = .ok program ∧ p = assemble (lineCount source) program ∧
      accepted program = definitionsIn program ∧
      callProblemsIn (accepted program) program = [] ∧
      ∀ d ∈ accepted program, callProblemsIn (accepted program) d.body = [] := by
  unfold compile at h
  split at h
  · cases h
  · next program hparse =>
      dsimp only at h
      split at h
      · next hproblems =>
          obtain rfl := Except.ok.inj h
          rw [List.isEmpty_iff, problemsOf, List.append_eq_nil_iff, List.append_eq_nil_iff,
            List.flatMap_eq_nil_iff] at hproblems
          obtain ⟨⟨hdeclare, hmain⟩, hbodies⟩ := hproblems
          exact ⟨program, hparse, rfl, declare_of_no_problems hdeclare, hmain, hbodies⟩
      · cases h

def Arg.Fits : Arg → Slot → Prop
  | .num _, .num | .num _, .any => True
  | .word _, .word | .word _, .any => True
  | _, _ => False

lemma fits_of_no_problems {name : Ident} {args : List Arg} {slots : List Slot}
    (hlength : args.length = slots.length)
    (h : (args.zip slots).filterMap (inputProblem? name) = []) :
    List.Forall₂ Arg.Fits args slots := by
  induction args generalizing slots with
  | nil =>
      obtain rfl : slots = [] := List.length_eq_zero_iff.mp hlength.symm
      exact .nil
  | cons arg rest ih =>
      cases slots with
      | nil => simp at hlength
      | cons slot slots =>
          rw [List.zip_cons_cons, List.filterMap_cons] at h
          cases hproblem : inputProblem? name (arg, slot) with
          | none =>
              rw [hproblem] at h
              refine .cons ?_ (ih (by simpa using hlength) h)
              cases arg <;> cases slot <;> trivial
          | some problem => simp [hproblem] at h

/-- What a call without problems calls, and its code. -/
inductive Calls (procs : List Definition) (name : Ident) (args : List Arg) : Instr → Prop
  | stop (hname : name.name = stopName) : Calls procs name args .ret
  | primitive {p : Primitive} (hname : name.name ≠ stopName)
      (hp : Primitive.ofName? name.name = some p) (hfits : List.Forall₂ Arg.Fits args p.slots) :
      Calls procs name args (.primitive p (args.map Arg.lower))
  | procedure {i : Nat} {d : Definition} (hname : name.name ≠ stopName)
      (hp : Primitive.ofName? name.name = none) (hd : procs[i]? = some d)
      (hfind : procs.find? (·.name.name == name.name) = some d)
      (hfits : List.Forall₂ Arg.Fits args (List.replicate d.params.length .num)) :
      Calls procs name args (.call i (args.filterMap Arg.expr?))

/-- A call without problems has code. -/
lemma calls_of_no_problems {procs : List Definition} {name : Ident} {args : List Arg}
    (h : callProblems procs name args = []) :
    ∃ instr, callCode? procs name args = some instr ∧ Calls procs name args instr := by
  unfold callProblems at h
  cases hslots : slots? procs name.name with
  | none => simp [hslots] at h
  | some slots =>
      simp only [hslots] at h
      split at h
      · next hlength =>
          have hfits := fits_of_no_problems hlength h
          unfold slots? at hslots
          unfold callCode?
          by_cases hname : name.name = stopName
          · exact ⟨.ret, by rw [if_pos hname], .stop hname⟩
          · rw [if_neg hname] at hslots ⊢
            cases hp : Primitive.ofName? name.name with
            | some p =>
                rw [hp] at hslots
                obtain rfl : p.slots = slots := Option.some.inj hslots
                exact ⟨_, rfl, .primitive hname hp hfits⟩
            | none =>
                rw [hp] at hslots
                obtain ⟨d, hfind, rfl⟩ := Option.map_eq_some_iff.mp hslots
                have hplace := hfind
                rw [List.find?_eq_bind_findIdx?_getElem?] at hplace
                obtain ⟨i, hi, hd⟩ := Option.bind_eq_some_iff.mp hplace
                exact ⟨.call i (args.filterMap Arg.expr?), by rw [hi]; rfl,
                  .procedure hname hp hd hfind hfits⟩
      · cases h

end LogoStudio.Logo
