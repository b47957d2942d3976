import LogoStudio.Proofs.Logo.Layout

/-!
# Loops around a place

Compiled code is nested as its source is: wherever an instruction sends the machine, it
stays in the code of the same procedure, and the number of loops around the next place is
the one that the instruction leaves running. Each instruction is looked at once, by
induction on the statements, and the machine needs nothing else of the code.
-/
namespace LogoStudio.Logo

namespace Program

/-- A place of `owner` with `depth` loops around it. -/
structure At (p : Program) (owner : Option Nat) (depth pc : Nat) : Prop where
  within : p.Within owner pc
  loops : p.loopsAround pc = depth

/-- Where the instruction at a place may send the machine, and what it names. -/
def Sound (p : Program) (owner : Option Nat) (pc : Nat) : Instr → Prop
  | .primitive q args => p.At owner (p.loopsAround pc) (pc + 1) ∧
      ∃ inputs, args = inputs.map Arg.lower ∧ List.Forall₂ Arg.Fits inputs q.slots
  | .make _ _ => p.At owner (p.loopsAround pc) (pc + 1)
  | .call i _ => p.At owner (p.loopsAround pc) (pc + 1) ∧ i < p.procs.size
  | .ret => True
  | .jumpUnless _ target =>
      p.At owner (p.loopsAround pc) (pc + 1) ∧ p.At owner (p.loopsAround pc) target
  | .loopStart _ exit =>
      p.At owner (p.loopsAround pc + 1) (pc + 1) ∧ p.At owner (p.loopsAround pc) exit
  | .loopNext body =>
      p.At owner (p.loopsAround pc) body ∧
        p.At owner (p.loopsAround pc - 1) (pc + 1) ∧ 0 < p.loopsAround pc
  | .halt => True

/-- A listing from `base` on that belongs to `owner`, up to the place right after it, with
`depth` loops around the whole of it. -/
structure Block (p : Program) (owner : Option Nat) (depth base : Nat) (listing : Listing) :
    Prop where
  within : ∀ pc, base ≤ pc → pc ≤ base + listing.length → p.Within owner pc
  loops : ∀ pc, base ≤ pc → pc ≤ base + listing.length →
    p.loopsAround pc = depth + openLoops base pc listing

namespace Block

variable {p : Program} {owner : Option Nat} {depth base line : Nat} {instr : Instr}
  {a b : Listing}

lemma left (h : p.Block owner depth base (a ++ b)) : p.Block owner depth base a := by
  constructor
  · intro pc hlow hhigh
    exact h.within pc hlow (by rw [List.length_append]; omega)
  · intro pc hlow hhigh
    rw [h.loops pc hlow (by rw [List.length_append]; omega), openLoops_append,
      openLoops_of_le hhigh b]
    rfl

/-- A listing after one whose loops have all ended. -/
lemma right (h : p.Block owner depth base (a ++ b))
    (hclosed : ∀ pc, base + a.length ≤ pc → openLoops base pc a = 0) :
    p.Block owner depth (base + a.length) b := by
  constructor
  · intro pc hlow hhigh
    exact h.within pc (by omega) (by rw [List.length_append]; omega)
  · intro pc hlow hhigh
    rw [h.loops pc (by omega) (by rw [List.length_append]; omega), openLoops_append,
      hclosed pc hlow, Nat.zero_add]

/-- What follows an instruction that starts no loop. -/
lemma tail (h : p.Block owner depth base ((instr, line) :: a))
    (hinstr : ∀ pc, instr.surrounds base pc = false) : p.Block owner depth (base + 1) a := by
  have happend : p.Block owner depth base ([(instr, line)] ++ a) := h
  exact happend.right fun pc _ => by simp [openLoops, hinstr]

/-- The body of a loop has one loop more around it. -/
lemma body {count : Expr} {exit : Nat} {last : Instr × Nat}
    (h : p.Block owner depth base ((.loopStart count exit, line) :: (a ++ [last])))
    (hexit : exit = base + 2 + a.length) : p.Block owner (depth + 1) (base + 1) a := by
  constructor
  · intro pc hlow hhigh
    exact h.within pc (by omega) (by simp only [List.length_cons, List.length_append]; omega)
  · intro pc hlow hhigh
    have hstart : Instr.surrounds base pc (.loopStart count exit) = true := by
      simp only [Instr.surrounds, Bool.and_eq_true, decide_eq_true_eq]
      omega
    rw [h.loops pc (by omega) (by simp only [List.length_cons, List.length_append]; omega),
      openLoops, openLoops_append, openLoops_of_le hhigh [last], hstart, Bool.toNat_true]
    omega

lemma first (h : p.Block owner depth base a) : p.At owner depth base :=
  ⟨h.within base (by omega) (by omega), by
    rw [h.loops base (by omega) (by omega), openLoops_of_le (Nat.le_refl _)]; rfl⟩

lemma last (h : p.Block owner depth base a)
    (hclosed : openLoops base (base + a.length) a = 0) :
    p.At owner depth (base + a.length) :=
  ⟨h.within _ (by omega) (by omega), by
    rw [h.loops _ (by omega) (by omega), hclosed]; rfl⟩

end Block

end Program

section

variable {p : Program} {owner : Option Nat} {procs : List Definition}

mutual
/-- Every instruction of a statement without problems is sound. -/
lemma sound_code (hprocs : procs.length = p.procs.size) (s : Statement)
    (hs : s.callProblems procs = []) {depth base : Nat}
    (h : p.Block owner depth base (s.code procs base)) {k : Nat} {instr : Instr} {line : Nat}
    (hk : (s.code procs base)[k]? = some (instr, line)) : p.Sound owner (base + k) instr := by
  have hlast := h.last (openLoops_code procs s (Nat.le_refl _))
  have hfirst := h.first
  cases s with
  | define => simp [Statement.code] at hk
  | call name args =>
      obtain ⟨instr', hcode, hcalls⟩ := calls_of_no_problems hs
      simp only [Statement.code, hcode, Option.map_some, Option.toList_some] at hk hlast
      obtain rfl : k = 0 := by
        obtain ⟨hlt, -⟩ := List.getElem?_eq_some_iff.mp hk
        simpa using hlt
      obtain ⟨rfl, -⟩ : instr' = instr ∧ name.line = line := by simpa using hk
      rw [Nat.add_zero]
      rw [← hfirst.loops] at hlast
      cases hcalls with
      | stop => trivial
      | primitive hname hp hfits => exact ⟨hlast, args, rfl, hfits⟩
      | procedure hname hp hd hfind hfits =>
          obtain ⟨hlt, -⟩ := List.getElem?_eq_some_iff.mp hd
          exact ⟨hlast, by omega⟩
  | branch line' cond body =>
      simp only [Statement.code] at h hk
      have hbody := h.tail fun pc => rfl
      cases k with
      | zero =>
          obtain ⟨rfl, -⟩ := Prod.mk.inj (Option.some.inj hk)
          rw [Nat.add_zero, Program.Sound, hfirst.loops]
          exact ⟨hbody.first, hbody.last (openLoops_codeOf procs body (Nat.le_refl _))⟩
      | succ k =>
          have hnext := sound_codeOf hprocs body hs hbody (by simpa using hk)
          rwa [show base + 1 + k = base + (k + 1) by omega] at hnext
  | loop line' count body =>
      simp only [Statement.code, List.cons_append] at h hk hlast
      have hbody := h.body rfl
      have hend := hbody.last (openLoops_codeOf procs body (Nat.le_refl _))
      have hexit : base + ((codeOf procs (base + 1) body).length + 1 + 1) =
          base + 2 + (codeOf procs (base + 1) body).length := by omega
      simp only [List.length_cons, List.length_append, List.length_nil, Nat.zero_add,
        hexit] at hlast
      cases k with
      | zero =>
          obtain ⟨rfl, -⟩ := Prod.mk.inj (Option.some.inj hk)
          rw [Nat.add_zero, Program.Sound, hfirst.loops]
          exact ⟨hbody.first, hlast⟩
      | succ k =>
          rw [List.getElem?_cons_succ] at hk
          by_cases hlt : k < (codeOf procs (base + 1) body).length
          · rw [List.getElem?_append_left hlt] at hk
            have hnext := sound_codeOf hprocs body hs hbody hk
            rwa [show base + 1 + k = base + (k + 1) by omega] at hnext
          · obtain rfl : k = (codeOf procs (base + 1) body).length := by
              obtain ⟨hle, -⟩ := List.getElem?_eq_some_iff.mp hk
              simp only [List.length_append, List.length_cons, List.length_nil] at hle
              omega
            obtain ⟨rfl, -⟩ : Instr.loopNext (base + 1) = instr ∧ line' = line := by
              simpa using hk
            rw [show base + ((codeOf procs (base + 1) body).length + 1) =
              base + 1 + (codeOf procs (base + 1) body).length by omega, Program.Sound, hend.loops,
              show base + 1 + (codeOf procs (base + 1) body).length + 1 =
                base + 2 + (codeOf procs (base + 1) body).length by omega]
            exact ⟨hbody.first, hlast, Nat.succ_pos depth⟩
  | make name value =>
      obtain rfl : k = 0 := by
        obtain ⟨hlt, -⟩ := List.getElem?_eq_some_iff.mp hk
        simpa [Statement.code] using hlt
      obtain ⟨rfl, -⟩ := Prod.mk.inj (Option.some.inj hk)
      rw [Nat.add_zero, Program.Sound, hfirst.loops]
      exact hlast

/-- Every instruction of statements without problems is sound. -/
lemma sound_codeOf (hprocs : procs.length = p.procs.size) (statements : List Statement)
    (hs : callProblemsIn procs statements = []) {depth base : Nat}
    (h : p.Block owner depth base (codeOf procs base statements)) {k : Nat}
    {instr : Instr} {line : Nat}
    (hk : (codeOf procs base statements)[k]? = some (instr, line)) :
    p.Sound owner (base + k) instr := by
  cases statements with
  | nil => simp [codeOf] at hk
  | cons first rest =>
      obtain ⟨hfirst, hrest⟩ := List.append_eq_nil_iff.mp hs
      simp only [codeOf] at h hk
      by_cases hlt : k < (first.code procs base).length
      · rw [List.getElem?_append_left hlt] at hk
        exact sound_code hprocs first hfirst h.left hk
      · rw [List.getElem?_append_right (by omega)] at hk
        have hnext := sound_codeOf hprocs rest hrest
          (h.right fun pc hpc => openLoops_code procs first hpc) hk
        rwa [show base + (first.code procs base).length + (k - (first.code procs base).length) =
          base + k by omega] at hnext
end

end

lemma procedures_length (procs : List Definition) (base : Nat) (ds : List Definition) :
    (procedures procs base ds).2.length = ds.length := by
  induction ds generalizing base with
  | nil => rfl
  | cons d rest ih => simp [procedures, ih]

lemma assemble_procs_size (lastLine : Nat) (program : List Statement) :
    (assemble lastLine program).procs.size = (accepted program).length := by
  simp [assemble_eq, Program.ofListing, placed, procedures_length]

section

variable {lastLine : Nat} {program : List Statement}

/-- The main program is a block of its own. -/
lemma assemble_block_main :
    (assemble lastLine program).Block none 0 0 (codeOf (accepted program) 0 program) := by
  have hlength : (mainListing lastLine program).length =
      (codeOf (accepted program) 0 program).length + 1 := by
    simp [mainListing]
  constructor
  · intro pc _ hhigh
    rw [Program.Within, assemble_start_zero]
    omega
  · intro pc _ hhigh
    rw [assemble_loopsAround_main lastLine program (by omega), mainListing, openLoops_append,
      openLoops_of_le hhigh]
    omega

/-- Each procedure is a block of its own. -/
lemma assemble_block_procedure {i : Nat} {d : Definition} (h : (accepted program)[i]? = some d) :
    ∃ entry, (assemble lastLine program).procs[i]? =
        some ⟨d.name.name, d.params.map Ident.name, entry⟩ ∧
      (assemble lastLine program).start i = entry ∧
      (assemble lastLine program).start (i + 1) =
        entry + (codeOf (accepted program) entry d.body).length + 1 ∧
      (assemble lastLine program).Holds entry (d.code (accepted program) entry) ∧
      (assemble lastLine program).Block (some i) 0 entry
        (codeOf (accepted program) entry d.body) := by
  obtain ⟨entry, hproc, hstart, hnext, hholds, hloops⟩ := assemble_procedure lastLine program h
  have hlength : (d.code (accepted program) entry).length =
      (codeOf (accepted program) entry d.body).length + 1 := by
    simp [Definition.code]
  refine ⟨entry, hproc, hstart, by omega, hholds, ?_, ?_⟩
  · intro pc hlow hhigh
    exact ⟨by omega, by omega⟩
  · intro pc hlow hhigh
    rw [hloops pc hlow (by omega), Definition.code, openLoops_append, openLoops_of_le hhigh]
    omega

/-- The instructions of a block and the one that ends it. -/
lemma sound_of_block {owner : Option Nat} {base line : Nat} {statements : List Statement}
    {final : Instr}
    (hholds : (assemble lastLine program).Holds base
      (codeOf (accepted program) base statements ++ [(final, line)]))
    (hblock : (assemble lastLine program).Block owner 0 base
      (codeOf (accepted program) base statements))
    (hs : callProblemsIn (accepted program) statements = [])
    (hfinal : ∀ pc, (assemble lastLine program).Sound owner pc final) {pc : Nat}
    (hlow : base ≤ pc) (hhigh : pc ≤ base + (codeOf (accepted program) base statements).length) :
    ∃ instr, (assemble lastLine program).code[pc]? = some instr ∧
      (assemble lastLine program).Sound owner pc instr := by
  obtain ⟨k, rfl⟩ := Nat.exists_eq_add_of_le hlow
  by_cases hlt : k < (codeOf (accepted program) base statements).length
  · obtain ⟨⟨instr, line'⟩, hk⟩ : ∃ x, (codeOf (accepted program) base statements)[k]? = some x :=
      ⟨_, List.getElem?_eq_getElem hlt⟩
    exact ⟨instr, (hholds.left k instr line' hk).1,
      sound_codeOf (assemble_procs_size lastLine program).symm statements hs hblock hk⟩
  · obtain rfl : k = (codeOf (accepted program) base statements).length := by omega
    exact ⟨final, hholds.right.head.1, hfinal _⟩

end

section

variable {source : String} {p : Program} (hp : compile source = .ok p)

include hp

/-- A compiled program starts outside all loops. -/
lemma at_start_of_compile : p.At none 0 0 := by
  obtain ⟨program, -, rfl, -, -, -⟩ := compile_eq_ok hp
  exact assemble_block_main.first

/-- A procedure starts in its own code, outside all loops. -/
lemma at_entry_of_compile {i : Nat} {proc : Procedure} (h : p.procs[i]? = some proc) :
    p.At (some i) 0 proc.entry := by
  obtain ⟨program, -, rfl, -, -, -⟩ := compile_eq_ok hp
  have hi : i < (accepted program).length := by
    rw [← assemble_procs_size (lineCount source)]
    exact (Array.getElem?_eq_some_iff.mp h).1
  obtain ⟨entry, hproc, -, -, -, hblock⟩ := assemble_block_procedure (List.getElem?_eq_getElem hi)
  obtain rfl := Option.some.inj (hproc.symm.trans h)
  exact hblock.first

/-- Every place of the main program and of a procedure has a sound instruction. -/
lemma sound_of_compile {owner : Option Nat} {pc : Nat} (h : p.Within owner pc) :
    ∃ instr, p.code[pc]? = some instr ∧ p.Sound owner pc instr := by
  obtain ⟨program, -, rfl, -, hmain, hbodies⟩ := compile_eq_ok hp
  cases owner with
  | none =>
      rw [Program.Within, assemble_start_zero] at h
      have hlength : (mainListing (lineCount source) program).length =
          (codeOf (accepted program) 0 program).length + 1 := by
        simp [mainListing]
      exact sound_of_block (assemble_holds_main _ program) assemble_block_main hmain
        (fun _ => trivial) (by omega) (by omega)
  | some i =>
      have hi : i < (accepted program).length := by
        by_contra hge
        rw [← assemble_procs_size (lineCount source)] at hge
        obtain ⟨hlow, hhigh⟩ := h
        rw [Program.start, Array.getElem?_eq_none (by omega)] at hlow hhigh
        exact absurd hhigh (Nat.not_lt.mpr hlow)
      obtain ⟨entry, -, hstart, hnext, hholds, hblock⟩ :=
        assemble_block_procedure (List.getElem?_eq_getElem hi)
      obtain ⟨hlow, hhigh⟩ := h
      rw [hstart] at hlow
      rw [hnext] at hhigh
      exact sound_of_block hholds hblock (hbodies _ (List.getElem_mem hi)) (fun _ => trivial)
        hlow (by omega)

end

end LogoStudio.Logo
