import LogoStudio.Proofs.Logo.Layout
import Mathlib.Data.List.Forall2
import Mathlib.Data.List.Nodup

/-!
# Correct programs and their problems

A program is checked in three passes: its definitions are collected wherever they stand and
refused or accepted one after the other, then the calls of the main part are checked, and then
those in the bodies of the accepted definitions. Here a program is looked at as a whole, as the
list of all its statements at any depth, and each definition and each call in it is judged by
itself. A program compiles exactly if nothing is wrong with any of them. For a program that does
not compile the reported problems are those of all its definitions and all its calls, except for
the calls that stand in the body of a refused definition.
-/
namespace LogoStudio.Logo

mutual
/-- A statement and the statements inside it at any depth, outer ones first. -/
def Statement.parts : Statement → List Statement
  | .define name params body endLine => .define name params body endLine :: partsOf body
  | .call name args => [.call name args]
  | .branch line cond body => .branch line cond body :: partsOf body
  | .loop line count body => .loop line count body :: partsOf body
  | .make name value => [.make name value]
termination_by structural s => s

/-- All the statements of a program, at any depth. -/
def partsOf : List Statement → List Statement
  | [] => []
  | s :: rest => s.parts ++ partsOf rest
termination_by structural l => l
end

def Statement.definition? : Statement → Option Definition
  | .define name params body endLine => some ⟨name, params, body, endLine⟩
  | _ => none

/-- All the definitions of a program, at any depth. -/
def allDefinitions (program : List Statement) : List Definition :=
  (partsOf program).filterMap Statement.definition?

/-- The problems of a statement that is a call, apart from what stands inside it. -/
def Statement.ownProblems (procs : List Definition) : Statement → List Problem
  | .call name args => Logo.callProblems procs name args
  | _ => []

mutual
lemma definitions_eq (s : Statement) : s.parts.filterMap Statement.definition? = s.definitions := by
  cases s with
  | define name params body endLine =>
      exact congrArg (⟨name, params, body, endLine⟩ :: ·) (definitionsIn_eq body)
  | call name args => rfl
  | branch line cond body => exact definitionsIn_eq body
  | loop line count body => exact definitionsIn_eq body
  | make name value => rfl

/-- The definitions that are collected are all that there are. -/
lemma definitionsIn_eq (program : List Statement) :
    (partsOf program).filterMap Statement.definition? = definitionsIn program := by
  cases program with
  | nil => rfl
  | cons first rest =>
      rw [partsOf, List.filterMap_append, definitions_eq first, definitionsIn_eq rest,
        definitionsIn]
end

lemma allDefinitions_eq (program : List Statement) :
    allDefinitions program = definitionsIn program := definitionsIn_eq program

section Calls

variable (procs : List Definition)

mutual
lemma ownProblems_parts (s : Statement) :
    (s.parts.flatMap (·.ownProblems procs)).Perm
      (s.callProblems procs ++ s.definitions.flatMap fun d => callProblemsIn procs d.body) := by
  cases s with
  | define name params body endLine => exact ownProblems_partsOf body
  | call name args =>
      simp [Statement.parts, Statement.ownProblems, Statement.callProblems, Statement.definitions]
  | branch line cond body => exact ownProblems_partsOf body
  | loop line count body => exact ownProblems_partsOf body
  | make name value =>
      simp [Statement.parts, Statement.ownProblems, Statement.callProblems, Statement.definitions]

/-- Every call stands in the main part, outside all definitions, or directly in the body of
exactly one definition. -/
lemma ownProblems_partsOf (program : List Statement) :
    ((partsOf program).flatMap (·.ownProblems procs)).Perm
      (callProblemsIn procs program ++
        (definitionsIn program).flatMap fun d => callProblemsIn procs d.body) := by
  cases program with
  | nil => simp [partsOf, callProblemsIn, definitionsIn]
  | cons first rest =>
      have hperm := (ownProblems_parts first).append (ownProblems_partsOf rest)
      rw [partsOf, List.flatMap_append, callProblemsIn, definitionsIn, List.flatMap_append]
      refine hperm.trans ?_
      rw [List.append_assoc, List.append_assoc]
      exact (List.perm_append_comm_assoc _ _ _).append_left _
end

end Calls

/-- Each definition of a list with those that stand before it; `earlier` stand before all. -/
def withEarlier (earlier : List Definition) :
    List Definition → List (List Definition × Definition)
  | [] => []
  | d :: rest => (earlier, d) :: withEarlier (earlier ++ [d]) rest

/-- What is wrong with a definition, given those before it. -/
def Definition.problem? (earlier : List Definition) (d : Definition) : Option Problem :=
  if isBuiltIn d.name.name then some (.primitive d.name.line d.name.name)
  else if earlier.any (·.name.name == d.name.name) then some (.redefined d.name.line d.name.name)
  else none

/-- One problem for each definition that takes the name of a primitive or of an earlier
definition. -/
def definitionProblems (program : List Statement) : List Problem :=
  (withEarlier [] (allDefinitions program)).filterMap fun (earlier, d) => d.problem? earlier

/-- The definitions with nothing wrong: the first ones of their names. -/
def standing (program : List Statement) : List Definition :=
  ((withEarlier [] (allDefinitions program)).filter fun (earlier, d) =>
    (d.problem? earlier).isNone).map Prod.snd

def refused (program : List Statement) : List Definition :=
  ((withEarlier [] (allDefinitions program)).filter fun (earlier, d) =>
    (d.problem? earlier).isSome).map Prod.snd

lemma map_snd_withEarlier (earlier ds : List Definition) :
    (withEarlier earlier ds).map Prod.snd = ds := by
  induction ds generalizing earlier with
  | nil => rfl
  | cons d rest ih => rw [withEarlier, List.map_cons, ih]

/-- Every definition is refused or not. -/
lemma allDefinitions_perm (program : List Statement) :
    (allDefinitions program).Perm (standing program ++ refused program) := by
  have hsplit := List.filter_append_perm (fun x : List Definition × Definition =>
    (x.2.problem? x.1).isNone) (withEarlier [] (allDefinitions program))
  have hmap := (hsplit.map Prod.snd).symm
  rw [map_snd_withEarlier, List.map_append] at hmap
  simpa [standing, refused] using hmap

/-- The names taken so far are those of the earlier definitions, primitives apart. -/
def NamesAgree (taken : List String) (earlier : List Definition) : Prop :=
  ∀ name, isBuiltIn name = false → (name ∈ taken ↔ ∃ d ∈ earlier, d.name.name = name)

section NamesAgree

variable {taken : List String} {earlier : List Definition} {d : Definition}

lemma NamesAgree.of_isBuiltIn (h : NamesAgree taken earlier) (hd : isBuiltIn d.name.name = true) :
    NamesAgree taken (earlier ++ [d]) := by
  intro name hname
  have hne : d.name.name ≠ name := by
    rintro rfl
    rw [hd] at hname
    cases hname
  simp [h name hname, hne]

lemma NamesAgree.of_mem (h : NamesAgree taken earlier) (hd : d.name.name ∈ taken) :
    NamesAgree taken (earlier ++ [d]) := by
  intro name hname
  by_cases hne : d.name.name = name
  · subst hne
    simp [hd]
  · simp [h name hname, hne]

lemma NamesAgree.cons (h : NamesAgree taken earlier) :
    NamesAgree (d.name.name :: taken) (earlier ++ [d]) := by
  intro name hname
  simp [h name hname, or_comm, eq_comm]

lemma NamesAgree.any_eq (h : NamesAgree taken earlier) {name : String}
    (hname : isBuiltIn name = false) :
    (earlier.any (·.name.name == name)) = taken.contains name := by
  rw [Bool.eq_iff_iff, List.contains_iff_mem, h name hname]
  simp

end NamesAgree

/-- Definitions are accepted and refused in order as their own problems say. -/
lemma declare_eq {taken : List String} {earlier : List Definition} (h : NamesAgree taken earlier)
    (ds : List Definition) :
    declare taken ds =
      (((withEarlier earlier ds).filter fun (earlier, d) =>
          (d.problem? earlier).isNone).map Prod.snd,
        (withEarlier earlier ds).filterMap fun (earlier, d) => d.problem? earlier) := by
  induction ds generalizing taken earlier with
  | nil => rfl
  | cons d rest ih =>
      simp only [declare, withEarlier, List.filter_cons, List.filterMap_cons, Definition.problem?]
      by_cases hbuiltin : isBuiltIn d.name.name = true
      · simp [hbuiltin, ih (h.of_isBuiltIn hbuiltin), Definition.problem?]
      · rw [Bool.not_eq_true] at hbuiltin
        rw [h.any_eq hbuiltin]
        by_cases htaken : taken.contains d.name.name = true
        · have hagree := h.of_mem (List.contains_iff_mem.mp htaken)
          simp only [hbuiltin, htaken, ih hagree, Definition.problem?]
          simp
        · rw [Bool.not_eq_true] at htaken
          simp only [hbuiltin, htaken, ih h.cons, Definition.problem?]
          simp

lemma declare_allDefinitions (program : List Statement) :
    declare [] (definitionsIn program) = (standing program, definitionProblems program) := by
  rw [← allDefinitions_eq]
  exact declare_eq (by simp [NamesAgree]) _

lemma accepted_eq_standing (program : List Statement) : accepted program = standing program := by
  rw [accepted, declare_allDefinitions]

/-- The problems of all the calls of a program, at any depth. -/
def everyCallProblem (program : List Statement) : List Problem :=
  (partsOf program).flatMap (·.ownProblems (standing program))

/-- The problems of the calls in the bodies of refused definitions. A definition inside such a
body is judged by itself, and its calls do not count here. -/
def unseenProblems (program : List Statement) : List Problem :=
  (refused program).flatMap fun d => callProblemsIn (standing program) d.body

/-- The checks find the problems of all definitions and all calls, except for the calls in the
bodies of refused definitions. -/
lemma problemsOf_perm (program : List Statement) :
    (problemsOf program ++ unseenProblems program).Perm
      (definitionProblems program ++ everyCallProblem program) := by
  have hcalls := ownProblems_partsOf (standing program) program
  rw [← allDefinitions_eq] at hcalls
  have hbodies := (allDefinitions_perm program).flatMap_right
    fun d => callProblemsIn (standing program) d.body
  rw [List.flatMap_append] at hbodies
  have hevery := hcalls.trans (hbodies.append_left _)
  rw [problemsOf, accepted_eq_standing, declare_allDefinitions, List.append_assoc,
    List.append_assoc]
  exact hevery.symm.append_left _

lemma refused_eq_nil {program : List Statement} (h : definitionProblems program = []) :
    refused program = [] := by
  rw [definitionProblems, List.filterMap_eq_nil_iff] at h
  rw [refused, List.map_eq_nil_iff, List.filter_eq_nil_iff]
  intro x hx
  simp [h x hx]

/-- Nothing is found exactly if nothing is wrong: problems stay unseen only beside others. -/
lemma problemsOf_eq_nil_iff (program : List Statement) :
    problemsOf program = [] ↔ definitionProblems program = [] ∧ everyCallProblem program = [] := by
  have hperm := problemsOf_perm program
  constructor
  · intro h
    have hdefinitions : definitionProblems program = [] := by
      rw [problemsOf, declare_allDefinitions, List.append_assoc, List.append_eq_nil_iff] at h
      exact h.1
    rw [h, unseenProblems, refused_eq_nil hdefinitions] at hperm
    exact List.append_eq_nil_iff.mp hperm.symm.eq_nil
  · rintro ⟨hdefinitions, hcalls⟩
    rw [hdefinitions, hcalls] at hperm
    exact (List.append_eq_nil_iff.mp hperm.eq_nil).1

/-- What a source that can be read compiles to. -/
lemma compile_of_parse {source : String} {program : List Statement}
    (h : parse source = .ok program) :
    compile source =
      if (problemsOf program).isEmpty then .ok (assemble (lineCount source) program)
      else .error ((problemsOf program).mergeSort fun p q => p.reportedLine ≤ q.reportedLine) := by
  simp only [compile, h]

/-- Some problem is reported for every source that does not compile, and all are sorted by
line. -/
lemma sorted_of_compile {source : String} {problems : List Problem}
    (h : compile source = .error problems) :
    problems ≠ [] ∧ problems.Pairwise fun p q => p.reportedLine ≤ q.reportedLine := by
  cases hparse : parse source with
  | error problem =>
      simp only [compile, hparse] at h
      obtain rfl := Except.error.inj h
      simp
  | ok program =>
      rw [compile_of_parse hparse] at h
      split at h
      · cases h
      · next hproblems =>
          obtain rfl := Except.error.inj h
          constructor
          · intro hnil
            have hlength := congrArg List.length hnil
            rw [List.length_mergeSort, List.length_nil, List.length_eq_zero_iff] at hlength
            simp [hlength] at hproblems
          · refine (List.pairwise_mergeSort ?_ ?_ _).imp of_decide_eq_true
            · intro p q r hpq hqr
              exact decide_eq_true (UInt32.le_trans (of_decide_eq_true hpq) (of_decide_eq_true hqr))
            · intro p q
              simpa using UInt32.le_total p.reportedLine q.reportedLine

/-- The problems of a source that can be read and does not compile: each definition that takes the
name of a primitive or of an earlier definition is reported once, and each call has all its own
problems reported, unless it stands in the body of a refused definition. Every problem is
reported exactly if no such call has one. The list is sorted by line. -/
theorem problems_reported {source : String} {program : List Statement} {problems : List Problem}
    (hparse : parse source = .ok program) (hcompile : compile source = .error problems) :
    (problems ++ unseenProblems program).Perm
        (definitionProblems program ++ everyCallProblem program) ∧
      (problems.Perm (definitionProblems program ++ everyCallProblem program) ↔
        unseenProblems program = []) ∧
      problems.Pairwise fun p q => p.reportedLine ≤ q.reportedLine := by
  have hsorted := (sorted_of_compile hcompile).2
  rw [compile_of_parse hparse] at hcompile
  split at hcompile
  · cases hcompile
  · obtain rfl := Except.error.inj hcompile
    have hsort := List.mergeSort_perm (problemsOf program)
      fun p q => decide (p.reportedLine ≤ q.reportedLine)
    have hperm := (hsort.append_right (unseenProblems program)).trans (problemsOf_perm program)
    refine ⟨hperm, ⟨fun hall => ?_, fun hunseen => ?_⟩, hsorted⟩
    · have hlength := hperm.length_eq.trans hall.length_eq.symm
      rw [List.length_append] at hlength
      exact List.length_eq_zero_iff.mp (by omega)
    · rwa [hunseen, List.append_nil] at hperm

/-- Problems that are found in the order of their lines are reported as they are. -/
lemma compile_eq_error_of_sorted {source : String} {program : List Statement}
    {problems : List Problem} (hparse : parse source = .ok program)
    (hproblems : problemsOf program = problems) (hne : problems ≠ [])
    (hsorted : problems.Pairwise fun p q => p.reportedLine ≤ q.reportedLine) :
    compile source = .error problems := by
  rw [compile_of_parse hparse, hproblems, if_neg (by simpa using hne),
    List.mergeSort_of_pairwise (hsorted.imp decide_eq_true)]

lemma exists_parse_of_any {source : String} {test : List Statement → Bool}
    (h : (parse source).toOption.any test = true) :
    ∃ program, parse source = .ok program ∧ test program = true := by
  cases hparse : parse source with
  | error problem =>
      rw [hparse] at h
      cases h
  | ok program =>
      rw [hparse] at h
      exact ⟨program, rfl, h⟩

/-- A second definition of `a` is refused, and nothing is said of the unknown call in its body,
while the call of `a` in the main part is checked against the first definition. -/
theorem problems_reported_of_redefinition :
    ∃ program problems, parse "to a end to a hop end a 1" = .ok program ∧
      compile "to a end to a hop end a 1" = .error problems ∧
      problems = [.redefined 1 "a", .wrongInputs 1 "a" 0 1] ∧
      unseenProblems program = [.unknownProcedure 1 "hop"] ∧
      (problems ++ unseenProblems program).Perm
        (definitionProblems program ++ everyCallProblem program) := by
  have htest : (parse "to a end to a hop end a 1").toOption.any (fun program => decide
      (problemsOf program = [.redefined 1 "a", .wrongInputs 1 "a" 0 1] ∧
        unseenProblems program = [.unknownProcedure 1 "hop"])) = true := by decide +kernel
  obtain ⟨program, hparse, hvalues⟩ := exists_parse_of_any htest
  obtain ⟨hproblems, hunseen⟩ := of_decide_eq_true hvalues
  have hcompile := compile_eq_error_of_sorted hparse hproblems (by simp) (by decide)
  exact ⟨program, _, hparse, hcompile, rfl, hunseen, (problems_reported hparse hcompile).1⟩

/-- Not every problem is reported: nothing is said of the unknown call in the body of a
definition that takes the name of a primitive. -/
theorem unknown_call_unreported_in_refused_body :
    ∃ program problems, parse "to fd\nhop\nend" = .ok program ∧
      compile "to fd\nhop\nend" = .error problems ∧
      problems = [.primitive 1 "fd"] ∧
      definitionProblems program ++ everyCallProblem program =
        [.primitive 1 "fd", .unknownProcedure 2 "hop"] ∧
      ¬problems.Perm (definitionProblems program ++ everyCallProblem program) := by
  have htest : (parse "to fd\nhop\nend").toOption.any (fun program => decide
      (problemsOf program = [.primitive 1 "fd"] ∧
        definitionProblems program ++ everyCallProblem program =
          [.primitive 1 "fd", .unknownProcedure 2 "hop"])) = true := by decide +kernel
  obtain ⟨program, hparse, hvalues⟩ := exists_parse_of_any htest
  obtain ⟨hproblems, hall⟩ := of_decide_eq_true hvalues
  have hcompile := compile_eq_error_of_sorted hparse hproblems (by simp) (by decide)
  refine ⟨program, _, hparse, hcompile, rfl, hall, ?_⟩
  rw [hall]
  decide

lemma isBuiltIn_eq_false_iff {name : String} :
    isBuiltIn name = false ↔ name ≠ stopName ∧ Primitive.ofName? name = none := by
  simp [isBuiltIn]

/-- A call of something that is there, with inputs that fit it. -/
inductive RightCall (procs : List Definition) (name : Ident) (args : List Arg) : Prop
  | stop (hname : name.name = stopName) (hargs : args = [])
  | primitive {p : Primitive} (hp : Primitive.ofName? name.name = some p)
      (hfits : List.Forall₂ Arg.Fits args p.slots)
  | procedure {d : Definition} (hd : d ∈ procs) (hname : d.name.name = name.name)
      (hlength : args.length = d.params.length) (hnums : ∀ arg ∈ args, ∃ e, arg = .num e)

/-- A program in which every definition has a name of its own and every call, wherever it stands,
is right. -/
structure Correct (program : List Statement) : Prop where
  names_free : ∀ d ∈ allDefinitions program,
    d.name.name ≠ stopName ∧ Primitive.ofName? d.name.name = none
  names_distinct : ((allDefinitions program).map (·.name.name)).Nodup
  calls_right : ∀ name args, .call name args ∈ partsOf program →
    RightCall (allDefinitions program) name args

lemma problem?_eq_none_iff {earlier : List Definition} {d : Definition} :
    d.problem? earlier = none ↔
      isBuiltIn d.name.name = false ∧ d.name.name ∉ earlier.map (·.name.name) := by
  cases hbuiltin : isBuiltIn d.name.name <;> simp [Definition.problem?, hbuiltin]

lemma problems_withEarlier_iff (earlier ds : List Definition) :
    (∀ x ∈ withEarlier earlier ds, x.2.problem? x.1 = none) ↔
      (∀ d ∈ ds, isBuiltIn d.name.name = false) ∧
        (∀ d ∈ ds, d.name.name ∉ earlier.map (·.name.name)) ∧
        (ds.map (·.name.name)).Nodup := by
  induction ds generalizing earlier with
  | nil => simp [withEarlier]
  | cons d rest ih =>
      rw [withEarlier, List.forall_mem_cons, ih]
      simp only [problem?_eq_none_iff, List.forall_mem_cons, List.map_append, List.map_cons,
        List.map_nil, List.mem_append, List.mem_singleton, List.nodup_cons, List.mem_map]
      grind

lemma definitionProblems_eq_nil_iff (program : List Statement) :
    definitionProblems program = [] ↔
      (∀ d ∈ allDefinitions program, isBuiltIn d.name.name = false) ∧
        ((allDefinitions program).map (·.name.name)).Nodup := by
  rw [definitionProblems, List.filterMap_eq_nil_iff, problems_withEarlier_iff]
  simp

lemma standing_of_no_problems {program : List Statement} (h : definitionProblems program = []) :
    standing program = allDefinitions program := by
  have hdeclare := declare_allDefinitions program
  have hproblems : (declare [] (definitionsIn program)).2 = [] := by rw [hdeclare, h]
  have haccepted := declare_of_no_problems hproblems
  rwa [hdeclare, ← allDefinitions_eq] at haccepted

lemma inputProblem?_eq_none_iff {name : Ident} {arg : Arg} {slot : Slot} :
    inputProblem? name (arg, slot) = none ↔ arg.Fits slot := by
  cases arg <;> cases slot <;> simp [inputProblem?, Arg.Fits]

/-- A call has no problems exactly if its inputs fit the slots of what it calls. -/
lemma callProblems_eq_nil_iff {procs : List Definition} {name : Ident} {args : List Arg} :
    callProblems procs name args = [] ↔
      ∃ slots, slots? procs name.name = some slots ∧ List.Forall₂ Arg.Fits args slots := by
  cases hslots : slots? procs name.name with
  | none => simp [callProblems, hslots]
  | some slots =>
      by_cases hlength : args.length = slots.length
      · simp [callProblems, hslots, hlength, List.forall₂_iff_zip, List.filterMap_eq_nil_iff,
          inputProblem?_eq_none_iff]
      · simp [callProblems, hslots, hlength, List.forall₂_iff_zip]

/-- The inputs of a procedure are numbers, one for each parameter. -/
lemma fits_replicate_iff {args : List Arg} {n : Nat} :
    List.Forall₂ Arg.Fits args (List.replicate n .num) ↔
      args.length = n ∧ ∀ arg ∈ args, ∃ e, arg = .num e := by
  induction args generalizing n with
  | nil => cases n <;> simp [List.replicate_succ]
  | cons arg rest ih =>
      cases n with
      | zero => simp
      | succ n =>
          rw [List.replicate_succ, List.forall₂_cons, ih, List.forall_mem_cons, List.length_cons]
          cases arg <;> simp [Arg.Fits]

/-- Among definitions with names of their own the right calls are those without problems. -/
lemma callProblems_eq_nil_iff_rightCall {procs : List Definition}
    (hfree : ∀ d ∈ procs, isBuiltIn d.name.name = false)
    (hdistinct : (procs.map (·.name.name)).Nodup) {name : Ident} {args : List Arg} :
    callProblems procs name args = [] ↔ RightCall procs name args := by
  rw [callProblems_eq_nil_iff]
  constructor
  · rintro ⟨slots, hslots, hfits⟩
    unfold slots? at hslots
    split at hslots
    · next hname =>
        obtain rfl := Option.some.inj hslots
        exact .stop hname (List.forall₂_nil_right_iff.mp hfits)
    · split at hslots
      · next p hp =>
          obtain rfl := Option.some.inj hslots
          exact .primitive hp hfits
      · obtain ⟨d, hfind, rfl⟩ := Option.map_eq_some_iff.mp hslots
        obtain ⟨hlength, hnums⟩ := fits_replicate_iff.mp hfits
        have hname : d.name.name = name.name := by simpa using List.find?_some hfind
        exact .procedure (List.mem_of_find?_eq_some hfind) hname hlength hnums
  · intro hright
    cases hright with
    | stop hname hargs => exact ⟨[], by simp [slots?, hname], by simp [hargs]⟩
    | @primitive p hp hfits =>
        refine ⟨p.slots, ?_, hfits⟩
        have hname : name.name ≠ stopName := by
          intro hname
          rw [hname] at hp
          cases hp
        simp [slots?, hname, hp]
    | @procedure d hd hname hlength hnums =>
        refine ⟨List.replicate d.params.length .num, ?_, fits_replicate_iff.mpr ⟨hlength, hnums⟩⟩
        obtain ⟨hstop, hprimitive⟩ := isBuiltIn_eq_false_iff.mp (hfree d hd)
        rw [hname] at hstop hprimitive
        have honly : procs.find? (·.name.name == name.name) = some d := by
          cases hfound : procs.find? (·.name.name == name.name) with
          | none => simpa [hname] using List.find?_eq_none.mp hfound d hd
          | some d' =>
              have hname' : d'.name.name = name.name := by simpa using List.find?_some hfound
              rw [List.inj_on_of_nodup_map hdistinct (List.mem_of_find?_eq_some hfound) hd
                (hname'.trans hname.symm)]
        simp [slots?, hstop, hprimitive, honly]

lemma everyCallProblem_eq_nil_iff (program : List Statement) :
    everyCallProblem program = [] ↔
      ∀ name args, .call name args ∈ partsOf program →
        callProblems (standing program) name args = [] := by
  rw [everyCallProblem, List.flatMap_eq_nil_iff]
  constructor
  · intro h name args hcall
    exact h _ hcall
  · intro h s hs
    cases s with
    | call name args => exact h name args hs
    | _ => rfl

/-- Nothing is found wrong with a program exactly if it is correct. -/
lemma problemsOf_eq_nil_iff_correct (program : List Statement) :
    problemsOf program = [] ↔ Correct program := by
  rw [problemsOf_eq_nil_iff, everyCallProblem_eq_nil_iff]
  constructor
  · rintro ⟨hdefinitions, hcalls⟩
    obtain ⟨hfree, hdistinct⟩ := (definitionProblems_eq_nil_iff program).mp hdefinitions
    rw [standing_of_no_problems hdefinitions] at hcalls
    exact ⟨fun d hd => isBuiltIn_eq_false_iff.mp (hfree d hd), hdistinct, fun name args hcall =>
      (callProblems_eq_nil_iff_rightCall hfree hdistinct).mp (hcalls name args hcall)⟩
  · rintro ⟨hfree, hdistinct, hcalls⟩
    have hfree' := fun d hd => isBuiltIn_eq_false_iff.mpr (hfree d hd)
    have hdefinitions := (definitionProblems_eq_nil_iff program).mpr ⟨hfree', hdistinct⟩
    rw [standing_of_no_problems hdefinitions]
    exact ⟨hdefinitions, fun name args hcall =>
      (callProblems_eq_nil_iff_rightCall hfree' hdistinct).mpr (hcalls name args hcall)⟩

/-- The compiler accepts exactly the sources that can be read as a correct program. -/
theorem compiles_iff_correct (source : String) :
    (∃ p, compile source = .ok p) ↔ ∃ program, parse source = .ok program ∧ Correct program := by
  cases hparse : parse source with
  | error problem => simp [compile, hparse]
  | ok program =>
      have hcorrect := problemsOf_eq_nil_iff_correct program
      rw [compile_of_parse hparse]
      split
      · next hproblems =>
          rw [List.isEmpty_iff] at hproblems
          simp [hcorrect.mp hproblems]
      · next hproblems =>
          rw [List.isEmpty_iff, hcorrect] at hproblems
          simp [hproblems]

end LogoStudio.Logo
