import LogoStudio.Logo.Primitive
import LogoStudio.Logo.Problem
import LogoStudio.Logo.Tree

/-!
# Static checks

Procedure definitions count wherever they stand, also inside blocks and other
definitions, and can be called from everywhere. A definition is refused if it takes the
name of a primitive or of an earlier definition. Every call in the main program and in the
accepted definitions is checked against the slots of what it calls.
-/
namespace LogoStudio.Logo

/-- A procedure definition on its own. -/
structure Definition where
  name : Ident
  params : List Ident
  body : List Statement
  endLine : Nat

/-- The word that leaves a procedure. It is no primitive, but cannot be redefined. -/
def stopName : String := "stop"

mutual
/-- The definitions in a statement, outer ones first. -/
def Statement.definitions : Statement → List Definition
  | .define name params body endLine => ⟨name, params, body, endLine⟩ :: definitionsIn body
  | .branch _ _ body => definitionsIn body
  | .loop _ _ body => definitionsIn body
  | .call .. => []
  | .make .. => []
termination_by structural s => s

/-- The definitions in a list of statements, in order. -/
def definitionsIn : List Statement → List Definition
  | [] => []
  | s :: rest => s.definitions ++ definitionsIn rest
termination_by structural l => l
end

/-- Whether a name is taken before any definition. -/
def isBuiltIn (name : String) : Bool := name == stopName || (Primitive.ofName? name).isSome

/-- The definitions that are accepted, and the problems of the others. `taken` holds the
names accepted so far. -/
def declare (taken : List String) : List Definition → List Definition × List Problem
  | [] => ([], [])
  | d :: rest =>
      let name := d.name.name
      if isBuiltIn name then
        let (accepted, problems) := declare taken rest
        (accepted, .primitive d.name.line name :: problems)
      else if taken.contains name then
        let (accepted, problems) := declare taken rest
        (accepted, .redefined d.name.line name :: problems)
      else
        let (accepted, problems) := declare (name :: taken) rest
        (d :: accepted, problems)

def accepted (program : List Statement) : List Definition :=
  (declare [] (definitionsIn program)).1

/-- The slots of what a name calls. The parameters of a procedure all take numbers. -/
def slots? (procs : List Definition) (name : String) : Option (List Slot) :=
  if name = stopName then some []
  else match Primitive.ofName? name with
    | some p => some p.slots
    | none =>
        (procs.find? (·.name.name == name)).map fun d => List.replicate d.params.length .num

/-- What is shown of a number where a word is wanted. -/
def NumExpr.shown : NumExpr → String
  | .lit x => Number.plainText x
  | _ => "a number"

/-- The problem of an input in a slot, if it does not fit. -/
def inputProblem? (name : Ident) : Arg × Slot → Option Problem
  | (.word w, .num) => some (.badInput name.line name.name ("\"" ++ w.name))
  | (.num e, .word) => some (.badInput name.line name.name e.shown)
  | _ => none

def callProblems (procs : List Definition) (name : Ident) (args : List Arg) : List Problem :=
  match slots? procs name.name with
  | none => [.unknownProcedure name.line name.name]
  | some slots =>
      if args.length = slots.length then (args.zip slots).filterMap (inputProblem? name)
      else [.wrongInputs name.line name.name slots.length args.length]

mutual
/-- The problems of the calls in a statement. Definitions are looked at on their own. -/
def Statement.callProblems (procs : List Definition) : Statement → List Problem
  | .call name args => Logo.callProblems procs name args
  | .branch _ _ body => callProblemsIn procs body
  | .loop _ _ body => callProblemsIn procs body
  | .define .. => []
  | .make .. => []
termination_by structural s => s

def callProblemsIn (procs : List Definition) : List Statement → List Problem
  | [] => []
  | s :: rest => s.callProblems procs ++ callProblemsIn procs rest
termination_by structural l => l
end

/-- All the problems of a program: those of its definitions, of its main part and of the
bodies of the accepted definitions. -/
def problemsOf (program : List Statement) : List Problem :=
  let procs := accepted program
  (declare [] (definitionsIn program)).2 ++ callProblemsIn procs program ++
    procs.flatMap fun d => callProblemsIn procs d.body

end LogoStudio.Logo
