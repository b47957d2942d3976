import LogoStudio.Logo.Check
import LogoStudio.Logo.Code
import LogoStudio.Logo.Grammar

/-!
# Compilation

The code of a statement depends on the place where it starts, because jumps name their
targets by place. Since the code of a body is known before the jump around it is written,
every target is computed from lengths and nothing is patched afterwards.
-/
namespace LogoStudio.Logo

/-- Code with the source line of each instruction. -/
abbrev Listing := List (Instr × Nat)

def Arg.lower : Arg → Actual
  | .num e => .num e.lower
  | .word w => .word w.name

/-- The expression of a numeric input. -/
def Arg.expr? : Arg → Option Expr
  | .num e => some e.lower
  | .word _ => none

/-- The instruction of a call. A call of something unknown has none. -/
def callCode? (procs : List Definition) (name : Ident) (args : List Arg) : Option Instr :=
  if name.name = stopName then some .ret
  else match Primitive.ofName? name.name with
    | some p => some (.primitive p (args.map Arg.lower))
    | none =>
        (procs.findIdx? (·.name.name == name.name)).map fun i => .call i (args.filterMap Arg.expr?)

def Condition.lower (c : Condition) : Cond := ⟨c.lhs.lower, c.comparison, c.rhs.lower⟩

mutual
/-- The code of a statement that starts at the place `base`. -/
def Statement.code (procs : List Definition) (base : Nat) : Statement → Listing
  | .define .. => []
  | .call name args => ((callCode? procs name args).map fun i => (i, name.line)).toList
  | .make name value => [(.make name.name value.lower, name.line)]
  | .branch line cond body =>
      let inner := codeOf procs (base + 1) body
      (.jumpUnless cond.lower (base + 1 + inner.length), line) :: inner
  | .loop line count body =>
      let inner := codeOf procs (base + 1) body
      (.loopStart count.lower (base + 2 + inner.length), line) :: inner ++
        [(.loopNext (base + 1), line)]
termination_by structural s => s

/-- The code of a list of statements that starts at the place `base`. -/
def codeOf (procs : List Definition) (base : Nat) : List Statement → Listing
  | [] => []
  | s :: rest =>
      let first := s.code procs base
      first ++ codeOf procs (base + first.length) rest
termination_by structural l => l
end

/-- The code of a procedure that starts at the place `base`. -/
def Definition.code (procs : List Definition) (base : Nat) (d : Definition) : Listing :=
  codeOf procs base d.body ++ [(.ret, d.endLine)]

/-- The code of several procedures one after the other, and what is known of each. -/
def procedures (procs : List Definition) (base : Nat) :
    List Definition → Listing × List Procedure
  | [] => ([], [])
  | d :: rest =>
      let code := d.code procs base
      let (tail, table) := procedures procs (base + code.length) rest
      (code ++ tail, ⟨d.name.name, d.params.map Ident.name, base⟩ :: table)

/-- The compiled form of a program without problems, whose source has `lastLine` lines. -/
def assemble (lastLine : Nat) (program : List Statement) : Program :=
  let procs := accepted program
  let main := codeOf procs 0 program ++ [(.halt, lastLine)]
  let (rest, table) := procedures procs main.length procs
  let listing := main ++ rest
  ⟨(listing.map Prod.fst).toArray, (listing.map Prod.snd).toArray, table.toArray⟩

/-- The number of lines of a source, at least one. -/
def lineCount (source : String) : Nat := max (Text.lines source.toList).length 1

/-- Compile a program, or report all its problems by line. -/
def compile (source : String) : Except (List Problem) Program :=
  match parse source with
  | .error p => .error [p]
  | .ok program =>
      let problems := problemsOf program
      if problems.isEmpty then .ok (assemble (lineCount source) program)
      else .error (problems.mergeSort fun p q => p.reportedLine ≤ q.reportedLine)

end LogoStudio.Logo
