import LogoStudio.Number.Style
import LogoStudio.Text.Quoted

/-!
# Problems and faults

A problem is found before a program runs and knows its line. A fault stops a running
program; the machine that meets it adds the line.
-/
namespace LogoStudio.Logo

/-- Something wrong with the text of a program. -/
inductive Problem where
  | notUnderstood (line : Nat) (near : String)
  | tooDeep (line : Nat)
  | unknownProcedure (line : Nat) (name : String)
  | wrongInputs (line : Nat) (name : String) (expected found : Nat)
  | badInput (line : Nat) (name arg : String)
  | redefined (line : Nat) (name : String)
  | primitive (line : Nat) (name : String)
  deriving DecidableEq

namespace Problem

/-- The line that a problem is reported for. -/
def line : Problem → Nat
  | notUnderstood line _ => line
  | tooDeep line => line
  | unknownProcedure line _ => line
  | wrongInputs line _ _ _ => line
  | badInput line _ _ => line
  | redefined line _ => line
  | primitive line _ => line

/-- The line as it is reported, a number of 32 bits; problems are sorted by it. -/
def reportedLine (p : Problem) : UInt32 := UInt32.ofNat p.line

def message : Problem → String
  | notUnderstood _ near => "I don't understand " ++ Text.quoted near
  | tooDeep _ => "too deeply nested"
  | unknownProcedure _ name => "I don't know how to " ++ name
  | wrongInputs _ name expected found =>
      "wrong number of inputs to " ++ name ++ " (expected " ++ Number.digitText expected ++
        ", found " ++ Number.digitText found ++ ")"
  | badInput _ name arg => name ++ " doesn't like " ++ arg ++ " as input"
  | redefined _ name => name ++ " is already defined"
  | primitive _ name => name ++ " is a primitive, it can't be redefined"

end Problem

/-- Something that stops a running program. -/
inductive Fault where
  | unknownVariable (name : String)
  | divisionByZero
  | overflow
  | badRepeatCount (count : Float)
  | badInput (name arg : String)
  | wrongInputs (name : String) (found : Nat)
  | tooManyCalls (limit : Nat)
  | noInput (query : String)
  | unexpectedInput (query expected found : String)
  | noCanvas
  /-- Raised by the program itself. -/
  | user (text : String)

def Fault.message : Fault → String
  | unknownVariable name => name ++ " has no value"
  | divisionByZero => "division by zero"
  | overflow => "number too big"
  | badRepeatCount count => "repeat doesn't like " ++ Number.plainText count ++ " as input"
  | badInput name arg => name ++ " doesn't like " ++ arg ++ " as input"
  | wrongInputs name found =>
      "wrong number of inputs to " ++ name ++ " (found " ++ Number.digitText found ++ ")"
  | tooManyCalls limit =>
      "too many nested procedure calls (the limit is " ++ Number.digitText limit ++ ")"
  | noInput query => query ++ " has nothing left to read"
  | unexpectedInput query expected found =>
      query ++ " expected " ++ expected ++ ", not " ++ found
  | noCanvas => "there is no canvas to measure"
  | user text => text

end LogoStudio.Logo
