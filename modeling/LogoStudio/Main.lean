import LogoStudio.CommandLine.Program
import LogoStudio.Raster.Png

/-!
# The command line

The program with a disk, the standard streams and a monotonic clock.
-/
namespace LogoStudio

open CommandLine Schedule

/-- The result of an action, if it does not fail. -/
def attempt (action : IO α) : IO (Option α) :=
  try return some (← action) catch _ => return none

/-- Move a session on with the readings of the monotonic clock until it is over. -/
partial def driveToEnd (limits : Limits) (session : Session Logo.Machine) :
    IO (Session Logo.Machine) := do
  if session.isFinished then return session
  let now ← IO.monoNanosNow
  driveToEnd limits (session.advance Logo.interpreter limits now)

def savePng (path : String) (raster : Raster) : IO Bool := do
  return (← attempt (IO.FS.writeBinFile path (Png.encode raster))).isSome

/-- The world of a process. -/
def process : Host IO where
  read path := attempt (IO.FS.readFile path)
  print line := IO.println line
  save := savePng
  drive := driveToEnd
  lastInstant := (Nat.pow 2 63 - 1) * second

end LogoStudio

open LogoStudio CommandLine in
/-- Run a command line; the result is its exit code. -/
def main (words : List String) : IO UInt32 := do
  match parse words with
  | .error e =>
      IO.eprintln ("error: " ++ e.message)
      return 2
  | .ok .help =>
      IO.println helpText
      return 0
  | .ok (.run arguments) =>
      match ← (process.run arguments).run with
      | .ok _ => return 0
      | .error failure =>
          IO.eprintln ("Error: " ++ failure.message)
          return 1
