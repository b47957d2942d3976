import LogoStudio.Number.Style

/-!
# Time limits

Times are counted in nanoseconds. A limit is given in seconds as a number, and is rounded
to the nearest nanosecond, ties to even. A limit must not be negative, though it may be
a negative zero, and must be below `2 ^ 64` seconds.
-/
namespace LogoStudio.Schedule

def second : Nat := 1000000000

/-- The nanoseconds of a number of seconds, where it is a time limit. -/
def nanoseconds? (seconds : Float) : Option Nat :=
  match Number.decompose? seconds with
  | none => none
  | some e =>
      let num := e.significand * Nat.pow 2 e.exponent.toNat
      let den := Nat.pow 2 (-e.exponent).toNat
      if (e.negative && num != 0) || den * Nat.pow 2 64 ≤ num then none
      else some (Number.roundHalfEven (num * second) den)

/-- What is said about a number of seconds that is no time limit. -/
def badTimeoutMessage (seconds : Float) : String :=
  "invalid timeout " ++ Number.plainText seconds ++
    ": must be a finite, non-negative number of seconds"

end LogoStudio.Schedule
