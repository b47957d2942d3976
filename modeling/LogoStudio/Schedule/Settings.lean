import LogoStudio.Json.Writer
import LogoStudio.Schedule.Session

/-!
# Settings

The settings of a run as JSON: an object with the members `slice` and `default_timeout`,
either of which may be missing, or an array of the two in that order. A slice is an object
with the members `secs` and `nanos`, or an array of both. A member may not be repeated.
Members of the settings that are not known do not matter, and what they hold is held to
the grammar only.
-/
namespace LogoStudio.Schedule

open Json (Raw)

namespace Config

/-- The value that a part of a text spells. -/
def value? (raw : Raw) : Option Json := Json.ofRaw? Json.maxDepth raw

/-- The slice of whole seconds and nanoseconds. The nanoseconds may make up whole seconds,
as long as all the seconds fit in 64 bits. -/
def sliceOf? (secs nanos : Raw) : Option Nat := do
  let secs ← (← value? secs).asNat? (Nat.pow 2 64)
  let nanos ← (← value? nanos).asNat? (Nat.pow 2 32)
  if secs + nanos / second < Nat.pow 2 64 then some (secs * second + nanos) else none

/-- The members of an object with the text of their keys. -/
def named? (members : List (List Nat × Raw)) : Option (List (String × Raw)) :=
  members.mapM fun (key, value) => (Json.decodeText? key).map (·, value)

def slice? : Raw → Option Nat
  | .array [secs, nanos] => sliceOf? secs nanos
  | .object members =>
      match named? members with
      | some [("secs", secs), ("nanos", nanos)] => sliceOf? secs nanos
      | some [("nanos", nanos), ("secs", secs)] => sliceOf? secs nanos
      | _ => none
  | _ => none

/-- A limit in seconds. -/
def timeout? (raw : Raw) : Option Float := (value? raw).bind Json.asNumber?

/-- The value of a field that may be missing but not repeated. -/
def field? (default : α) (read? : Raw → Option α) : List Raw → Option α
  | [] => some default
  | [raw] => read? raw
  | _ => none

def valuesOf (key : String) (members : List (String × Raw)) : List Raw :=
  (members.filter (·.1 == key)).map (·.2)

/-- The settings with the given fields; those that are missing have their defaults. -/
def ofFields? (slice timeout : List Raw) : Option Config := do
  return ⟨← field? Config.default.slice slice? slice,
    ← field? Config.default.defaultTimeout timeout? timeout⟩

def read? (text : String) : Option Config :=
  match Raw.read? text.toList with
  | some (.array items) =>
      if items.length ≤ 2 then ofFields? (items.take 1) (items.drop 1) else none
  | some (.object members) => do
      let members ← named? members
      ofFields? (valuesOf "slice" members) (valuesOf "default_timeout" members)
  | _ => none

def sliceSeconds (c : Config) : Nat := c.slice / second

/-- The nanoseconds of a slice past its whole seconds. -/
def sliceNanoseconds (c : Config) : Nat := c.slice % second

def toJson (c : Config) : Json :=
  .object [("slice", .object [("secs", .integer c.sliceSeconds),
    ("nanos", .integer c.sliceNanoseconds)]), ("default_timeout", .float c.defaultTimeout)]

end Config

end LogoStudio.Schedule
