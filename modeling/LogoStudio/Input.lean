import LogoStudio.Json.Basic

/-!
# Inputs

What is handed to a program before it runs: answers to its confirmations and prompts, and
interactions of the user with a surface. As JSON a confirmation is a boolean, a prompt
answer a text, and an interaction an object with a `classname` and perhaps an `event`, or
an array of the two.
-/
namespace LogoStudio

/-- Something the user did to a surface. -/
structure Interaction where
  name : String
  event : Json

inductive Input where
  | confirm (answer : Bool)
  | prompt (answer : String)
  | interaction (i : Interaction)

/-- The kind of an interaction: its name after the first dot, or all of it. -/
def Interaction.kind (i : Interaction) : String :=
  match i.name.toList.dropWhile (· != '.') with
  | _ :: rest => String.ofList rest
  | [] => i.name

namespace Input

/-- The values of the members with a key. -/
def valuesOf (key : String) (members : List (String × Json)) : List Json :=
  (members.filter (·.1 == key)).map (·.2)

/-- An interaction with members that may stand in any order. Each of the two known ones
may stand once; others do not matter. -/
def interactionOfMembers? (members : List (String × Json)) : Option Interaction :=
  match valuesOf "classname" members, valuesOf "event" members with
  | [.text name], [] => some ⟨name, .null⟩
  | [.text name], [event] => some ⟨name, event.normal⟩
  | _, _ => none

def ofJson? : Json → Option Input
  | .bool answer => some (.confirm answer)
  | .text answer => some (.prompt answer)
  | .object members => (interactionOfMembers? members).map .interaction
  | .array [.text name] => some (.interaction ⟨name, .null⟩)
  | .array [.text name, event] => some (.interaction ⟨name, event.normal⟩)
  | _ => none

def toJson : Input → Json
  | .confirm answer => .bool answer
  | .prompt answer => .text answer
  | .interaction i => .object [("classname", .text i.name), ("event", i.event)]

def read? (text : String) : Option Input := (Json.parse? text).bind ofJson?

/-- An answer from the command line: a JSON boolean is a confirmation, a JSON interaction
is one, and every other text answers a prompt as it stands. -/
def ofArgument (text : String) : Input :=
  match read? text with
  | some (.confirm answer) => .confirm answer
  | some (.interaction i) => .interaction i
  | _ => .prompt text

end Input

end LogoStudio
