import LogoStudio.Number.Reader

/-!
# Arguments

The words of a command line: the file to run, and options that start with two dashes. The
value of an option follows it as the next word or after an equals sign. A value that starts
with a dash has to follow an equals sign, and the word `--` ends the options. Only
`--input` may be repeated.
-/
namespace LogoStudio.CommandLine

structure Arguments where
  file : String
  timeout : Option Float
  inputs : List String
  config : Option String
  /-- Print the records of the events instead of their text. -/
  events : Bool
  width : Nat
  height : Nat
  turtlePng : Option String
  canvasPng : Option String

/-- Why a list of words is no command line. -/
inductive UsageError where
  | noFile
  | unexpected (word : String)
  | repeated (option : String)
  | noValue (option : String)
  | badValue (option value : String)

def UsageError.message : UsageError → String
  | .noFile => "no file was given"
  | .unexpected word => "unexpected argument '" ++ word ++ "'"
  | .repeated option => "the option '" ++ option ++ "' was given twice"
  | .noValue option => "the option '" ++ option ++ "' needs a value"
  | .badValue option value => "invalid value '" ++ value ++ "' for '" ++ option ++ "'"

/-- A list of words asks for help or for a run. -/
inductive Request where
  | help
  | run (arguments : Arguments)

/-- The options that take a value. -/
inductive Setting where
  | timeout
  | input
  | config
  | width
  | height
  | turtlePng
  | canvasPng

/-- All options. -/
inductive Switch where
  | help
  | events
  | setting (s : Setting)

/-- The option with a name. Names are not abbreviated. -/
def Switch.ofName? : List Char → Option Switch :=
  fun name => match String.ofList name with
  | "help" => some .help
  | "events" => some .events
  | "timeout" => some (.setting .timeout)
  | "input" => some (.setting .input)
  | "config" => some (.setting .config)
  | "width" => some (.setting .width)
  | "height" => some (.setting .height)
  | "turtle-png" => some (.setting .turtlePng)
  | "canvas-png" => some (.setting .canvasPng)
  | _ => none

/-- A size in pixels: a whole number below `2 ^ 32`, perhaps with a sign. -/
def readSize? (text : String) : Option Nat :=
  let (negative, digits) := Number.splitSign text.toList
  if digits.isEmpty || !digits.all Char.isDigit then none
  else
    let n := Number.digitsValue digits
    if (negative && 0 < n) || Nat.pow 2 32 ≤ n then none else some n

/-- A path must not be empty. -/
def readPath? (text : String) : Option String := if text.isEmpty then none else some text

/-- What has been read of a command line. -/
structure Draft where
  file : Option String
  timeout : Option Float
  inputs : List String
  config : Option String
  events : Bool
  width : Option Nat
  height : Option Nat
  turtlePng : Option String
  canvasPng : Option String

namespace Draft

def empty : Draft := ⟨none, none, [], none, false, none, none, none, none⟩

/-- A value for an option that may be given once. -/
def once (old : Option α) (option value : String) (new : Option α) : Except UsageError (Option α) :=
  match old, new with
  | _, none => .error (.badValue option value)
  | some _, some _ => .error (.repeated option)
  | none, some x => .ok (some x)

/-- The draft with the value of an option, which is spelt `option`. -/
def set (d : Draft) (option value : String) : Setting → Except UsageError Draft
  | .timeout => do return { d with timeout := ← once d.timeout option value (Number.read? value) }
  | .input => .ok { d with inputs := d.inputs ++ [value] }
  | .config => do return { d with config := ← once d.config option value (readPath? value) }
  | .width => do return { d with width := ← once d.width option value (readSize? value) }
  | .height => do return { d with height := ← once d.height option value (readSize? value) }
  | .turtlePng => do
      return { d with turtlePng := ← once d.turtlePng option value (readPath? value) }
  | .canvasPng => do
      return { d with canvasPng := ← once d.canvasPng option value (readPath? value) }

/-- The draft with the file to run. -/
def setFile (d : Draft) (word : String) : Except UsageError Draft :=
  match d.file, readPath? word with
  | some _, _ => .error (.unexpected word)
  | none, none => .error .noFile
  | none, some file => .ok { d with file := some file }

/-- The arguments, once all words are read. -/
def finish (d : Draft) : Except UsageError Request :=
  match d.file with
  | none => .error .noFile
  | some file =>
      .ok (.run ⟨file, d.timeout, d.inputs, d.config, d.events, d.width.getD 800,
        d.height.getD 600, d.turtlePng, d.canvasPng⟩)

end Draft

/-- A word as it looks: an option with what follows its first equals sign, a word of
one-letter options, or a plain word. -/
inductive Word where
  | long (name : List Char) (attached : Option (List Char))
  | short (first : Char)
  | plain

/-- Split the name of an option from what follows the first equals sign. -/
def splitValue (text : List Char) : List Char × Option (List Char) :=
  match text.span (· != '=') with
  | (name, _ :: value) => (name, some value)
  | (name, []) => (name, none)

/-- How a word looks. A single dash is a plain word. -/
def Word.ofText (text : String) : Word :=
  match text.toList with
  | '-' :: '-' :: rest =>
      let (name, attached) := splitValue rest
      .long name attached
  | '-' :: first :: _ => .short first
  | _ => .plain

def canBeValue (text : String) : Bool :=
  match Word.ofText text with
  | .plain => true
  | _ => false

def readPlain (d : Draft) : List String → Except UsageError Request
  | [] => d.finish
  | word :: rest => do readPlain (← d.setFile word) rest

/-- Read words from left to right. A request for help is granted at once. -/
def readWords (d : Draft) : List String → Except UsageError Request
  | [] => d.finish
  | word :: rest =>
      if word = "--" then readPlain d rest
      else match Word.ofText word with
        | .plain => do readWords (← d.setFile word) rest
        | .short first => if first = 'h' then .ok .help else .error (.unexpected word)
        | .long name attached =>
            match Switch.ofName? name, attached with
            | none, _ => .error (.unexpected word)
            | some .help, none => .ok .help
            | some .help, some _ => .error (.unexpected word)
            | some .events, none =>
                if d.events then .error (.repeated word)
                else readWords { d with events := true } rest
            | some .events, some _ => .error (.unexpected word)
            | some (.setting s), some value => do
                readWords (← d.set ("--" ++ String.ofList name) (String.ofList value) s) rest
            | some (.setting s), none =>
                match rest with
                | [] => .error (.noValue word)
                | value :: rest =>
                    if canBeValue value then do readWords (← d.set word value s) rest
                    else .error (.noValue word)

def parse (words : List String) : Except UsageError Request := readWords .empty words

end LogoStudio.CommandLine
