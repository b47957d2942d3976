import LogoStudio.Logo.Parser
import LogoStudio.Logo.Problem
import LogoStudio.Logo.Tree
import LogoStudio.Number.Reader
import LogoStudio.Text.Blank
import LogoStudio.Text.Lines

/-!
# The grammar of LOGO

Parentheses, minus signs, blocks and definitions nest at most 32 deep, and a chain of
operators of one rank has at most 64 operands. The two limits are also what the recursion
runs on: an operand is read with the levels that are left below it, and a chain with the
operands that are left. A text over a limit is refused as such, while any other text that
is no program is refused at the first statement that cannot be read.
-/
namespace LogoStudio.Logo

open LogoStudio.Logo.Parser

/-- How deeply parentheses, negations and blocks may nest. -/
def maxNesting : Nat := 32

/-- How many operands one chain of operators may have. -/
def maxOperands : Nat := 64

/-- Words that name no procedure and no variable. -/
def reserved : List String :=
  ["to", "end", "if", "repeat", "make", "prompt", "confirm", "canvaswidth", "canvasheight"]

/-- A name: a letter, then letters and digits. -/
def ident : Parser Ident := fun s =>
  match s.rest with
  | c :: rest =>
      let (tail, rest) := rest.span Char.isAlphanum
      let name := String.ofList (c :: tail)
      if c.isAlpha && !reserved.contains name then .done ⟨name, s.line⟩ ⟨rest, s.line⟩ else .miss
  | [] => .miss

/-- A name after a colon. -/
def variableName : Parser Ident := do
  char ':'
  ident

/-- The value of a literal with the digits of its fraction. -/
def literal (whole fraction : List Char) : Float :=
  Number.ofDecimal false (Number.digitsValue (whole ++ fraction)) (-(fraction.length : Int))

/-- The fraction of a literal: perhaps a point, perhaps digits. -/
def fraction : Parser (List Char) :=
  orElse (do char '.'; run Char.isDigit) (pure [])

/-- A number without a sign. -/
def number : Parser Float :=
  orElse
    (do
      let whole ← run1 Char.isDigit
      return literal whole (← fraction))
    (do
      char '.'
      return literal [] (← run1 Char.isDigit))

/-- A value from outside the program. -/
def query : Parser Query :=
  choice ([.prompt, .confirm, .canvasWidth, .canvasHeight].map fun (q : Query) => do
    keyword q.name
    return q)

/-- One of several signs between blanks. -/
def sign (signs : List (Char × α)) : Parser α :=
  choice (signs.map fun (c, value) => padded do
    char c
    return value)

def productSign : Parser Operator := sign [('*', .mul), ('/', .div)]

def sumSign : Parser Operator := sign [('+', .add), ('-', .sub)]

def comparison : Parser Comparison :=
  padded (choice [do char '='; return .equal, do char '<'; return .less,
    do char '>'; return .greater])

/-- The rest of a chain after its first operands, with room for `left` more. A sign without
an operand after it is not part of the chain. -/
def chainTail (op : Parser Operator) (operand : Parser NumExpr) :
    Nat → NumExpr → Parser NumExpr
  | left, lhs => fun s =>
      match op s with
      | .miss => .done lhs s
      | .tooDeep line => .tooDeep line
      | .done o next =>
          match operand next with
          | .miss => .done lhs s
          | .tooDeep line => .tooDeep line
          | .done rhs last =>
              match left with
              | 0 => .tooDeep s.line
              | left + 1 => chainTail op operand left (.op lhs o rhs) last

/-- A chain of operands, grouped from the left. -/
def chain (op : Parser Operator) (operand : Parser NumExpr) : Parser NumExpr := do
  chainTail op operand (maxOperands - 1) (← operand)

/-- A sum of products of operands. -/
def sum (operand : Parser NumExpr) : Parser NumExpr := chain sumSign (chain productSign operand)

/-- An operand with `room` levels for itself and what it holds. -/
def operand : Nat → Parser NumExpr
  | 0 => tooDeep
  | room + 1 => padded (choice [
      do
        char '('
        let e ← sum (operand room)
        char ')'
        return e,
      do return .lit (← number),
      do return .var (← variableName),
      do
        char '-'
        return .neg (← operand room),
      do return .query (← query)])

/-- A comparison of two expressions. -/
def condition (expr : Parser NumExpr) : Parser Condition := do
  return ⟨← expr, ← comparison, ← expr⟩

/-- A quoted word: it ends at a blank or a bracket. -/
def word : Parser Ident := do
  char '"'
  let line ← line
  let text ← run1 fun c => !(Text.isBlank c || c == '[' || c == ']')
  return ⟨String.ofList text, line⟩

def arg (expr : Parser NumExpr) : Parser Arg :=
  orElse (do return .word (← padded word)) (do return .num (← expr))

/-- A block in brackets. Without a parser for its statements it is too deep. -/
def block (inner : Option (Parser (List Statement))) : Parser (List Statement) := do
  padded (char '[')
  match inner with
  | none => tooDeep
  | some statements =>
      let body ← statements
      padded (char ']')
      return body

/-- A procedure definition. Without a parser for its statements it is too deep. -/
def definition (inner : Option (Parser (List Statement))) : Parser Statement := do
  keyword "to"
  match inner with
  | none => tooDeep
  | some statements =>
      let name ← padded ident
      let params ← many (padded variableName)
      let body ← statements
      let endLine ← line
      keyword "end"
      return .define name params body endLine

/-- A statement, given parsers for its expressions and for the statements inside it. -/
def statementWith (expr : Parser NumExpr) (inner : Option (Parser (List Statement))) :
    Parser Statement :=
  padded (choice [
    do
      let line ← line
      keyword "if"
      return .branch line (← condition expr) (← block inner),
    do
      let line ← line
      keyword "repeat"
      return .loop line (← expr) (← block inner),
    do
      keyword "make"
      let name ← padded do
        char '"'
        ident
      return .make name (← expr),
    definition inner,
    do
      let name ← padded ident
      return .call name (← many (arg expr))])

/-- A statement with `levels` levels of blocks below it. -/
def statement : Nat → Parser Statement
  | 0 => statementWith (sum (operand 1)) none
  | levels + 1 => statementWith (sum (operand (levels + 2))) (some (many (statement levels)))

def statements : Parser (List Statement) := padded (many (statement maxNesting))

/-- The start of the line on which a text starts, for messages. -/
def snippet (text : List Char) : String :=
  let line := Text.trim ((Text.lines text).headD [])
  if line.length ≤ 24 then String.ofList line else String.ofList (line.take 24 ++ "...".toList)

def parse (source : String) : Except Problem (List Statement) :=
  match statements ⟨source.toList, 1⟩ with
  | .done program ⟨[], _⟩ => .ok program
  | .done _ ⟨rest, line⟩ => .error (.notUnderstood line (snippet rest))
  | .miss => .error (.notUnderstood 1 (snippet source.toList))
  | .tooDeep line => .error (.tooDeep line)

end LogoStudio.Logo
