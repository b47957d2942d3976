import LogoStudio.Logo.Grammar
import Mathlib.Tactic.Common

/-!
# Written programs

A syntax tree is written as a list of tokens, with parentheses only where the ranks of the
operators ask for them, and the tokens are set apart by blanks and comments in any layout.
The limits of the grammar are stated here on the tree alone: how deep its expressions and
bodies lie, and how many operands its chains have.
-/
namespace LogoStudio.Logo

open LogoStudio.Logo.Parser

/-- A piece of a program in which no blank may stand. -/
inductive Token where
  | sign (c : Char)
  /-- A reserved word, with its line where the tree keeps it. -/
  | keyword (word : String) (line : Option Nat)
  | name (v : Ident)
  /-- A name after a colon. -/
  | reference (v : Ident)
  /-- A name after a quote, to which a value is assigned. -/
  | target (v : Ident)
  /-- A word after a quote. -/
  | quoted (w : Ident)
  | number (x : Float)

def signs : List Char := ['(', ')', '[', ']', '+', '-', '*', '/', '=', '<', '>']

/-- A letter, then letters and digits. -/
def isPlain : List Char → Bool
  | c :: tail => c.isAlpha && tail.all Char.isAlphanum
  | [] => false

/-- A letter, then letters and digits, and not reserved. -/
def isName (word : String) : Bool := isPlain word.toList && !reserved.contains word

/-- Whether a character may stand in a quoted word. -/
def isWordChar (c : Char) : Bool := !(Text.isBlank c || c == '[' || c == ']')

/-- Some characters, none of them a blank or a bracket. -/
def isWord (word : String) : Bool := !word.toList.isEmpty && word.toList.all isWordChar

/-- Digits, perhaps with a point before, between or after them. -/
inductive IsNumeral : List Char → Prop
  | whole {digits : List Char} (h : digits ≠ []) (hdigits : digits.all Char.isDigit) :
      IsNumeral digits
  | pointed {digits fraction : List Char} (h : digits ≠ []) (hdigits : digits.all Char.isDigit)
      (hfraction : fraction.all Char.isDigit) : IsNumeral (digits ++ '.' :: fraction)
  | fraction {digits : List Char} (h : digits ≠ []) (hdigits : digits.all Char.isDigit) :
      IsNumeral ('.' :: digits)

namespace Token

/-- How a token may be spelt. Only a number has several spellings. -/
def Spells : Token → List Char → Prop
  | sign c, text => c ∈ signs ∧ text = [c]
  | keyword word _, text => word ∈ reserved ∧ text = word.toList
  | name v, text => isName v.name ∧ text = v.name.toList
  | reference v, text => isName v.name ∧ text = ':' :: v.name.toList
  | target v, text => isName v.name ∧ text = '"' :: v.name.toList
  | quoted w, text => isWord w.name ∧ text = '"' :: w.name.toList
  | number x, text => IsNumeral text ∧ Number.read? (String.ofList text) = some x

/-- The line that the tree keeps for a token. -/
def line? : Token → Option Nat
  | keyword _ line => line
  | name v | reference v | target v | quoted v => some v.line
  | sign _ | number _ => none

end Token

/-- Blanks and comments. A comment runs to the end of its line and holds no carriage
return. -/
inductive Blank : List Char → Prop
  | nil : Blank []
  | space {c : Char} {rest : List Char} (hc : isSpace c) (h : Blank rest) : Blank (c :: rest)
  | comment {body rest : List Char} (hbody : body.all fun c => c != '\r' && c != '\n')
      (h : Blank rest) : Blank (';' :: (body ++ '\n' :: rest))

/-- Blank text that may stand between two tokens. -/
def Separates (gap : List Char) : Prop := Blank gap ∧ ∃ c ∈ gap.head?, isSpace c

mutual

/-- A text whose first character is on line `line` spells the tokens, the first one at
once. -/
inductive Spelled : Nat → List Token → List Char → Prop
  | nil {line : Nat} : Spelled line [] []
  | cons {line : Nat} {token : Token} {tokens : List Token} {spelling rest : List Char}
      (hline : ∀ l ∈ token.line?, l = line) (hspells : token.Spells spelling)
      (hrest : Continued line tokens rest) : Spelled line (token :: tokens) (spelling ++ rest)

/-- A text that follows a token spells the tokens: it is at its end, or blanks come
first. -/
inductive Continued : Nat → List Token → List Char → Prop
  | nil {line : Nat} : Continued line [] []
  | gap {line : Nat} {tokens : List Token} {gap rest : List Char} (hgap : Separates gap)
      (hrest : Spelled (line + gap.count '\n') tokens rest) : Continued line tokens (gap ++ rest)

end

/-- What an expression stands for in a larger one. -/
inductive Level where
  | sum
  | product
  | operand
  deriving DecidableEq

namespace Level

/-- The level of the operands to the right of an operator. -/
def next : Level → Level
  | sum => product
  | product | operand => operand

end Level

/-- The level on which an operator makes chains. -/
def Operator.level : Operator → Level
  | .add | .sub => .sum
  | .mul | .div => .product

def Operator.sign : Operator → Char
  | .add => '+'
  | .sub => '-'
  | .mul => '*'
  | .div => '/'

def Comparison.sign : Comparison → Char
  | .equal => '='
  | .less => '<'
  | .greater => '>'

/-- Whether an operator needs parentheses around it on a level. -/
def Level.encloses : Level → Operator → Bool
  | .sum, _ => false
  | .product, o => o.level == .sum
  | .operand, _ => true

/-- Tokens in parentheses, if they are needed. -/
def enclosed (needed : Bool) (tokens : List Token) : List Token :=
  if needed then .sign '(' :: tokens ++ [.sign ')'] else tokens

namespace NumExpr

def tokens : Level → NumExpr → List Token
  | _, lit x => [.number x]
  | _, var v => [.reference v]
  | _, neg e => .sign '-' :: e.tokens .operand
  | level, op l o r =>
      enclosed (level.encloses o) (l.tokens o.level ++ .sign o.sign :: r.tokens o.level.next)
  | _, query q => [.keyword q.name none]

/-- How many operands the chain of an expression has on a level. -/
def operands (level : Level) : NumExpr → Nat
  | op l o _ => if o.level = level then l.operands level + 1 else 1
  | _ => 1

/-- The expression lies within the limits, `depth` levels down. -/
def Allowed : Level → Nat → NumExpr → Prop
  | _, depth, neg e => e.Allowed .operand (depth + 1)
  | level, depth, op l o r =>
      let inside := depth + (level.encloses o).toNat
      (op l o r).operands o.level ≤ maxOperands ∧ l.Allowed o.level inside ∧
        r.Allowed o.level.next inside
  | _, depth, _ => depth ≤ maxNesting

end NumExpr

/-- Tokens that start with a minus sign. -/
def startsNegative : List Token → Bool
  | .sign '-' :: _ => true
  | _ => false

namespace Arg

def tokens : Arg → List Token
  | num e => e.tokens .sum
  | word w => [.quoted w]

/-- Whether parentheses are needed around an input after another one, which would take a
minus sign for its own. -/
def isNegative (a : Arg) : Bool := startsNegative a.tokens

def Allowed (depth : Nat) : Arg → Prop
  | num e => e.Allowed .sum depth
  | word _ => True

end Arg

/-- The tokens of inputs that other inputs come before. -/
def laterTokens : List Arg → List Token
  | [] => []
  | a :: rest => enclosed a.isNegative a.tokens ++ laterTokens rest

def inputTokens : List Arg → List Token
  | [] => []
  | a :: rest => a.tokens ++ laterTokens rest

def LaterAllowed (depth : Nat) : List Arg → Prop
  | [] => True
  | a :: rest => a.Allowed (depth + a.isNegative.toNat) ∧ LaterAllowed depth rest

def InputsAllowed (depth : Nat) : List Arg → Prop
  | [] => True
  | a :: rest => a.Allowed depth ∧ LaterAllowed depth rest

mutual

def Statement.tokens : Statement → List Token
  | .define name params body endLine =>
      .keyword "to" none :: .name name :: params.map .reference ++ tokensIn body ++
        [.keyword "end" (some endLine)]
  | .call name args => .name name :: inputTokens args
  | .branch line cond body =>
      .keyword "if" (some line) :: cond.lhs.tokens .sum ++
        .sign cond.comparison.sign :: cond.rhs.tokens .sum ++
        .sign '[' :: tokensIn body ++ [.sign ']']
  | .loop line count body =>
      .keyword "repeat" (some line) :: count.tokens .sum ++ .sign '[' :: tokensIn body ++
        [.sign ']']
  | .make name value => .keyword "make" none :: .target name :: value.tokens .sum

def tokensIn : List Statement → List Token
  | [] => []
  | s :: rest => s.tokens ++ tokensIn rest

end

mutual

/-- A statement `depth` bodies down lies within the limits. -/
def Statement.Allowed (depth : Nat) : Statement → Prop
  | .define _ _ body _ => depth < maxNesting ∧ AllowedIn (depth + 1) body
  | .call _ args => InputsAllowed depth args
  | .branch _ cond body =>
      cond.lhs.Allowed .sum depth ∧ cond.rhs.Allowed .sum depth ∧
        depth < maxNesting ∧ AllowedIn (depth + 1) body
  | .loop _ count body =>
      count.Allowed .sum depth ∧ depth < maxNesting ∧ AllowedIn (depth + 1) body
  | .make _ value => value.Allowed .sum depth

def AllowedIn (depth : Nat) : List Statement → Prop
  | [] => True
  | s :: rest => s.Allowed depth ∧ AllowedIn depth rest

end

/-- A source is a layout of a program. -/
def Written (program : List Statement) (source : String) : Prop :=
  ∃ gap text, source.toList = gap ++ text ∧ Blank gap ∧
    Spelled (1 + gap.count '\n') (tokensIn program) text

end LogoStudio.Logo
