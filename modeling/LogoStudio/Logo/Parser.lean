import LogoStudio.Text.Alphanumeric
import LogoStudio.Text.Lead

/-!
# Parsers

A parser reads from a cursor: the text that is left and the line it starts on. It reads a
value and moves on, or misses and leaves other readings open, or gives up for good because
something nests too deeply. A loop reads while its parser does not miss; every parser that
is looped over reads at least one character, so the text left bounds the turns.
-/
namespace LogoStudio.Logo

/-- A place in a program: the text from there on, and its line. -/
structure Cursor where
  rest : List Char
  line : Nat

/-- What a parser makes of a place. -/
inductive Outcome (α : Type) where
  | done (value : α) (next : Cursor)
  | miss
  | tooDeep (line : Nat)

/-- A way to read values of type `α`. -/
def Parser (α : Type) := Cursor → Outcome α

namespace Parser

/-- Read nothing. -/
protected def pure (value : α) : Parser α := fun s => .done value s

/-- Read with `p` and go on with what it read. -/
protected def bind (p : Parser α) (f : α → Parser β) : Parser β := fun s =>
  match p s with
  | .done value next => f value next
  | .miss => .miss
  | .tooDeep line => .tooDeep line

instance : Monad Parser where
  pure := Parser.pure
  bind := Parser.bind

/-- Read with `p`, or with `q` where `p` misses. -/
def orElse (p q : Parser α) : Parser α := fun s =>
  match p s with
  | .miss => q s
  | outcome => outcome

/-- Read with the first of several parsers that does not miss. -/
def choice : List (Parser α) → Parser α
  | [] => fun _ => .miss
  | p :: rest => orElse p (choice rest)

/-- Give up at this place. -/
def tooDeep : Parser α := fun s => .tooDeep s.line

/-- The line of this place. -/
def line : Parser Nat := fun s => .done s.line s

/-- Read at most `turns` times. -/
def manyUpTo (p : Parser α) : Nat → Parser (List α)
  | 0 => fun s => .done [] s
  | turns + 1 => fun s =>
      match p s with
      | .miss => .done [] s
      | .tooDeep line => .tooDeep line
      | .done value next =>
          match manyUpTo p turns next with
          | .done values last => .done (value :: values) last
          | .miss => .miss
          | .tooDeep line => .tooDeep line

/-- Read as often as `p` does not miss. -/
def many (p : Parser α) : Parser (List α) := fun s => manyUpTo p s.rest.length s

/-- The blanks between tokens. -/
def isSpace (c : Char) : Bool := c == ' ' || c == '\t' || c == '\r' || c == '\n'

/-- Whether the text after a comment sign is a comment: it runs to the end of its line,
and no carriage return may stand in it except right before the line feed. -/
def isComment (text : List Char) : Bool :=
  match text.dropWhile (fun c => c != '\r' && c != '\n') with
  | '\r' :: '\n' :: _ => true
  | '\r' :: _ => false
  | _ => true

/-- Skip blanks and comments; `inside` tells whether the text stands in a comment. -/
def skipFrom (inside : Bool) : List Char → Nat → Cursor
  | [], line => ⟨[], line⟩
  | c :: rest, line =>
      if c = '\n' then skipFrom false rest (line + 1)
      else if inside && c != '\r' then skipFrom true rest line
      else if isSpace c then skipFrom false rest line
      else if c = ';' && isComment rest then skipFrom true rest line
      else ⟨c :: rest, line⟩

/-- Skip blanks and comments. -/
def blanks : Parser Unit := fun s => .done () (skipFrom false s.rest s.line)

/-- Read with `p` between blanks. -/
def padded (p : Parser α) : Parser α := do
  blanks
  let value ← p
  blanks
  return value

/-- Read one given character other than a line feed. -/
def char (c : Char) : Parser Unit := fun s =>
  match s.rest with
  | d :: rest => if d = c then .done () ⟨rest, s.line⟩ else .miss
  | [] => .miss

/-- Read the longest run of characters of a class that holds no line feed. -/
def run (isIn : Char → Bool) : Parser (List Char) := fun s =>
  let (taken, rest) := s.rest.span isIn
  .done taken ⟨rest, s.line⟩

/-- Read the longest run of characters of a class, of one character at least. -/
def run1 (isIn : Char → Bool) : Parser (List Char) := fun s =>
  match s.rest.span isIn with
  | ([], _) => .miss
  | (taken, rest) => .done taken ⟨rest, s.line⟩

/-- Read a word that no letter or digit follows. -/
def keyword (word : String) : Parser Unit := fun s =>
  match Text.after? word.toList s.rest with
  | some (c :: rest) => if Text.isAlphanumeric c then .miss else .done () ⟨c :: rest, s.line⟩
  | some [] => .done () ⟨[], s.line⟩
  | none => .miss

end Parser

end LogoStudio.Logo
