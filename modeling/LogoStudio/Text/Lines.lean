/-!
# Lines

A text is a sequence of lines that each end at a line feed; a carriage return right
before the line feed belongs to the line end. The last line needs no end, and an empty
rest is no line.
-/
namespace LogoStudio.Text

/-- A line without the carriage return of its end. -/
def dropReturn (line : List Char) : List Char :=
  match line.reverse with
  | '\r' :: rest => rest.reverse
  | _ => line

/-- The lines of a text; `line` holds the current one backwards. -/
def linesFrom : List Char → List Char → List (List Char)
  | line, [] => if line.isEmpty then [] else [line.reverse]
  | line, c :: rest =>
      if c = '\n' then dropReturn line.reverse :: linesFrom [] rest else linesFrom (c :: line) rest

def lines (text : List Char) : List (List Char) := linesFrom [] text

end LogoStudio.Text
