import LogoStudio.Text.Blank
import LogoStudio.Text.Lead
import LogoStudio.Text.Upper

/-!
# Tags of records

A tag names the kind of a record. Drawing commands live in the two spaces `turtle.` and
`canvas.`. An older spelling has a blank after the name of the space and spells the
command in several words, as in `canvas ellipse fill`; and everything that starts with
`timeout` is a timeout. The canonical form of a tag undoes these spellings. A tag is known
if its canonical form is one of four fixed tags or lies in one of the two spaces.
-/
namespace LogoStudio.Tag

/-- The tags outside the two spaces. -/
def fixedTags : List (List Char) :=
  ["compile error".toList, "runtime error".toList, "timeout".toList, "print".toList]

/-- A word with its first character in upper case. -/
def capitalize : List Char → List Char
  | [] => []
  | c :: rest => Text.upper c ++ rest

/-- Words joined without blanks, each but the first with a capital. -/
def joinWords : List (List Char) → List Char
  | [] => []
  | word :: rest => word ++ rest.flatMap capitalize

/-- The canonical form of a tag in the older spelling of the space `space`. -/
def respell? (space tag : List Char) : Option (List Char) :=
  (Text.after? (space ++ [' ']) tag).map fun command =>
    space ++ '.' :: joinWords (Text.words command)

def canonical (tag : List Char) : List Char :=
  if Text.startsWith "timeout".toList tag then "timeout".toList
  else ((respell? "turtle".toList tag).or (respell? "canvas".toList tag)).getD tag

def isKnown (tag : List Char) : Bool :=
  fixedTags.contains tag || Text.startsWith "turtle.".toList tag ||
    Text.startsWith "canvas.".toList tag

end LogoStudio.Tag
