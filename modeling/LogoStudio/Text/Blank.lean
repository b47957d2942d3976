import LogoStudio.Text.Ranges

/-!
# Blank characters

The characters with the Unicode property White_Space, and text without the blanks around
it.
-/
namespace LogoStudio.Text

/-- The characters with the property White_Space. -/
def blankRanges : List (Nat × Nat) :=
  [(0x9, 0xd), (0x20, 0x20), (0x85, 0x85), (0xa0, 0xa0), (0x1680, 0x1680), (0x2000, 0x200a),
   (0x2028, 0x2029), (0x202f, 0x202f), (0x205f, 0x205f), (0x3000, 0x3000)]

def isBlank (c : Char) : Bool := inRanges blankRanges c.toNat

/-- A text without the blanks at its start. -/
def dropBlanks (text : List Char) : List Char := text.dropWhile isBlank

/-- A text without the blanks at both ends. -/
def trim (text : List Char) : List Char := (dropBlanks (dropBlanks text).reverse).reverse

/-- The maximal runs of characters that are not blank, in order. `word` holds the current
run backwards. -/
def wordsFrom : List Char → List Char → List (List Char)
  | word, [] => if word.isEmpty then [] else [word.reverse]
  | word, c :: rest =>
      if isBlank c then
        if word.isEmpty then wordsFrom [] rest else word.reverse :: wordsFrom [] rest
      else wordsFrom (c :: word) rest

/-- The words of a text: its maximal runs of characters that are not blank. -/
def words (text : List Char) : List (List Char) := wordsFrom [] text

end LogoStudio.Text
