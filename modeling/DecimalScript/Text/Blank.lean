import DecimalScript.Text.CodePoint

/-!
# Blanks

The blanks of a text are the code points with the property `White_Space`; core's
`Char.isWhitespace` knows only four of them. Number literals and source lines are trimmed of blanks
at their ends.
-/

namespace DecimalScript.Text

/-- The ranges of `White_Space`. -/
def blankRanges : List (Nat × Nat) :=
  [(0x0009, 0x000d), (0x0020, 0x0020), (0x0085, 0x0085), (0x00a0, 0x00a0), (0x1680, 0x1680),
   (0x2000, 0x200a), (0x2028, 0x2029), (0x202f, 0x202f), (0x205f, 0x205f), (0x3000, 0x3000)]

/-- Whether `c` is a blank. -/
def isBlank (c : Char) : Bool :=
  inTable blankRanges c

/-- The text without its leading blanks. -/
def trimStart (text : List Char) : List Char :=
  text.dropWhile isBlank

/-- The text without its trailing blanks. -/
def trimEnd (text : List Char) : List Char :=
  (text.reverse.dropWhile isBlank).reverse

/-- The text without the blanks at either end. -/
def trim (text : List Char) : List Char :=
  trimEnd (trimStart text)

/-- How many blanks the text begins with. -/
def indent (text : List Char) : Nat :=
  (text.takeWhile isBlank).length

end DecimalScript.Text
