import DecimalScript.Text.Blank
import DecimalScript.Text.Line

/-!
# Locations in source text

A location names the line that was running when an evaluation failed, with the text of that line
where the source is at hand.
-/

namespace DecimalScript

/-- A line of some source, with what a report shows of it. -/
structure Location where
  /-- The file's name; none for text that was typed in. -/
  file : Option String
  /-- The line's number, from one; zero if it is not known. -/
  line : Nat
  /-- The column of the first character that is no blank, from one; zero if there is none. -/
  column : Nat
  /-- The line without the blanks at its end. -/
  text : String
  deriving Repr, DecidableEq

namespace Location

/-- The characters of a line of the source; none for line zero, for a line past the end and where
there is no source. -/
def lineText (source : Option String) (line : Nat) : List Char :=
  match source, line with
  | some source, line + 1 => ((Text.lines source.toList)[line]?).getD []
  | _, _ => []

/-- The location of a line. -/
def atLine (file : Option String) (line : Nat) (source : Option String) : Location :=
  let chars := lineText source line
  { file
    line
    column := if (Text.trim chars).isEmpty then 0 else Text.indent chars + 1
    text := String.ofList (Text.trimEnd chars) }

/-- The location as a report writes it: file, line and, where known, column. -/
def display (location : Location) : String :=
  let place := location.file.getD "<input>" ++ ":" ++ toString location.line
  if location.column = 0 then place else place ++ ":" ++ toString location.column

end Location

end DecimalScript
