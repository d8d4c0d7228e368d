/-!
# Source lines

A line ends at a line feed, and a carriage return right before that line feed belongs to the line
end. A carriage return anywhere else stays in its line. The text after the last line feed is a line
only if there is any.
-/

namespace DecimalScript.Text

/-- The line without the carriage return at its end, if it has one. -/
def dropReturn (line : List Char) : List Char :=
  if line.getLast? = some '\r' then line.dropLast else line

/-- The lines of a text. `pending` holds the characters of the current line, last one first. -/
def linesFrom (pending : List Char) : List Char → List (List Char)
  | [] => if pending.isEmpty then [] else [pending.reverse]
  | c :: rest =>
    if c = '\n' then dropReturn pending.reverse :: linesFrom [] rest
    else linesFrom (c :: pending) rest

/-- The lines of a text, without their ends. -/
def lines (text : List Char) : List (List Char) :=
  linesFrom [] text

end DecimalScript.Text
