import DecimalScript.Decimal.Written
import DecimalScript.Heap.Basic
import DecimalScript.Text.Quoted

/-!
# The written forms of a value

A value has a form for inspection, in which strings are quoted, and a form for output, which differs
from it for a string alone: there the text itself is written. Below a fixed depth three dots stand
for any value, so the form of a container that holds itself is finite.
-/

namespace DecimalScript.Heap

/-- How many levels of a value are written. -/
def inspectLevels : Nat := 33

/-- The parts with a comma and a blank between them. -/
def commaSeparated (parts : List (List Char)) : List Char :=
  [',', ' '].intercalate parts

/-- The form for inspection, down to the given number of levels. -/
def inspectWithin (heap : Heap) : (levels : Nat) → Value → List Char
  | 0, _ => ['.', '.', '.']
  | _ + 1, .null => "null".toList
  | _ + 1, .bool b => (if b then "true" else "false").toList
  | _ + 1, .str s => Text.Quoted.encode s.toList
  | _ + 1, .dec d => d.chars
  | levels + 1, .array addr =>
    ['['] ++ commaSeparated ((heap.items addr).map (heap.inspectWithin levels)) ++ [']']
  | levels + 1, .map addr =>
    ['\x7b'] ++ commaSeparated ((heap.entries addr).toList.map fun entry =>
      Text.Quoted.encode entry.1.toList ++ [':', ' '] ++ heap.inspectWithin levels entry.2) ++
      ['\x7d']
  | _ + 1, .func f => "<function ".toList ++ f.routine.name.toList ++ ['>']
  | levels + 1, .object addr =>
    let inst := heap.object addr
    inst.classDecl.name.toList ++ ['\x7b'] ++
      commaSeparated (inst.props.toList.map fun prop =>
        prop.1.toList ++ [':', ' '] ++ heap.inspectWithin levels prop.2) ++ ['\x7d']

/-- The form for inspection. -/
def inspect (heap : Heap) (value : Value) : String :=
  String.ofList (heap.inspectWithin inspectLevels value)

/-- The form for output. -/
def display (heap : Heap) (value : Value) : String :=
  match value with
  | .str s => s
  | value => heap.inspect value

end DecimalScript.Heap
