import DecimalScript.Heap.Basic

/-!
# Copies

A value that is bound or passed by value is a copy: its arrays and maps are new, down to a fixed
depth, below which they are shared. The bound makes the copy of a container that holds itself end.
Instances and functions are always shared.
-/

namespace DecimalScript.Heap

/-- How many levels of arrays and maps a copy renews. -/
def copyLevels : Nat := 65

/-- Runs `f` on each value in turn and gives the heap on. -/
def mapValues (f : Value → Heap → Value × Heap) : List Value → Heap → List Value × Heap
  | [], heap => ([], heap)
  | v :: rest, heap =>
    let (w, heap) := f v heap
    let (ws, heap) := mapValues f rest heap
    (w :: ws, heap)

/-- The copy that renews the given number of levels. -/
def copyWithin : (levels : Nat) → Value → Heap → Value × Heap
  | levels + 1, .array addr, heap =>
    -- the parts are made first, so their addresses are below that of the copy
    let (items, heap) := mapValues (copyWithin levels) (heap.items addr) heap
    heap.newArray items
  | levels + 1, .map addr, heap =>
    let entries := heap.entries addr
    let (values, heap) := mapValues (copyWithin levels) entries.values heap
    heap.newMap (entries.withValues values)
  | _, value, heap => (value, heap)

/-- The copy of a value. -/
def copy (heap : Heap) (value : Value) : Value × Heap :=
  copyWithin copyLevels value heap

/-- The value itself where it goes by reference, else its copy. -/
def pass (heap : Heap) (byRef : Bool) (value : Value) : Value × Heap :=
  if byRef then (value, heap) else heap.copy value

end DecimalScript.Heap
