import DecimalScript.Heap.Basic

/-!
# The standard globals

The names that are there without a declaration: three constants and the native functions. A host may
add names of its own to them, with values of the language.
-/

namespace DecimalScript

/-- The native functions of the standard globals. -/
def standardNatives : List Native :=
  [.print, .add, .sub, .mul, .div, .probe]

/-- Adds native functions, each of them new. -/
def withNatives : List Native → Entries Value × Heap → Entries Value × Heap
  | [], made => made
  | native :: rest, (globals, heap) =>
    let (value, heap) := heap.newFunction (.native native)
    withNatives rest (globals.insert native.name value, heap)

/-- The standard globals, with functions that are new on the heap. -/
def standardGlobals (heap : Heap) : Entries Value × Heap :=
  withNatives standardNatives
    (.ofList [("true", .bool true), ("false", .bool false), ("null", .null)], heap)

end DecimalScript
