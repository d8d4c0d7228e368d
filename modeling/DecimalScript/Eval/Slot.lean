import DecimalScript.Eval.Call

/-!
# Slots

An element of an array, an entry of a map or a property of a value, once the container and the index
have been evaluated. Reading and writing then see the same container. The index of an array is
checked when the slot is read or written, the key of a map when the slot is found.
-/

namespace DecimalScript

/-- A place that holds a value. -/
inductive Slot where
  | element (addr : Nat) (index : Value)
  | entry (addr : Nat) (key : String)
  | property (root : Value) (name : String)
  deriving Repr

namespace Slot

/-- The slot at an index of a container. -/
def atIndex (root index : Value) : Except Cause Slot :=
  match root with
  | .array addr => .ok (.element addr index)
  | .map addr => return .entry addr (← mapKey index)
  | other => .error (.wrongType "array or hashmap" other.typeName)

/-- The element at an index of an array. -/
def readElement (heap : Heap) (addr : Nat) (index : Value) : Except Cause Value := do
  let i ← position index (heap.items addr).length
  match (heap.items addr)[i]? with
  | some value => .ok value
  | none => .error (.indexOutOfRange (toString i))

/-- The heap with another element at an index of an array. -/
def writeElement (heap : Heap) (addr : Nat) (index new : Value) : Except Cause Heap := do
  let i ← position index (heap.items addr).length
  return heap.setItems addr ((heap.items addr).set i new)

/-- The value under a key of a map. -/
def readEntry (heap : Heap) (addr : Nat) (key : String) : Except Cause Value :=
  match (heap.entries addr).get? key with
  | some value => .ok value
  | none => .error (.noKey key)

/-- The value in a slot. -/
def read (nested : Nested) : Slot → Exec Value
  | element addr index => Exec.tryHeap fun heap => return (← readElement heap addr index, heap)
  | entry addr key => Exec.tryHeap fun heap => return (← readEntry heap addr key, heap)
  | property root name => getProperty nested root name

/-- Puts a value into a slot. A key that its map does not hold is added. -/
def write (slot : Slot) (new : Value) : Exec Unit :=
  match slot with
  | element addr index =>
    Exec.tryHeap fun heap => return ((), ← writeElement heap addr index new)
  | entry addr key =>
    Exec.onHeap fun heap => ((), heap.setEntries addr ((heap.entries addr).insert key new))
  | property root name => setProperty root name new

end Slot

end DecimalScript
