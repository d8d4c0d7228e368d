import DecimalScript.Value.Basic
import DecimalScript.Value.Entries

/-!
# The heap

The arrays, maps and instances that values refer to, each under an address of its own kind. Nothing
is ever removed, so an address stays good; one that was never given out reads as empty, and writing
to it changes nothing.
-/

namespace DecimalScript

/-- An instance of a class with its own properties. -/
structure Instance where
  classDecl : ClassDecl
  props : Entries Value
  deriving Repr

instance : Inhabited Instance :=
  ⟨{ classDecl := ⟨"", [], [], [], []⟩, props := .empty }⟩

/-- The arrays, maps and instances of a session, and how many functions were made. -/
structure Heap where
  arrays : Array (List Value)
  maps : Array (Entries Value)
  instances : Array Instance
  functions : Nat
  deriving Repr

namespace Heap

/-- A heap that holds nothing. -/
def empty : Heap :=
  { arrays := #[], maps := #[], instances := #[], functions := 0 }

instance : Inhabited Heap := ⟨empty⟩

/-! ### Reading -/

/-- The elements of an array. -/
def items (heap : Heap) (addr : Nat) : List Value :=
  (heap.arrays[addr]?).getD []

/-- The entries of a map. -/
def entries (heap : Heap) (addr : Nat) : Entries Value :=
  (heap.maps[addr]?).getD .empty

/-- An instance. -/
def object (heap : Heap) (addr : Nat) : Instance :=
  (heap.instances[addr]?).getD default

/-! An address that was not given out reads as empty. -/

theorem items_eq_nil_of_size_le {heap : Heap} {addr : Nat} (h : heap.arrays.size ≤ addr) :
    heap.items addr = [] := by
  simp [items, Array.getElem?_eq_none h]

theorem entries_eq_empty_of_size_le {heap : Heap} {addr : Nat} (h : heap.maps.size ≤ addr) :
    heap.entries addr = .empty := by
  simp [entries, Array.getElem?_eq_none h]

theorem object_eq_default_of_size_le {heap : Heap} {addr : Nat} (h : heap.instances.size ≤ addr) :
    heap.object addr = default := by
  simp [object, Array.getElem?_eq_none h]

/-! ### Making -/

/-- A new array. -/
def newArray (heap : Heap) (items : List Value) : Value × Heap :=
  (.array heap.arrays.size, { heap with arrays := heap.arrays.push items })

/-- A new map. -/
def newMap (heap : Heap) (entries : Entries Value) : Value × Heap :=
  (.map heap.maps.size, { heap with maps := heap.maps.push entries })

/-- A new instance without properties, and its address. -/
def newObject (heap : Heap) (classDecl : ClassDecl) : Nat × Heap :=
  (heap.instances.size,
    { heap with instances := heap.instances.push { classDecl, props := .empty } })

/-- A new function. -/
def newFunction (heap : Heap) (routine : Routine) : Value × Heap :=
  (.func { id := heap.functions, routine }, { heap with functions := heap.functions + 1 })

/-! ### Writing -/

/-- Gives an array other elements. -/
def setItems (heap : Heap) (addr : Nat) (items : List Value) : Heap :=
  { heap with arrays := heap.arrays.setIfInBounds addr items }

/-- Gives a map other entries. -/
def setEntries (heap : Heap) (addr : Nat) (entries : Entries Value) : Heap :=
  { heap with maps := heap.maps.setIfInBounds addr entries }

/-- Sets a property of an instance. -/
def setProp (heap : Heap) (addr : Nat) (name : String) (value : Value) : Heap :=
  { heap with
    instances := heap.instances.modify addr fun o => { o with props := o.props.insert name value } }

/-! ### Reading after making and writing -/

/-- A new array has the given elements, and the arrays that were there keep theirs. -/
theorem items_newArray (heap : Heap) (items : List Value) (addr : Nat) :
    (heap.newArray items).2.items addr =
      if addr = heap.arrays.size then items else heap.items addr := by
  simp only [newArray, Heap.items, Array.getElem?_push]
  split <;> rfl

/-- A new map has the given entries, and the maps that were there keep theirs. -/
theorem entries_newMap (heap : Heap) (entries : Entries Value) (addr : Nat) :
    (heap.newMap entries).2.entries addr =
      if addr = heap.maps.size then entries else heap.entries addr := by
  simp only [newMap, Heap.entries, Array.getElem?_push]
  split <;> rfl

/-- A new instance has no properties, and the instances that were there keep theirs. -/
theorem object_newObject (heap : Heap) (classDecl : ClassDecl) (addr : Nat) :
    (heap.newObject classDecl).2.object addr =
      if addr = heap.instances.size then { classDecl, props := .empty } else heap.object addr := by
  simp only [newObject, Heap.object, Array.getElem?_push]
  split <;> rfl

/-- An array reads as what it was given, and no other array changes. -/
theorem items_setItems {heap : Heap} {addr : Nat} (h : addr < heap.arrays.size)
    (items : List Value) (other : Nat) :
    (heap.setItems addr items).items other =
      if other = addr then items else heap.items other := by
  by_cases ho : other = addr
  · simp [setItems, Heap.items, ho, h]
  · simp [setItems, Heap.items, ho, Array.getElem?_setIfInBounds_ne (Ne.symm ho)]

/-- A map reads as what it was given, and no other map changes. -/
theorem entries_setEntries {heap : Heap} {addr : Nat} (h : addr < heap.maps.size)
    (entries : Entries Value) (other : Nat) :
    (heap.setEntries addr entries).entries other =
      if other = addr then entries else heap.entries other := by
  by_cases ho : other = addr
  · simp [setEntries, Heap.entries, ho, h]
  · simp [setEntries, Heap.entries, ho, Array.getElem?_setIfInBounds_ne (Ne.symm ho)]

/-- An instance reads as it did or with the property that was set. -/
theorem object_setProp (heap : Heap) (addr : Nat) (name : String) (value : Value) (other : Nat) :
    (heap.setProp addr name value).object other = heap.object other ∨
      (heap.setProp addr name value).object other =
        { heap.object other with props := (heap.object other).props.insert name value } := by
  simp only [setProp, Heap.object, Array.getElem?_modify]
  split
  · cases heap.instances[other]? with
    | none => exact .inl rfl
    | some o => exact .inr rfl
  · exact .inl rfl

/-- The instance at a good address reads as it did with the property that was set, and no other
instance changes. -/
theorem object_setProp_of_lt {heap : Heap} {addr : Nat} (h : addr < heap.instances.size)
    (name : String) (value : Value) (other : Nat) :
    (heap.setProp addr name value).object other =
      if other = addr then
        { heap.object addr with props := (heap.object addr).props.insert name value }
      else heap.object other := by
  by_cases ho : other = addr
  · simp only [setProp, Heap.object, Array.getElem?_modify, ho, if_true,
      Array.getElem?_eq_getElem h]
    rfl
  · simp only [setProp, Heap.object, Array.getElem?_modify, ho, Ne.symm ho, if_false]

/-- A property that is set is there, and no other comes or goes. -/
theorem contains_setProp {heap : Heap} {addr : Nat} (h : addr < heap.instances.size)
    {name key : String} (value : Value) :
    ((heap.setProp addr name value).object addr).props.contains key = true ↔
      key = name ∨ (heap.object addr).props.contains key = true := by
  rw [object_setProp_of_lt h, if_pos rfl]
  exact Entries.contains_insert

/-! ### Writing again -/

theorem setItems_items (heap : Heap) (addr : Nat) :
    heap.setItems addr (heap.items addr) = heap := by
  by_cases haddr : addr < heap.arrays.size
  · have hitems : heap.items addr = heap.arrays[addr] := by
      rw [items, Array.getElem?_eq_getElem haddr, Option.getD_some]
    rw [hitems, setItems, Array.setIfInBounds_def, dif_pos haddr, Array.set_getElem_self]
  · rw [setItems, Array.setIfInBounds_eq_of_size_le (Nat.le_of_not_lt haddr)]

theorem setItems_setItems (heap : Heap) (addr : Nat) (items items' : List Value) :
    (heap.setItems addr items).setItems addr items' = heap.setItems addr items' := by
  simp only [setItems, Array.setIfInBounds_setIfInBounds]

theorem setEntries_setEntries (heap : Heap) (addr : Nat) (entries entries' : Entries Value) :
    (heap.setEntries addr entries).setEntries addr entries' = heap.setEntries addr entries' := by
  simp only [setEntries, Array.setIfInBounds_setIfInBounds]

theorem setProp_setProp (heap : Heap) (addr : Nat) (name : String) (v w : Value) :
    (heap.setProp addr name v).setProp addr name w = heap.setProp addr name w := by
  simp only [setProp, mk.injEq, true_and, and_true]
  refine Array.ext_getElem? fun i => ?_
  simp only [Array.getElem?_modify]
  split
  · cases heap.instances[i]? with
    | none => rfl
    | some o => simp only [Option.map_some, Entries.insert_insert]
  · rfl

end Heap

end DecimalScript
