import DecimalScript.Eval.Run
import DecimalScript.Proofs.Eval.Positions
import DecimalScript.Proofs.Heap.Paths

/-!
# Slots hold what is written to them

The laws of a place that holds a value, for all three kinds of slots. A write is a step on the heap
(`Slot.write_eq`) that sets the part of the container and nothing else (`Slot.IsSet`), so a read
gives back what was written, and a second write is as if it were the first (`Slot.set_set`). What is
written may be the container itself, for a slot holds a value and not what the value refers to.

The kinds differ in what is missing. An element has to be there for a write as for a read; a key and
a property are added, and a property that was added hides a getter of its name, so a read runs
none. Only instances take properties.

An address of a value is one that was given out, which is said of the container of a slot by
`Heap.Holds`.

Main result: `slots_hold_what_is_written`.
-/

namespace DecimalScript

variable {heap later : Heap} {slot : Slot} {new v : Value} {s t : Session} {cause : Cause}

/-! ### Setting a key -/

namespace Entries

variable {α : Type}

/-- The entries are those before with a value under a key, in its place if the key was there and at
the end if it was not. -/
structure SetsKey (before after : Entries α) (key : String) (value : α) : Prop where
  keys : after.keys = if key ∈ before.keys then before.keys else before.keys ++ [key]
  get? : ∀ other, after.get? other = if other = key then some value else before.get? other

theorem setsKey_insert (entries : Entries α) (key : String) (value : α) :
    SetsKey entries (entries.insert key value) key value :=
  ⟨entries.keys_insert key value, fun other => entries.get?_insert key other value⟩

end Entries

/-! ### A write as a step on the heap -/

theorem run_query_of_ok {α : Type} {f : Heap → Except Cause α} {value : α}
    (h : f s.heap = .ok value) :
    (Exec.tryHeap fun heap => return (← f heap, heap)).run s = .done value s := by
  simp only [Exec.run, Exec.tryHeap, h]
  rfl

theorem run_query_of_error {α : Type} {f : Heap → Except Cause α} (h : f s.heap = .error cause) :
    (Exec.tryHeap fun heap => return (← f heap, heap)).run s = .failed (.ofCause cause) s := by
  simp only [Exec.run, Exec.tryHeap, h]
  rfl

namespace Slot

/-- What the slot is a part of. -/
def container : Slot → Value
  | element addr _ => .array addr
  | entry addr _ => .map addr
  | property root _ => root

/-- The heap with a value in the slot. -/
def set (slot : Slot) (new : Value) (heap : Heap) : Except Cause Heap :=
  match slot with
  | element addr index => writeElement heap addr index new
  | entry addr key => .ok (heap.setEntries addr ((heap.entries addr).insert key new))
  | property root name => heap.setProperty root name new

theorem write_eq (slot : Slot) (new : Value) :
    slot.write new = Exec.tryHeap fun heap => return ((), ← slot.set new heap) := by
  cases slot <;> rfl

theorem run_write_of_ok (h : slot.set new s.heap = .ok later) :
    (slot.write new).run s = .done () { s with heap := later } := by
  rw [write_eq]
  refine Exec.run_tryHeap_of_ok ?_
  rw [h]
  rfl

theorem run_write_of_error (h : slot.set new s.heap = .error cause) :
    (slot.write new).run s = .failed (.ofCause cause) s := by
  rw [write_eq]
  refine Exec.run_tryHeap_of_error ?_
  rw [h]
  rfl

theorem run_write_eq_done_iff :
    (slot.write new).run s = .done () t ↔
      ∃ later, slot.set new s.heap = .ok later ∧ t = { s with heap := later } := by
  -- writing is one operation on the heap
  cases h : slot.set new s.heap with
  | ok later =>
    rw [run_write_of_ok h]
    simp [eq_comm]
  | error cause =>
    rw [run_write_of_error h]
    simp

/-! ### What a write sets -/

/-- The part of the container at the slot has the value, and its other parts are as before. -/
def PartIsSet (value : Value) (heap later : Heap) : Slot → Prop
  | element addr index => ∃ i, position index (heap.items addr).length = .ok i ∧
      (later.items addr).length = (heap.items addr).length ∧
      ∀ j : Nat, (later.items addr)[j]? = if j = i then some value else (heap.items addr)[j]?
  | entry addr key => (heap.entries addr).SetsKey (later.entries addr) key value
  | property root name => ∃ addr, root = .object addr ∧
      (later.object addr).classDecl = (heap.object addr).classDecl ∧
      (heap.object addr).props.SetsKey (later.object addr).props name value

/-- The later heap is as the heap but for the slot, which has the value. -/
structure IsSet (slot : Slot) (value : Value) (heap later : Heap) : Prop where
  part : slot.PartIsSet value heap later
  others : ∀ u, u ≠ slot.container → heap.SameAt later u
  /-- Nothing is made. -/
  holds_iff : ∀ u, later.Holds u ↔ heap.Holds u

theorem isSet_of_set (h : slot.set v heap = .ok later) (hholds : heap.Holds slot.container) :
    slot.IsSet v heap later := by
  -- one case for each kind of slot: which part is written, and what beside it stays
  cases slot with
  | element addr index =>
    obtain ⟨i, hi, rfl⟩ := writeElement_eq_ok_iff.1 h
    have hitems := (Heap.items_setItems hholds ((heap.items addr).set i v) addr).trans (if_pos rfl)
    refine ⟨⟨i, hi, ?_, fun j => ?_⟩, fun u hu => Heap.sameAt_setItems _ hu,
      fun u => Heap.holds_setItems⟩
    · rw [hitems, List.length_set]
    · rw [hitems, List.getElem?_set, if_pos (lt_of_position hi)]
      simp only [eq_comm]
  | entry addr key =>
    cases h
    refine ⟨?_, fun u hu => Heap.sameAt_setEntries _ hu, fun u => Heap.holds_setEntries⟩
    rw [PartIsSet, Heap.entries_setEntries hholds, if_pos rfl]
    exact Entries.setsKey_insert _ key v
  | property root name =>
    cases root with
    | object addr =>
      -- the instance is the same but for its properties, so it keeps its class
      cases h
      refine ⟨⟨addr, rfl, ?_⟩, fun u hu => Heap.sameAt_setProp name v hu,
        fun u => Heap.holds_setProp⟩
      rw [Heap.object_setProp_of_lt hholds, if_pos rfl]
      exact ⟨rfl, Entries.setsKey_insert _ name v⟩
    | null | bool | str | dec | array | map | func => cases h

/-- A set element is read, and so are a set key and a set property; no getter is asked. -/
theorem IsSet.run_read (h : slot.IsSet v heap t.heap) (nested : Nested) :
    (slot.read nested).run t = .done v t := by
  obtain ⟨hpart, -, -⟩ := h
  cases slot with
  | element addr index =>
    obtain ⟨i, hi, hlength, hitems⟩ := hpart
    have hread : readElement t.heap addr index = .ok v := by
      refine readElement_eq_ok_iff.2 ⟨i, hlength ▸ hi, ?_⟩
      rw [hitems, if_pos rfl]
    exact run_query_of_ok (f := fun heap => readElement heap addr index) hread
  | entry addr key =>
    have hread : readEntry t.heap addr key = .ok v := by
      rw [readEntry, hpart.get?, if_pos rfl]
    exact run_query_of_ok (f := fun heap => readEntry heap addr key) hread
  | property root name =>
    obtain ⟨addr, rfl, -, hprops⟩ := hpart
    -- the instance has the property, so its class is not asked for a getter
    have hread : t.heap.property (.object addr) name = .ok (.value v, t.heap) := by
      rw [Heap.property, Heap.objectProperty, hprops.get?, if_pos rfl]
      rfl
    exact run_getProperty_of_value hread

/-- A second write is as if it were the first. -/
theorem set_set (h : slot.set v heap = .ok later) (hholds : heap.Holds slot.container) (w : Value) :
    slot.set w later = slot.set w heap := by
  cases slot with
  | element addr index =>
    obtain ⟨i, hi, rfl⟩ := writeElement_eq_ok_iff.1 h
    have hitems := (Heap.items_setItems hholds ((heap.items addr).set i v) addr).trans (if_pos rfl)
    have hagain : writeElement heap addr index w =
        .ok (heap.setItems addr ((heap.items addr).set i w)) := writeElement_eq_ok_iff.2 ⟨i, hi, rfl⟩
    rw [set, set, hagain]
    -- the array has kept its length, so the index names the same position
    refine writeElement_eq_ok_iff.2 ⟨i, ?_, ?_⟩
    · rwa [hitems, List.length_set]
    · rw [hitems, List.set_set, Heap.setItems_setItems]
  | entry addr key =>
    cases h
    rw [set, set, Heap.entries_setEntries hholds, if_pos rfl, Entries.insert_insert,
      Heap.setEntries_setEntries]
  | property root name =>
    cases root with
    | object addr =>
      cases h
      exact congrArg Except.ok (Heap.setProp_setProp heap addr name v w)
    | null | bool | str | dec | array | map | func => cases h

/-- Whether a write succeeds does not depend on what is written. -/
theorem exists_set (h : slot.set v heap = .ok later) (w : Value) :
    ∃ later', slot.set w heap = .ok later' := by
  -- that a slot can be written does not depend on the value
  cases slot with
  | element addr index =>
    obtain ⟨i, hi, -⟩ := writeElement_eq_ok_iff.1 h
    exact ⟨_, writeElement_eq_ok_iff.2 ⟨i, hi, rfl⟩⟩
  | entry addr key => exact ⟨_, rfl⟩
  | property root name =>
    cases root with
    | object addr => exact ⟨_, rfl⟩
    | null | bool | str | dec | array | map | func => cases h

theorem run_write_write (h : slot.set v s.heap = .ok later) (hholds : s.heap.Holds slot.container)
    (w : Value) : (slot.write w).run { s with heap := later } = (slot.write w).run s := by
  obtain ⟨later', hlater⟩ := exists_set h w
  have hagain : slot.set w later = .ok later' := (set_set h hholds w).trans hlater
  rw [run_write_of_ok hlater]
  exact run_write_of_ok (s := { s with heap := later }) hagain

/-! ### When a write succeeds -/

/-- An element is there both for a read and for a write, or for neither. -/
theorem run_element (nested : Nested) (addr : Nat) (index v : Value) (s : Session) :
    (∃ value t, ((element addr index).read nested).run s = .done value s ∧
      ((element addr index).write v).run s = .done () t) ∨
    ∃ cause, ((element addr index).read nested).run s = .failed (.ofCause cause) s ∧
      ((element addr index).write v).run s = .failed (.ofCause cause) s := by
  -- reading and writing look for the same position first
  cases hi : position index (s.heap.items addr).length with
  | ok i =>
    have hitem := List.getElem?_eq_getElem (lt_of_position hi)
    have hread := readElement_eq_ok_iff.2 ⟨i, hi, hitem⟩
    have hset : (element addr index).set v s.heap = .ok _ :=
      writeElement_eq_ok_iff.2 ⟨i, hi, rfl⟩
    exact .inl ⟨_, _, run_query_of_ok (f := fun heap => readElement heap addr index) hread,
      run_write_of_ok hset⟩
  | error cause =>
    have hread : readElement s.heap addr index = .error cause := by
      rw [readElement, hi]
      rfl
    have hset : (element addr index).set v s.heap = .error cause := by
      rw [set, writeElement, hi]
      rfl
    exact .inr ⟨cause, run_query_of_error (f := fun heap => readElement heap addr index) hread,
      run_write_of_error hset⟩

theorem run_write_done_or_failed (slot : Slot) (v : Value) (s : Session) :
    (∃ t, (slot.write v).run s = .done () t) ∨
      ∃ cause, (slot.write v).run s = .failed (.ofCause cause) s := by
  cases h : slot.set v s.heap with
  | ok later => exact .inl ⟨_, run_write_of_ok h⟩
  | error cause => exact .inr ⟨cause, run_write_of_error h⟩

theorem run_write_property_of_not_object {root : Value} (h : ∀ addr, root ≠ .object addr)
    (name : String) (v : Value) (s : Session) :
    ((property root name).write v).run s = .failed (.ofCause (.noProperty name root.typeName)) s := by
  refine run_write_of_error ?_
  cases root with
  | object addr => exact absurd rfl (h addr)
  | null | bool | str | dec | array | map | func => rfl

end Slot

/-- **A slot holds what is written to it.** After a write that succeeds a read gives the value itself
and runs nothing, the write has set the slot and nothing else, and a second write does what it would
have done in place of the first. A write that fails has changed nothing. An element is written
where it can be read, and else the write fails as the read does. An entry of a map and a property of
an instance can always be written, and a property of anything else never. -/
theorem slots_hold_what_is_written (s : Session) (v : Value) :
    (∀ (slot : Slot) (t : Session), s.heap.Holds slot.container →
      (slot.write v).run s = .done () t →
      (∀ nested, (slot.read nested).run t = .done v t) ∧
      slot.IsSet v s.heap t.heap ∧ t = { s with heap := t.heap } ∧
      ∀ w, (slot.write w).run t = (slot.write w).run s) ∧
    (∀ slot : Slot, (∃ t, (slot.write v).run s = .done () t) ∨
      ∃ cause, (slot.write v).run s = .failed (.ofCause cause) s) ∧
    (∀ nested addr index,
      (∃ value t, ((Slot.element addr index).read nested).run s = .done value s ∧
        ((Slot.element addr index).write v).run s = .done () t) ∨
      ∃ cause, ((Slot.element addr index).read nested).run s = .failed (.ofCause cause) s ∧
        ((Slot.element addr index).write v).run s = .failed (.ofCause cause) s) ∧
    (∀ addr key, ∃ t, ((Slot.entry addr key).write v).run s = .done () t) ∧
    (∀ addr name, ∃ t, ((Slot.property (.object addr) name).write v).run s = .done () t) ∧
    ∀ root name, (∀ addr, root ≠ .object addr) →
      ((Slot.property root name).write v).run s =
        .failed (.ofCause (.noProperty name root.typeName)) s := by
  refine ⟨fun slot t hholds h => ?_, fun slot => slot.run_write_done_or_failed v s,
    fun nested addr index => Slot.run_element nested addr index v s,
    fun addr key => ⟨_, Slot.run_write_of_ok rfl⟩, fun addr name => ⟨_, Slot.run_write_of_ok rfl⟩,
    fun root name hroot => Slot.run_write_property_of_not_object hroot name v s⟩
  -- a write that succeeded is a heap operation that succeeded
  obtain ⟨later, hset, rfl⟩ := Slot.run_write_eq_done_iff.1 h
  have hisSet := Slot.isSet_of_set hset hholds
  exact ⟨hisSet.run_read (t := { s with heap := later }), hisSet, rfl,
    fun w => Slot.run_write_write hset hholds w⟩

/-- An instance whose class has a getter is written to the property of that name: the property is the
instance itself from then on, and the getter is not run. -/
theorem getter_hidden_by_instance_itself :
    let s := Session.fresh (Heap.empty.newObject ⟨"C", [], [], [⟨"me", []⟩], []⟩).2 .empty
    (s.heap.object 0).classDecl.getter? "me" ≠ none ∧ s.heap.Holds (.object 0) ∧
      ∃ t, ((Slot.property (.object 0) "me").write (.object 0)).run s = .done () t ∧
        ∀ nested, ((Slot.property (.object 0) "me").read nested).run t = .done (.object 0) t := by
  intro s
  -- the object is its own property here, so it is held before and after
  have hholds : s.heap.Holds (.object 0) := Nat.zero_lt_one
  obtain ⟨hwritten, -, -, -, halways, -⟩ := slots_hold_what_is_written s (.object 0)
  obtain ⟨t, ht⟩ := halways 0 "me"
  exact ⟨nofun, hholds, t, ht, (hwritten (.property (.object 0) "me") t hholds ht).1⟩

end DecimalScript
