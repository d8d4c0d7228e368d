import DecimalScript.Proofs.Eval.Course
import DecimalScript.Proofs.Eval.Positions
import DecimalScript.Proofs.Heap.Paths

/-!
# Methods of arrays and maps, step by step

A method of an array or a map gives a value and a heap, or a cause to fail and no heap at all, so
that nothing half done could be seen. Here each is also told as the steps that it takes one after
another (`arraySteps`, `mapSteps`): it counts and checks its arguments, reads, and writes, and a
step that fails ends it with the heap as the steps before it left it. That this comes to the same
(`run_arraySteps`, `run_mapSteps`) says that no step fails behind one that writes.

What a call leaves is told by its writes: at most the receiver has changed (`Heap.KeepsBut`), and an
array holds what `ArrayChange` says. Values stand for their addresses throughout, so nothing is
assumed of the arguments: they may be the receiver or hold it.

Main result: `collection_methods_all_or_nothing`.
-/

namespace DecimalScript

/-- Changes the elements of an array. -/
def changeItems (addr : Nat) (f : List Value → List Value) : Exec Unit :=
  Exec.modify fun session =>
    { session with heap := session.heap.setItems addr (f (session.heap.items addr)) }

/-- Changes the entries of a map. -/
def changeEntries (addr : Nat) (f : Entries Value → Entries Value) : Exec Unit :=
  Exec.modify fun session =>
    { session with heap := session.heap.setEntries addr (f (session.heap.entries addr)) }

/-- Adds the elements of the arguments at the indices to a list. -/
def addArguments (callee : String) (args : List Value) : List Nat → List Value → Exec (List Value)
  | [], items => pure items
  | index :: rest, items => do
    let more ← Exec.ofExcept (← Exec.read fun session =>
      arrayArgument session.heap callee args index)
    addArguments callee args rest (items ++ more)

/-- A method of an array, step by step. -/
def arraySteps (addr : Nat) (name : String) (args : List Value) : Exec Value :=
  match name with
  | "insert" => do
    Exec.ofExcept (requireCount name 2 args.length)
    let items ← Exec.read (·.heap.items addr)
    let place ← Exec.ofExcept (insertPosition (args[0]?.getD .null) items.length)
    changeItems addr fun items => items.take place ++ args[1]?.getD .null :: items.drop place
    return .array addr
  | "prepend" => do
    Exec.ofExcept (requireAtLeast name 1 args.length)
    changeItems addr fun items => args ++ items
    return .array addr
  | "append" => do
    Exec.ofExcept (requireAtLeast name 1 args.length)
    changeItems addr fun items => items ++ args
    return .array addr
  | "shift" => do
    Exec.ofExcept (requireCount name 0 args.length)
    match ← Exec.read (·.heap.items addr) with
    | [] => return .null
    | first :: _ => do
      changeItems addr List.tail
      return first
  | "pop" => do
    Exec.ofExcept (requireCount name 0 args.length)
    let last ← Exec.read fun session => (session.heap.items addr).getLast?
    changeItems addr List.dropLast
    return last.getD .null
  | "join" => do
    if 1 < args.length then Exec.ofExcept (requireCount name 1 args.length)
    let separator ←
      if args.isEmpty then pure Heap.defaultSeparator
      else Exec.ofExcept (stringArgument name args 0)
    let parts ← Exec.ofExcept (← Exec.read fun session =>
      Heap.joinParts 0 (session.heap.items addr))
    return .str (separator.intercalate parts)
  | "concat" => do
    let items ← Exec.read (·.heap.items addr)
    let items ← addArguments name args (List.range args.length) items
    Exec.onHeap fun heap => heap.newArray items
  | "contains" => do
    Exec.ofExcept (requireCount name 1 args.length)
    let place ← Exec.read fun session =>
      session.heap.indexOf? (session.heap.items addr) (args[0]?.getD .null)
    return .bool place.isSome
  | "indexOf" => do
    Exec.ofExcept (requireCount name 1 args.length)
    let place ← Exec.read fun session =>
      session.heap.indexOf? (session.heap.items addr) (args[0]?.getD .null)
    return (place.map Value.ofNat).getD (.dec (.ofInt (-1)))
  | _ => Exec.fail (.noMethod name "array")

/-- A method of a map, step by step. -/
def mapSteps (addr : Nat) (name : String) (args : List Value) : Exec Value :=
  match name with
  | "get" => do
    Exec.ofExcept (requireCount name 1 args.length)
    let key ← Exec.ofExcept (mapKey (args[0]?.getD .null))
    let found ← Exec.read fun session => (session.heap.entries addr).get? key
    return found.getD .null
  | "set" => do
    Exec.ofExcept (requireCount name 2 args.length)
    let key ← Exec.ofExcept (mapKey (args[0]?.getD .null))
    let value := args[1]?.getD .null
    changeEntries addr fun entries => entries.insert key value
    return value
  | "delete" => do
    Exec.ofExcept (requireCount name 1 args.length)
    let key ← Exec.ofExcept (mapKey (args[0]?.getD .null))
    let found ← Exec.read fun session => (session.heap.entries addr).get? key
    changeEntries addr fun entries => entries.erase key
    return found.getD .null
  | _ => Exec.fail (.noMethod name "hashmap")

/-! ### The steps together -/

section Steps

variable {α β : Type} {s : Session}

/-- What is asked for first is checked before anything is done. -/
theorem Exec.run_tryHeap_bind (g : Heap → Except Cause β)
    (k : β → Heap → Except Cause (α × Heap)) (s : Session) :
    (Exec.tryHeap fun heap => g heap >>= fun b => k b heap).run s =
      (Exec.ofExcept (g s.heap) >>= fun b => Exec.tryHeap (k b)).run s := by
  simp only [Exec.tryHeap, Exec.run, bind, Except.bind]
  cases g s.heap <;> rfl

theorem Exec.run_tryHeap_pure (value : Heap → α) (later : Heap → Heap) (s : Session) :
    (Exec.tryHeap fun heap => pure (value heap, later heap)).run s =
      .done (value s.heap) { s with heap := later s.heap } := rfl

theorem Exec.run_ofExcept_bind_congr {r : Except Cause β} {f g : β → Exec α}
    (h : ∀ b, (f b).run s = (g b).run s) :
    (Exec.ofExcept r >>= f).run s = (Exec.ofExcept r >>= g).run s := by
  cases r with
  | ok b => exact h b
  | error cause => rfl

end Steps

variable {addr : Nat} {args : List Value} {s : Session}

/-- What is done with one argument, where exactly one is asked for. -/
def withOneArgument {α : Type} (callee : String) (args : List Value)
    (f : Value → Except Cause α) : Except Cause α :=
  match args with
  | [arg] => f arg
  | _ => .error (.argumentsNotExact callee 1 args.length)

/-- What is done with two arguments, where exactly two are asked for. -/
def withTwoArguments {α : Type} (callee : String) (args : List Value)
    (f : Value → Value → Except Cause α) : Except Cause α :=
  match args with
  | [first, second] => f first second
  | _ => .error (.argumentsNotExact callee 2 args.length)

/-- To count the arguments first and to take them apart is the same. -/
theorem run_requireCount_one {callee : String} {f : Unit → Exec Value}
    {g : Value → Heap → Except Cause (Value × Heap)}
    (h : ∀ arg, args = [arg] → (f ()).run s = (Exec.tryHeap (g arg)).run s) :
    (Exec.ofExcept (requireCount callee 1 args.length) >>= f).run s =
      (Exec.tryHeap fun heap => withOneArgument callee args fun arg => g arg heap).run s := by
  -- on the number of arguments: with any other number both sides fail alike
  match args with
  | [] => rfl
  | [arg] => exact h arg rfl
  | _ :: _ :: _ => rfl

theorem run_requireCount_two {callee : String} {f : Unit → Exec Value}
    {g : Value → Value → Heap → Except Cause (Value × Heap)}
    (h : ∀ first second, args = [first, second] →
      (f ()).run s = (Exec.tryHeap (g first second)).run s) :
    (Exec.ofExcept (requireCount callee 2 args.length) >>= f).run s =
      (Exec.tryHeap fun heap =>
        withTwoArguments callee args fun first second => g first second heap).run s := by
  match args with
  | [] => rfl
  | [_] => rfl
  | [first, second] => exact h first second rfl
  | _ :: _ :: _ :: _ => rfl

/-- The arguments are read one after another, and the first that is no array is reported. -/
theorem run_addArguments (callee : String) (args : List Value) (indices : List Nat)
    (items : List Value) (s : Session) :
    (addArguments callee args indices items).run s =
      (Exec.ofExcept (indices.mapM (arrayArgument s.heap callee args)) >>= fun more =>
        pure (items ++ more.flatten)).run s := by
  -- on the arguments that are still to be added, for any items that were added before
  induction indices generalizing items with
  | nil =>
    change Outcome.done items s = Outcome.done (items ++ []) s
    rw [List.append_nil]
  | cons index indices ih =>
    rw [addArguments, List.mapM_cons]
    simp only [Exec.run_bind, Exec.run_read]
    -- the first argument that is no array ends both sides with the same cause
    cases arrayArgument s.heap callee args index with
    | error cause => rfl
    | ok more =>
      change (addArguments callee args indices (items ++ more)).run s = _
      rw [ih]
      simp only [bind, Except.bind]
      cases List.mapM (arrayArgument s.heap callee args) indices with
      | error cause => rfl
      | ok rest =>
        change Outcome.done (items ++ more ++ rest.flatten) s =
          Outcome.done (items ++ (more :: rest).flatten) s
        rw [List.flatten_cons, List.append_assoc]

/-- **The steps of an array's method are the method.** -/
theorem run_arraySteps (addr : Nat) (name : String) (args : List Value) (s : Session) :
    (arraySteps addr name args).run s =
      (Exec.tryHeap fun heap => heap.arrayMethod addr name args).run s := by
  unfold arraySteps
  split <;> simp only [Heap.arrayMethod]
  -- each method reads, checks and writes in the order of its steps, and a step that fails ends both
  -- sides
  · -- insert
    refine run_requireCount_two ?_
    rintro index value rfl
    rw [Exec.run_tryHeap_bind]
    exact Exec.run_ofExcept_bind_congr fun _ => rfl
  · -- prepend and append
    rw [Exec.run_tryHeap_bind]
    exact Exec.run_ofExcept_bind_congr fun _ => rfl
  · rw [Exec.run_tryHeap_bind]
    exact Exec.run_ofExcept_bind_congr fun _ => rfl
  · -- shift
    rw [Exec.run_tryHeap_bind]
    refine Exec.run_ofExcept_bind_congr fun _ => ?_
    rw [Exec.run_bind, Exec.run_read, Exec.run_tryHeap_pure]
    cases hitems : s.heap.items addr with
    | nil =>
      -- an empty array is written as it was
      have hsame := s.heap.setItems_items addr
      rw [hitems] at hsame
      rw [List.tail_nil, hsame]
      rfl
    | cons first rest =>
      change (changeItems addr List.tail >>= fun _ => pure first).run s = _
      rw [Exec.run_bind, changeItems, Exec.run_modify, hitems]
      rfl
  · -- pop
    rw [Exec.run_tryHeap_bind]
    exact Exec.run_ofExcept_bind_congr fun _ => rfl
  · -- join: the separator is an argument or none is given
    cases args with
    | nil =>
      rw [Exec.run_tryHeap_bind]
      change (Exec.ofExcept (Heap.joinParts 0 (s.heap.items addr)) >>= _).run s =
        (Exec.tryHeap fun heap => Heap.joinParts 0 (heap.items addr) >>= _).run s
      rw [Exec.run_tryHeap_bind]
      exact Exec.run_ofExcept_bind_congr fun _ => rfl
    | cons separator rest =>
      cases rest with
      | nil =>
        rw [Exec.run_tryHeap_bind]
        refine Exec.run_ofExcept_bind_congr fun _ => ?_
        rw [Exec.run_tryHeap_bind]
        exact Exec.run_ofExcept_bind_congr fun _ => rfl
      | cons => rfl
  · -- concat
    simp only [Heap.arrayArguments]
    rw [Exec.run_bind, Exec.run_read]
    dsimp only
    rw [Exec.run_bind, run_addArguments, Exec.run_tryHeap_bind]
    cases (List.range args.length).mapM (arrayArgument s.heap "concat" args) with
    | error cause => rfl
    | ok more => rfl
  · -- contains and indexOf
    refine run_requireCount_one ?_
    rintro value rfl
    rfl
  · refine run_requireCount_one ?_
    rintro value rfl
    rfl
  · -- a name that no method has
    rfl

/-- **The steps of a map's method are the method.** -/
theorem run_mapSteps (addr : Nat) (name : String) (args : List Value) (s : Session) :
    (mapSteps addr name args).run s =
      (Exec.tryHeap fun heap => heap.mapMethod addr name args).run s := by
  unfold mapSteps
  split <;> simp only [Heap.mapMethod]
  · -- get
    refine run_requireCount_one ?_
    rintro key rfl
    rw [Exec.run_tryHeap_bind]
    exact Exec.run_ofExcept_bind_congr fun _ => rfl
  · -- set
    refine run_requireCount_two ?_
    rintro key value rfl
    rw [Exec.run_tryHeap_bind]
    exact Exec.run_ofExcept_bind_congr fun _ => rfl
  · -- delete
    refine run_requireCount_one ?_
    rintro key rfl
    rw [Exec.run_tryHeap_bind]
    exact Exec.run_ofExcept_bind_congr fun _ => rfl
  · -- a name that no method has
    rfl

/-! ### What a method changes -/

/-- What a method that changes its array gives and leaves of the elements. -/
inductive ArrayChange (addr : Nat) :
    String → List Value → List Value → Value → List Value → Prop where
  | insert {d : Decimal} {place : ℕ} {value : Value} {old : List Value} (hnumber : d.toRat = place)
    (hplace : place ≤ old.length) :
    ArrayChange addr "insert" [.dec d, value] old (.array addr)
      (old.take place ++ value :: old.drop place)
  | prepend {args old : List Value} (hargs : args ≠ []) :
    ArrayChange addr "prepend" args old (.array addr) (args ++ old)
  | append {args old : List Value} (hargs : args ≠ []) :
    ArrayChange addr "append" args old (.array addr) (old ++ args)
  | shift (first : Value) (rest : List Value) :
    ArrayChange addr "shift" [] (first :: rest) first rest
  | shiftEmpty : ArrayChange addr "shift" [] [] .null []
  | pop (front : List Value) (last : Value) :
    ArrayChange addr "pop" [] (front ++ [last]) last front
  | popEmpty : ArrayChange addr "pop" [] [] .null []

/-- The methods that change the elements of their array. -/
def arrayWriters : List String := ["insert", "prepend", "append", "shift", "pop"]

/-- The methods of an array or a map that only read it. -/
def collectionReaders : List String := ["join", "concat", "contains", "indexOf", "get"]

theorem notMem_collectionReaders : ∀ name ∈ arrayWriters, name ∉ collectionReaders := by
  decide

theorem mem_arrayWriters_of_mem : ∀ name ∈ ["shift", "pop"], name ∈ arrayWriters := by
  decide

theorem ArrayChange.name_mem {addr : Nat} {name : String} {args old new : List Value}
    {value : Value} (h : ArrayChange addr name args old value new) : name ∈ arrayWriters := by
  cases h <;> decide

/-- Nothing is taken out of an empty array. -/
theorem ArrayChange.of_empty {addr : Nat} {name : String} {args old new : List Value}
    {value : Value} (h : ArrayChange addr name args old value new) (hold : old = [])
    (hname : name ∈ ["shift", "pop"]) : value = .null ∧ new = [] := by
  -- a change of an empty array by these two methods is one of the two that say so
  cases h with
  | shiftEmpty => exact ⟨rfl, rfl⟩
  | popEmpty => exact ⟨rfl, rfl⟩
  | shift first rest => cases hold
  | pop front last => simp at hold
  | _ => simp at hname

theorem exists_of_bind_eq_ok {ε α β : Type} {r : Except ε α} {f : α → Except ε β} {b : β}
    (h : (r >>= f) = .ok b) : ∃ a, r = .ok a ∧ f a = .ok b := by
  cases r with
  | ok a => exact ⟨a, rfl, h⟩
  | error cause => cases h

theorem requireCount_eq_ok_iff {callee : String} {expected got : ℕ} :
    requireCount callee expected got = .ok () ↔ got = expected := by
  rw [requireCount]
  split <;> simp [*]

theorem requireAtLeast_eq_ok_iff {callee : String} {least got : ℕ} :
    requireAtLeast callee least got = .ok () ↔ least ≤ got := by
  rw [requireAtLeast]
  split <;> simp [*]

/-- Whatever a method of an array gives, either the array has new elements, or nothing is written,
and only `concat` makes something. -/
theorem arrayMethod_eq_ok_cases {heap later : Heap} {name : String} {value : Value}
    (h : heap.arrayMethod addr name args = .ok (value, later)) :
    (∃ new, later = heap.setItems addr new ∧
      ArrayChange addr name args (heap.items addr) value new) ∨
    name ∈ collectionReaders ∧ (later = heap ∨ ∃ items, later = (heap.newArray items).2) := by
  unfold Heap.arrayMethod at h
  dsimp only at h
  -- one case for each branch of the method, in the order of the names
  split at h
  · -- insert
    split at h
    · next index value =>
      -- the position was found, so the index is a whole number within the bounds
      obtain ⟨place, hplace, hdone⟩ := exists_of_bind_eq_ok h
      cases hdone
      cases index with
      | dec d =>
        obtain ⟨-, hnumber, -, hle⟩ := insertPosition_eq_ok_iff.1 hplace
        exact .inl ⟨_, rfl, .insert hnumber hle⟩
      | null | bool | str | array | map | func | object => cases hplace
    · cases h
  · -- prepend and append
    obtain ⟨_, hcount, hdone⟩ := exists_of_bind_eq_ok h
    cases hdone
    exact .inl ⟨_, rfl, .prepend (List.ne_nil_of_length_pos (requireAtLeast_eq_ok_iff.1 hcount))⟩
  · obtain ⟨_, hcount, hdone⟩ := exists_of_bind_eq_ok h
    cases hdone
    exact .inl ⟨_, rfl, .append (List.ne_nil_of_length_pos (requireAtLeast_eq_ok_iff.1 hcount))⟩
  · -- shift and pop
    obtain ⟨_, hcount, hdone⟩ := exists_of_bind_eq_ok h
    cases hdone
    obtain rfl := List.length_eq_zero_iff.1 (requireCount_eq_ok_iff.1 hcount)
    refine .inl ⟨_, rfl, ?_⟩
    -- on the items, since an empty array is not refused
    cases heap.items addr with
    | nil => exact .shiftEmpty
    | cons first rest => exact .shift first rest
  · obtain ⟨_, hcount, hdone⟩ := exists_of_bind_eq_ok h
    cases hdone
    obtain rfl := List.length_eq_zero_iff.1 (requireCount_eq_ok_iff.1 hcount)
    refine .inl ⟨_, rfl, ?_⟩
    obtain hnil | ⟨front, last, hlast⟩ := (heap.items addr).eq_nil_or_concat
    · rw [hnil]
      exact .popEmpty
    · rw [hlast]
      simpa using .pop front last
  · -- join
    obtain ⟨separator, -, hjoin⟩ := exists_of_bind_eq_ok h
    obtain ⟨parts, -, hdone⟩ := exists_of_bind_eq_ok hjoin
    cases hdone
    exact .inr ⟨by decide, .inl rfl⟩
  · -- concat
    obtain ⟨more, -, hdone⟩ := exists_of_bind_eq_ok h
    cases hdone
    exact .inr ⟨by decide, .inr ⟨_, rfl⟩⟩
  · -- contains and indexOf
    split at h
    · cases h
      exact .inr ⟨by decide, .inl rfl⟩
    · cases h
  · split at h
    · cases h
      exact .inr ⟨by decide, .inl rfl⟩
    · cases h
  · cases h

theorem mapMethod_eq_ok_cases {heap later : Heap} {name : String} {value : Value}
    (h : heap.mapMethod addr name args = .ok (value, later)) :
    name ∈ collectionReaders ∧ later = heap ∨
      name ∉ collectionReaders ∧ ∃ entries, later = heap.setEntries addr entries := by
  unfold Heap.mapMethod at h
  dsimp only at h
  -- the two writers write the entries of the map, and the reader leaves the heap alone
  split at h
  · split at h
    · obtain ⟨key, -, hdone⟩ := exists_of_bind_eq_ok h
      cases hdone
      exact .inl ⟨by decide, rfl⟩
    · cases h
  · split at h
    · obtain ⟨key, -, hdone⟩ := exists_of_bind_eq_ok h
      cases hdone
      exact .inr ⟨by decide, _, rfl⟩
    · cases h
  · split at h
    · obtain ⟨key, -, hdone⟩ := exists_of_bind_eq_ok h
      cases hdone
      exact .inr ⟨by decide, _, rfl⟩
    · cases h
  · cases h

/-- What is on the heap is on the later one, and all but the receiver reads the same there. -/
structure Heap.KeepsBut (heap later : Heap) (receiver : Value) : Prop where
  holds : ∀ v, heap.Holds v → later.Holds v
  sameAt : ∀ v, heap.Holds v → v ≠ receiver → heap.SameAt later v

theorem Heap.Keeps.keepsBut {heap later : Heap} (h : heap.Keeps later) (receiver : Value) :
    heap.KeepsBut later receiver :=
  ⟨h.holds, fun v hv _ => h.sameAt v hv⟩

theorem Heap.keepsBut_setItems (heap : Heap) (addr : ℕ) (items : List Value) :
    heap.KeepsBut (heap.setItems addr items) (.array addr) :=
  ⟨fun _ => holds_setItems.2, fun _ _ hne => sameAt_setItems items hne⟩

theorem Heap.keepsBut_setEntries (heap : Heap) (addr : ℕ) (entries : Entries Value) :
    heap.KeepsBut (heap.setEntries addr entries) (.map addr) :=
  ⟨fun _ => holds_setEntries.2, fun _ _ hne => sameAt_setEntries entries hne⟩

/-- What a call that succeeds gives, and the heap that it leaves. -/
structure MethodEffect (heap : Heap) (receiver : Value) (name : String) (args : List Value)
    (value : Value) (later : Heap) : Prop where
  keepsBut : heap.KeepsBut later receiver
  keeps : name ∈ collectionReaders → heap.Keeps later
  change : ∀ addr, receiver = .array addr → name ∈ arrayWriters →
    ArrayChange addr name args (heap.items addr) value (later.items addr)
  empty : ∀ addr, receiver = .array addr → heap.items addr = [] → name ∈ ["shift", "pop"] →
    value = .null ∧ later = heap

section Effect

variable {heap later : Heap} {receiver value : Value} {name : String}

theorem methodEffect_of_reader (hname : name ∈ collectionReaders) (hkeeps : heap.Keeps later) :
    MethodEffect heap receiver name args value later where
  keepsBut := hkeeps.keepsBut receiver
  keeps _ := hkeeps
  change _ _ hwrites := absurd hname (notMem_collectionReaders name hwrites)
  empty _ _ _ htakes := absurd hname
    (notMem_collectionReaders name (mem_arrayWriters_of_mem name htakes))

theorem methodEffect_of_arrayMethod (haddr : heap.Holds (.array addr))
    (h : heap.arrayMethod addr name args = .ok (value, later)) :
    MethodEffect heap (.array addr) name args value later := by
  obtain ⟨new, rfl, hchange⟩ | ⟨hname, rfl | ⟨items, rfl⟩⟩ := arrayMethod_eq_ok_cases h
  · -- a writing method is no reader, so the first clause is about nothing
    refine ⟨heap.keepsBut_setItems addr new, fun hreads => ?_, ?_, ?_⟩
    · exact absurd hreads (notMem_collectionReaders name hchange.name_mem)
    · rintro _ ⟨⟩ -
      rwa [Heap.items_setItems haddr, if_pos rfl]
    · rintro _ ⟨⟩ hempty htakes
      -- that the array is empty is said of the array before the call
      obtain ⟨hvalue, rfl⟩ := hchange.of_empty hempty htakes
      refine ⟨hvalue, ?_⟩
      rw [← hempty, Heap.setItems_items]
  · exact methodEffect_of_reader hname (.refl _)
  · exact methodEffect_of_reader hname (heap.keeps_newArray items)

theorem methodEffect_of_mapMethod (h : heap.mapMethod addr name args = .ok (value, later)) :
    MethodEffect heap (.map addr) name args value later := by
  obtain ⟨hname, rfl⟩ | ⟨hname, entries, rfl⟩ := mapMethod_eq_ok_cases h
  · exact methodEffect_of_reader hname (.refl _)
  · exact ⟨heap.keepsBut_setEntries addr entries, fun hreads => absurd hreads hname, nofun, nofun⟩

end Effect

/-! ### All methods of arrays and maps -/

/-- The steps of a method of an array or a map. -/
def collectionSteps (receiver : Value) (name : String) (args : List Value) : Exec Value :=
  match receiver with
  | .array addr => arraySteps addr name args
  | .map addr => mapSteps addr name args
  | other => Exec.fail (.noMethod name other.typeName)

/-- A method that gives a value at once makes no further call. -/
theorem run_callMethod_of_value {nested : Nested} {receiver : Value} {name : String}
    {f : Heap → Except Cause (Value × Heap)}
    (hmethod : ∀ heap, heap.method receiver name args =
      f heap >>= fun result => pure (.value result.1, result.2)) :
    (callMethod nested receiver name args).run s = (Exec.tryHeap f).run s := by
  rw [callMethod, Exec.run_bind]
  simp only [Exec.tryHeap, Exec.run, hmethod]
  cases f s.heap <;> rfl

/-- **The methods of arrays and maps are all or nothing.** A call does what its steps do, one after
another. Either it fails and nothing has been written, or it succeeds, and then at most its receiver
is another than before; of an array its elements are what the method makes of them. -/
theorem collection_methods_all_or_nothing (nested : Nested) {receiver : Value}
    (hreceiver : receiver.IsContainer) (name : String) (args : List Value) {s : Session}
    (hholds : s.heap.Holds receiver) :
    (callMethod nested receiver name args).run s = (collectionSteps receiver name args).run s ∧
      ((∃ cause, (collectionSteps receiver name args).run s = .failed (.ofCause cause) s) ∨
        ∃ value later,
          (collectionSteps receiver name args).run s = .done value { s with heap := later } ∧
          MethodEffect s.heap receiver name args value later) := by
  -- a method of a collection is found by the kind of its receiver
  cases receiver with
  | array addr =>
    rw [run_callMethod_of_value fun _ => rfl, collectionSteps, run_arraySteps]
    refine ⟨rfl, ?_⟩
    -- the method is one heap operation, so it either fails before it writes or gives one later heap
    cases hmethod : s.heap.arrayMethod addr name args with
    | error cause => exact .inl ⟨cause, Exec.run_tryHeap_of_error hmethod⟩
    | ok result =>
      exact .inr ⟨result.1, result.2, Exec.run_tryHeap_of_ok hmethod,
        methodEffect_of_arrayMethod hholds hmethod⟩
  | map addr =>
    rw [run_callMethod_of_value fun _ => rfl, collectionSteps, run_mapSteps]
    refine ⟨rfl, ?_⟩
    cases hmethod : s.heap.mapMethod addr name args with
    | error cause => exact .inl ⟨cause, Exec.run_tryHeap_of_error hmethod⟩
    | ok result =>
      exact .inr ⟨result.1, result.2, Exec.run_tryHeap_of_ok hmethod,
        methodEffect_of_mapMethod hmethod⟩
  | null | bool | str | dec | func | object => exact hreceiver.elim

/-- A session with an array of two elements. -/
def sessionWithArray : Session :=
  .fresh (Heap.empty.newArray [.null, .bool true]).2 .empty

/-- The array is inserted into itself, between its elements. -/
theorem array_inserted_into_itself :
    (Value.array 0).IsContainer ∧ sessionWithArray.heap.Holds (.array 0) ∧
      ∃ value later,
        (callMethod (nestedWith 0) (.array 0) "insert" [.dec .one, .array 0]).run
          sessionWithArray = .done value { sessionWithArray with heap := later } ∧
        ArrayChange 0 "insert" [.dec .one, .array 0] [.null, .bool true] value (later.items 0) := by
  have hholds : sessionWithArray.heap.Holds (.array 0) := Nat.one_pos
  obtain ⟨hsteps, ⟨cause, hfailed⟩ | ⟨value, later, hdone, heffect⟩⟩ :=
    @collection_methods_all_or_nothing (nestedWith 0) (.array 0) trivial "insert"
      [.dec .one, .array 0] sessionWithArray hholds
  · have hcause : ((collectionSteps (.array 0) "insert" [.dec .one, .array 0]).run
        sessionWithArray).cause? = none := by decide +kernel
    rw [hfailed] at hcause
    cases hcause
  · rw [hsteps]
    exact ⟨trivial, hholds, value, later, hdone, heffect.change 0 rfl (by decide)⟩

end DecimalScript
