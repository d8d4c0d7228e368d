import DecimalScript.Heap.Copy
import DecimalScript.Heap.Method

/-!
# Realms

A realm bounds what an evaluation comes across: addresses of arrays, maps and instances, the
functions that may be called, the expressions for first values of properties, and the ways to end
without a value. A heap is within a realm if what stands at an address of the realm is of the realm again,
and if the realm has every address that is not given out yet. So whether a value is of the realm does
not depend on the heap, which only grows, and no step on the heap leaves the realm: its results are of
the realm if its arguments are, and so is what it writes. Of the heap as a whole a realm can ask for
anything that every making and every writing keeps (`Heap.Step`).

That every function to come is one of the realm is what an argument about all code that can be
reached needs: the functions of a realm can be those without loops, or those in which every break
stands in a loop.
-/

namespace DecimalScript

/-- Whether the cause is a break or a continue that no loop encloses. -/
def Cause.isStray : Cause → Bool
  | strayBreak | strayContinue => true
  | _ => false

/-- Something is made or written on the heap. -/
inductive Heap.Step (heap : Heap) : Heap → Prop where
  | newArray (items : List Value) : Step heap (heap.newArray items).2
  | newMap (entries : Entries Value) : Step heap (heap.newMap entries).2
  | newObject (classDecl : ClassDecl) : Step heap (heap.newObject classDecl).2
  | newFunction (routine : Routine) : Step heap (heap.newFunction routine).2
  | setItems (addr : Nat) (items : List Value) : Step heap (heap.setItems addr items)
  | setEntries (addr : Nat) (entries : Entries Value) : Step heap (heap.setEntries addr entries)
  | setProp (addr : Nat) (name : String) (value : Value) :
      Step heap (heap.setProp addr name value)

/-- What an evaluation may come across. -/
structure Realm where
  HasArray : Nat → Prop
  HasMap : Nat → Prop
  HasObject : Nat → Prop
  /-- The functions, methods and getters that may be called. -/
  HasFunction : FunctionDecl → Prop
  /-- The expressions for the first values of properties. -/
  HasInitial : Expr → Prop
  MayFail : Cause → Prop
  /-- An evaluation may run out of fuel. -/
  MayStop : Prop
  /-- The heaps, as far as this is not a matter of single addresses. -/
  HasHeap : Heap → Prop
  /-- Only a break or a continue without a loop can be excluded by what the functions look like. -/
  mayFail : ∀ cause, cause.isStray = false → MayFail cause
  hasHeap_step : ∀ {heap later : Heap}, heap.Step later → HasHeap heap → HasHeap later

namespace Realm

variable {α β : Type} (realm : Realm)

/-- The routines of the realm. A native function is of every realm. -/
def HasRoutine : Routine → Prop
  | .native _ => True
  | .declared decl => realm.HasFunction decl

/-- The values of the realm. -/
def HasValue : Value → Prop
  | .array addr => realm.HasArray addr
  | .map addr => realm.HasMap addr
  | .object addr => realm.HasObject addr
  | .func f => realm.HasRoutine f.routine
  | .null | .bool _ | .str _ | .dec _ => True

/-- The classes of the realm. -/
structure HasClass (decl : ClassDecl) : Prop where
  properties : ∀ property ∈ decl.properties, realm.HasInitial property.init
  getters : ∀ getter ∈ decl.getters, realm.HasFunction getter.asFunction
  methods : ∀ method ∈ decl.methods, realm.HasFunction method

/-- The replies of the realm. -/
def HasReply : Reply → Prop
  | .value value => realm.HasValue value
  | .call routine receiver args =>
    realm.HasRoutine routine ∧ (∀ v ∈ receiver, realm.HasValue v) ∧ ∀ v ∈ args, realm.HasValue v

/-- The result has the property, or the realm has the cause of the failure. -/
def Allows (p : α → Prop) : Except Cause α → Prop
  | .ok value => p value
  | .error cause => realm.MayFail cause

end Realm

/-- The heap does not lead out of the realm. -/
structure Heap.Within (realm : Realm) (heap : Heap) : Prop where
  hasHeap : realm.HasHeap heap
  items : ∀ addr, realm.HasArray addr → ∀ v ∈ heap.items addr, realm.HasValue v
  entries : ∀ addr, realm.HasMap addr → (heap.entries addr).All realm.HasValue
  classes : ∀ addr, realm.HasObject addr → realm.HasClass (heap.object addr).classDecl
  props : ∀ addr, realm.HasObject addr → (heap.object addr).props.All realm.HasValue
  /-- The addresses to come are of the realm. -/
  arrays : ∀ addr, heap.arrays.size ≤ addr → realm.HasArray addr
  maps : ∀ addr, heap.maps.size ≤ addr → realm.HasMap addr
  instances : ∀ addr, heap.instances.size ≤ addr → realm.HasObject addr

variable {α β : Type} {realm : Realm} {p q : α → Prop}

/-! ### Steps that may fail -/

namespace Realm

theorem Allows.pure {value : α} (h : p value) : realm.Allows p (pure value) := h

theorem Allows.error {cause : Cause} (h : cause.isStray = false) :
    realm.Allows p (.error cause) :=
  realm.mayFail cause h

theorem Allows.bind {x : Except Cause β} {f : β → Except Cause α} {r : β → Prop}
    (hx : realm.Allows r x) (hf : ∀ value, r value → realm.Allows p (f value)) :
    realm.Allows p (x >>= f) := by
  cases x with
  | ok value => exact hf value hx
  | error cause => exact hx

theorem Allows.mapM {f : β → Except Cause α} {list : List β}
    (h : ∀ b ∈ list, realm.Allows p (f b)) :
    realm.Allows (fun values => ∀ v ∈ values, p v) (list.mapM f) := by
  -- on the list, the elements of which are taken one after the other
  induction list with
  | nil =>
    rw [List.mapM_nil]
    exact .pure fun v hv => nomatch hv
  | cons b rest ih =>
    rw [List.mapM_cons]
    refine .bind (h b List.mem_cons_self) fun value hvalue => ?_
    refine .bind (ih fun c hc => h c (List.mem_cons_of_mem b hc)) fun values hvalues => ?_
    refine .pure fun v hv => ?_
    obtain rfl | hv := List.mem_cons.1 hv
    · exact hvalue
    · exact hvalues v hv

/-- Nothing is said of the result, only that no break and no continue is the cause of a failure. -/
abbrev Harmless (realm : Realm) (x : Except Cause α) : Prop :=
  realm.Allows (fun _ => True) x

theorem Allows.mono {q : α → Prop} {x : Except Cause α} (h : realm.Allows p x)
    (himp : ∀ value, p value → q value) : realm.Allows q x := by
  cases x with
  | ok value => exact himp value h
  | error cause => exact h

theorem Allows.harmless {x : Except Cause α} (h : realm.Allows p x) : realm.Harmless x :=
  h.mono fun _ _ => trivial

end Realm

open Realm (Allows Harmless)

/-! ### Numbers and arguments -/

theorem ofParts_harmless (coeff exp : Int) : realm.Harmless (Decimal.ofParts coeff exp) := by
  unfold Decimal.ofParts
  split
  · trivial
  · exact .error rfl

theorem canonical_harmless (d : Decimal) : realm.Harmless d.canonical := by
  unfold Decimal.canonical
  split
  · trivial
  · exact ofParts_harmless _ _

theorem mul_harmless (x y : Decimal) : realm.Harmless (x.mul y) := by
  unfold Decimal.mul
  split
  · trivial
  · exact .bind (ofParts_harmless _ _) fun d _ => canonical_harmless d

theorem div_harmless (x y : Decimal) : realm.Harmless (x.div y) := by
  unfold Decimal.div
  split
  · exact .error rfl
  · split
    · trivial
    · exact .bind (ofParts_harmless _ _) fun d _ => canonical_harmless d

theorem apply_harmless (op : ArithOp) (x y : Decimal) : realm.Harmless (op.apply x y) := by
  cases op with
  | add => trivial
  | sub => trivial
  | mul => exact mul_harmless x y
  | div => exact div_harmless x y

theorem toInt_harmless (d : Decimal) : realm.Harmless d.toInt := by
  unfold Decimal.toInt
  split
  · trivial
  · exact .error rfl

theorem parse_harmless (text : String) : realm.Harmless (Decimal.parse text) := by
  unfold Decimal.parse
  split
  · trivial
  · exact .error rfl

theorem decimalAt_harmless (callee : String) (index : Nat) (value : Value) :
    realm.Harmless (decimalAt callee index value) := by
  unfold decimalAt
  split
  · trivial
  · exact .error rfl

theorem foldFrom_harmless (callee : String) (op : ArithOp) (acc : Decimal) (index : Nat)
    (values : List Value) : realm.Harmless (foldFrom callee op acc index values) := by
  induction values generalizing acc index with
  | nil => trivial
  | cons value rest ih =>
    refine .bind (decimalAt_harmless callee index value) fun d _ => ?_
    refine .bind (apply_harmless op acc d) fun acc _ => ?_
    exact ih acc (index + 1)

theorem foldDecimals_harmless (callee : String) (op : ArithOp) (values : List Value) :
    realm.Harmless (foldDecimals callee op values) := by
  -- without values two of the operations have a neutral element, and the others fail
  cases values with
  | nil =>
    cases op with
    | add => trivial
    | mul => trivial
    | sub => exact .error rfl
    | div => exact .error rfl
  | cons value rest =>
    refine .bind (decimalAt_harmless callee 0 value) fun first _ => ?_
    exact foldFrom_harmless callee op first 1 rest

theorem requireCount_harmless (callee : String) (expected got : Nat) :
    realm.Harmless (requireCount callee expected got) := by
  unfold requireCount
  split
  · trivial
  · exact .error rfl

theorem requireAtLeast_harmless (callee : String) (least got : Nat) :
    realm.Harmless (requireAtLeast callee least got) := by
  unfold requireAtLeast
  split
  · trivial
  · exact .error rfl

theorem stringArgument_harmless (callee : String) (args : List Value) (index : Nat) :
    realm.Harmless (stringArgument callee args index) := by
  unfold stringArgument
  split
  · trivial
  · exact .error rfl
  · exact .error rfl

theorem position_harmless (index : Value) (len : Nat) : realm.Harmless (position index len) := by
  unfold position
  -- the index is no decimal, or none that is whole, or one out of range
  split
  · split
    · split
      · trivial
      · exact .error rfl
    · exact .error rfl
  · exact .error rfl

theorem insertPosition_harmless (index : Value) (len : Nat) :
    realm.Harmless (insertPosition index len) := by
  unfold insertPosition
  split
  · split
    · split
      · trivial
      · exact .error rfl
    · exact .error rfl
  · exact .error rfl

theorem mapKey_harmless (key : Value) : realm.Harmless (mapKey key) := by
  unfold mapKey
  split
  · trivial
  · trivial
  · exact .error rfl

theorem joinParts_harmless (index : Nat) (values : List Value) :
    realm.Harmless (Heap.joinParts index values) := by
  -- on the values, each of which has to be a string
  induction values generalizing index with
  | nil => trivial
  | cons value rest ih =>
    cases value with
    | str text => exact .bind (ih (index + 1)) fun _ _ => .pure trivial
    | _ => exact .error rfl

theorem joinSeparator_harmless (args : List Value) : realm.Harmless (Heap.joinSeparator args) := by
  unfold Heap.joinSeparator
  split
  · trivial
  · exact stringArgument_harmless _ _ _
  · exact .error rfl

/-! ### Classes -/

theorem Realm.HasClass.getter {decl : ClassDecl} (h : realm.HasClass decl) {name : String}
    {getter : FunctionDecl} (hgetter : decl.getter? name = some getter) :
    realm.HasFunction getter := by
  obtain ⟨found, hfound, rfl⟩ := Option.map_eq_some_iff.1 hgetter
  exact h.getters found (List.mem_reverse.1 (List.mem_of_find?_eq_some hfound))

theorem Realm.HasClass.method {decl : ClassDecl} (h : realm.HasClass decl) {name : String}
    {method : FunctionDecl} (hmethod : decl.method? name = some method) :
    realm.HasFunction method :=
  h.methods method (List.mem_reverse.1 (List.mem_of_find?_eq_some hmethod))

namespace Heap

variable {heap : Heap}

/-! ### Making and writing -/

theorem Within.newArray (h : heap.Within realm) {items : List Value}
    (hitems : ∀ v ∈ items, realm.HasValue v) :
    realm.HasValue (heap.newArray items).1 ∧ (heap.newArray items).2.Within realm := by
  -- the address was one to come, so the realm has had it all along
  refine ⟨h.arrays _ (Nat.le_refl _), { h with hasHeap := ?_, items := ?_, arrays := ?_ }⟩
  · exact realm.hasHeap_step (.newArray items) h.hasHeap
  · intro addr haddr v hv
    rw [items_newArray] at hv
    split at hv
    · exact hitems v hv
    · exact h.items addr haddr v hv
  · intro addr haddr
    refine h.arrays addr (Nat.le_trans ?_ haddr)
    simp [Heap.newArray]

theorem Within.newMap (h : heap.Within realm) {entries : Entries Value}
    (hentries : entries.All realm.HasValue) :
    realm.HasValue (heap.newMap entries).1 ∧ (heap.newMap entries).2.Within realm := by
  refine ⟨h.maps _ (Nat.le_refl _), { h with hasHeap := ?_, entries := ?_, maps := ?_ }⟩
  · exact realm.hasHeap_step (.newMap entries) h.hasHeap
  · intro addr haddr
    rw [entries_newMap]
    split
    · exact hentries
    · exact h.entries addr haddr
  · intro addr haddr
    refine h.maps addr (Nat.le_trans ?_ haddr)
    simp [Heap.newMap]

theorem Within.newObject (h : heap.Within realm) {classDecl : ClassDecl}
    (hclass : realm.HasClass classDecl) :
    realm.HasObject (heap.newObject classDecl).1 ∧ (heap.newObject classDecl).2.Within realm := by
  refine ⟨h.instances _ (Nat.le_refl _),
    { h with hasHeap := ?_, classes := ?_, props := ?_, instances := ?_ }⟩
  · exact realm.hasHeap_step (.newObject classDecl) h.hasHeap
  · intro addr haddr
    rw [object_newObject]
    split
    · exact hclass
    · exact h.classes addr haddr
  · intro addr haddr
    rw [object_newObject]
    split
    · exact .empty
    · exact h.props addr haddr
  · intro addr haddr
    refine h.instances addr (Nat.le_trans ?_ haddr)
    simp [Heap.newObject]

theorem Within.newFunction (h : heap.Within realm) {routine : Routine}
    (hroutine : realm.HasRoutine routine) :
    realm.HasValue (heap.newFunction routine).1 ∧ (heap.newFunction routine).2.Within realm :=
  ⟨hroutine, { h with hasHeap := realm.hasHeap_step (.newFunction routine) h.hasHeap }⟩

/-- To write where nothing stands changes nothing. -/
theorem Within.setItems (h : heap.Within realm) (addr : Nat) {items : List Value}
    (hitems : ∀ v ∈ items, realm.HasValue v) : (heap.setItems addr items).Within realm := by
  -- only a write inside the store changes anything
  by_cases haddr : addr < heap.arrays.size
  · refine { h with hasHeap := ?_, items := ?_, arrays := ?_ }
    · exact realm.hasHeap_step (.setItems addr items) h.hasHeap
    · intro other hother v hv
      rw [items_setItems haddr] at hv
      split at hv
      · exact hitems v hv
      · exact h.items other hother v hv
    · simpa [Heap.setItems] using h.arrays
  · rw [Heap.setItems, Array.setIfInBounds, dif_neg haddr]
    exact h

theorem Within.setEntries (h : heap.Within realm) (addr : Nat) {entries : Entries Value}
    (hentries : entries.All realm.HasValue) : (heap.setEntries addr entries).Within realm := by
  by_cases haddr : addr < heap.maps.size
  · refine { h with hasHeap := ?_, entries := ?_, maps := ?_ }
    · exact realm.hasHeap_step (.setEntries addr entries) h.hasHeap
    · intro other hother
      rw [entries_setEntries haddr]
      split
      · exact hentries
      · exact h.entries other hother
    · simpa [Heap.setEntries] using h.maps
  · rw [Heap.setEntries, Array.setIfInBounds, dif_neg haddr]
    exact h

theorem Within.setProp (h : heap.Within realm) (addr : Nat) (name : String) {value : Value}
    (hvalue : realm.HasValue value) : (heap.setProp addr name value).Within realm := by
  -- one object changes, or none does
  refine { h with hasHeap := ?_, classes := ?_, props := ?_, instances := ?_ }
  · exact realm.hasHeap_step (.setProp addr name value) h.hasHeap
  · intro other hother
    obtain heq | heq := object_setProp heap addr name value other
    · rw [heq]
      exact h.classes other hother
    · rw [heq]
      exact h.classes other hother
  · intro other hother
    obtain heq | heq := object_setProp heap addr name value other
    · rw [heq]
      exact h.props other hother
    · rw [heq]
      exact (h.props other hother).insert name hvalue
  · simpa [Heap.setProp] using h.instances

/-! ### Copies -/

theorem Within.mapValues {f : Value → Heap → Value × Heap}
    (hf : ∀ v (heap : Heap), realm.HasValue v → heap.Within realm →
      realm.HasValue (f v heap).1 ∧ (f v heap).2.Within realm)
    (h : heap.Within realm) {values : List Value} (hvalues : ∀ v ∈ values, realm.HasValue v) :
    (∀ w ∈ (Heap.mapValues f values heap).1, realm.HasValue w) ∧
      (Heap.mapValues f values heap).2.Within realm := by
  -- on the values, each of which is mapped in the heap that the others left
  induction values generalizing heap with
  | nil => exact ⟨(fun w hw => nomatch hw), h⟩
  | cons v rest ih =>
    obtain ⟨hfirst, hthen⟩ := hf v heap (hvalues v List.mem_cons_self) h
    obtain ⟨hrest, hlast⟩ := ih hthen fun w hw => hvalues w (List.mem_cons_of_mem v hw)
    refine ⟨fun w hw => ?_, hlast⟩
    obtain rfl | hw := List.mem_cons.1 hw
    · exact hfirst
    · exact hrest w hw

theorem Within.copyWithin (levels : Nat) (v : Value) (heap : Heap) (hv : realm.HasValue v)
    (h : heap.Within realm) :
    realm.HasValue (Heap.copyWithin levels v heap).1 ∧
      (Heap.copyWithin levels v heap).2.Within realm := by
  induction levels generalizing v heap with
  | zero => exact ⟨hv, h⟩
  | succ levels ih =>
    cases v with
    | array addr =>
      -- the copies of the elements are made first, one level down
      obtain ⟨hitems, hthen⟩ := h.mapValues ih (h.items addr hv)
      exact hthen.newArray hitems
    | map addr =>
      obtain ⟨hvalues, hthen⟩ := h.mapValues ih fun w hw => (h.entries addr hv).of_mem_values hw
      exact hthen.newMap (Entries.all_withValues _ hvalues)
    | null => exact ⟨hv, h⟩
    | bool b => exact ⟨hv, h⟩
    | str text => exact ⟨hv, h⟩
    | dec d => exact ⟨hv, h⟩
    | func f => exact ⟨hv, h⟩
    | object addr => exact ⟨hv, h⟩

theorem Within.pass (h : heap.Within realm) (byRef : Bool) {v : Value} (hv : realm.HasValue v) :
    realm.HasValue (heap.pass byRef v).1 ∧ (heap.pass byRef v).2.Within realm := by
  unfold Heap.pass
  split
  · exact ⟨hv, h⟩
  · exact Within.copyWithin copyLevels v heap hv h

/-! ### Properties -/

theorem allows_stringProperty (text name : String) :
    realm.Allows realm.HasValue (stringProperty text name) := by
  unfold stringProperty
  split
  · trivial
  · trivial
  · exact .error rfl

theorem allows_decimalProperty (d : Decimal) (name : String) :
    realm.Allows realm.HasValue (decimalProperty d name) := by
  unfold decimalProperty
  split
  · trivial
  · trivial
  · trivial
  · exact .error rfl

theorem allows_boolProperty (b : Bool) (name : String) :
    realm.Allows realm.HasValue (boolProperty b name) := by
  unfold boolProperty
  split
  · trivial
  · exact .error rfl

/-- The first or the last element of an array of the realm, or null. -/
theorem hasValue_getD {items : List Value} (hitems : ∀ v ∈ items, realm.HasValue v)
    {found : Option Value} (hfound : ∀ v ∈ found, v ∈ items) :
    realm.HasValue (found.getD .null) := by
  cases found with
  | none => trivial
  | some v => exact hitems v (hfound v rfl)

theorem allows_arrayProperty {items : List Value} (hitems : ∀ v ∈ items, realm.HasValue v)
    (name : String) : realm.Allows realm.HasValue (arrayProperty items name) := by
  -- four folds, the two ends of the array, its length, and no other name
  unfold arrayProperty
  split
  · exact .bind (foldDecimals_harmless _ _ _) fun _ _ => .pure trivial
  · exact .bind (foldDecimals_harmless _ _ _) fun _ _ => .pure trivial
  · exact .bind (foldDecimals_harmless _ _ _) fun _ _ => .pure trivial
  · exact .bind (foldDecimals_harmless _ _ _) fun _ _ => .pure trivial
  · exact hasValue_getD hitems fun v hv => List.mem_of_mem_head? hv
  · exact hasValue_getD hitems fun v hv => List.mem_of_mem_getLast? hv
  · trivial
  · exact .error rfl

/-- A value and a heap of the realm. -/
abbrev GivesValue (realm : Realm) (result : Value × Heap) : Prop :=
  realm.HasValue result.1 ∧ result.2.Within realm

theorem Within.allows_mapProperty (h : heap.Within realm) {entries : Entries Value}
    (hentries : entries.All realm.HasValue) (name : String) :
    realm.Allows (GivesValue realm) (heap.mapProperty entries name) := by
  unfold mapProperty
  -- the size, the keys as strings, and the values as they are
  split
  · exact ⟨trivial, h⟩
  · refine h.newArray fun v hv => ?_
    obtain ⟨key, -, rfl⟩ := List.mem_map.1 hv
    trivial
  · exact h.newArray fun v hv => hentries.of_mem_values hv
  · exact .error rfl

theorem Within.allows_objectProperty (h : heap.Within realm) {addr : Nat}
    (haddr : realm.HasObject addr) (name : String) :
    realm.Allows realm.HasReply (heap.objectProperty addr name) := by
  unfold objectProperty
  -- the property of the object itself, or else a getter of its class
  split
  · next value hvalue => exact h.props addr haddr name value hvalue
  · split
    · next getter hgetter =>
      refine ⟨(h.classes addr haddr).getter hgetter, fun v hv => ?_, fun v hv => nomatch hv⟩
      cases hv
      exact haddr
    · exact .error rfl

/-- A reply and a heap of the realm. -/
abbrev GivesReply (realm : Realm) (result : Reply × Heap) : Prop :=
  realm.HasReply result.1 ∧ result.2.Within realm

theorem Within.allows_property (h : heap.Within realm) {value : Value}
    (hvalue : realm.HasValue value) (name : String) :
    realm.Allows (GivesReply realm) (heap.property value name) := by
  -- one case for each kind of value, of which only some have properties
  cases value with
  | null => exact .error rfl
  | bool b => exact .bind (allows_boolProperty b name) fun v hv => .pure ⟨hv, h⟩
  | str text => exact .bind (allows_stringProperty text name) fun v hv => .pure ⟨hv, h⟩
  | dec d => exact .bind (allows_decimalProperty d name) fun v hv => .pure ⟨hv, h⟩
  | array addr =>
    exact .bind (allows_arrayProperty (h.items addr hvalue) name) fun v hv => .pure ⟨hv, h⟩
  | map addr =>
    exact .bind (h.allows_mapProperty (h.entries addr hvalue) name) fun _ hgives => .pure hgives
  | func f => exact .error rfl
  | object addr => exact .bind (h.allows_objectProperty hvalue name) fun v hv => .pure ⟨hv, h⟩

theorem Within.allows_setProperty (h : heap.Within realm) (value : Value) (name : String)
    {new : Value} (hnew : realm.HasValue new) :
    realm.Allows (Within realm) (heap.setProperty value name new) := by
  cases value with
  | object addr => exact h.setProp addr name hnew
  | _ => exact .error rfl

/-! ### Methods -/

theorem allows_stringMethod (text name : String) (args : List Value) :
    realm.Allows realm.HasValue (stringMethod text name args) := by
  unfold stringMethod
  split
  · refine .bind (requireCount_harmless _ _ _) fun _ _ => ?_
    exact .bind (parse_harmless text) fun _ _ => .pure trivial
  · refine .bind (.mapM fun index _ => stringArgument_harmless _ args index) fun _ _ => ?_
    exact .pure trivial
  · exact .error rfl

theorem allows_decimalMethod (d : Decimal) (name : String) (args : List Value) :
    realm.Allows realm.HasValue (decimalMethod d name args) := by
  unfold decimalMethod
  split
  · refine .bind (requireCount_harmless _ _ _) fun _ _ => ?_
    exact .bind (toInt_harmless d) fun _ _ => .pure trivial
  · exact .error rfl

theorem Within.allows_arrayArgument (h : heap.Within realm) (callee : String) {args : List Value}
    (hargs : ∀ v ∈ args, realm.HasValue v) (index : Nat) :
    realm.Allows (fun items => ∀ v ∈ items, realm.HasValue v)
      (arrayArgument heap callee args index) := by
  unfold arrayArgument
  split
  · next addr haddr => exact h.items addr (hargs _ (List.mem_of_getElem? haddr))
  · exact .error rfl
  · exact .error rfl

theorem Within.allows_arrayArguments (h : heap.Within realm) (callee : String) {args : List Value}
    (hargs : ∀ v ∈ args, realm.HasValue v) :
    realm.Allows (fun items => ∀ v ∈ items, realm.HasValue v)
      (heap.arrayArguments callee args) := by
  refine .bind (.mapM fun index _ => h.allows_arrayArgument callee hargs index)
    fun lists hlists => .pure fun v hv => ?_
  obtain ⟨items, hitems, hv⟩ := List.mem_flatten.1 hv
  exact hlists items hitems v hv

theorem Within.allows_arrayMethod (h : heap.Within realm) {addr : Nat} (haddr : realm.HasArray addr)
    (name : String) {args : List Value} (hargs : ∀ v ∈ args, realm.HasValue v) :
    realm.Allows (GivesValue realm) (heap.arrayMethod addr name args) := by
  -- an array method gives an element, the array itself, or a new array
  have hitems := h.items addr haddr
  unfold arrayMethod
  dsimp only
  split
  · -- insert: the new element stands between old ones
    split
    · next index value =>
      refine .bind (insertPosition_harmless _ _) fun place _ => .pure ⟨haddr, h.setItems addr ?_⟩
      intro v hv
      obtain hv | hv := List.mem_append.1 hv
      · exact hitems v (List.mem_of_mem_take hv)
      · obtain rfl | hv := List.mem_cons.1 hv
        · exact hargs v (by simp)
        · exact hitems v (List.mem_of_mem_drop hv)
    · exact .error rfl
  · -- prepend and append
    refine .bind (requireAtLeast_harmless _ _ _) fun _ _ => .pure ⟨haddr, h.setItems addr ?_⟩
    exact fun v hv => (List.mem_append.1 hv).elim (hargs v) (hitems v)
  · refine .bind (requireAtLeast_harmless _ _ _) fun _ _ => .pure ⟨haddr, h.setItems addr ?_⟩
    exact fun v hv => (List.mem_append.1 hv).elim (hitems v) (hargs v)
  · -- shift and pop
    refine .bind (requireCount_harmless _ _ _) fun _ _ => .pure ⟨?_, h.setItems addr ?_⟩
    · exact hasValue_getD hitems fun v hv => List.mem_of_mem_head? hv
    · exact fun v hv => hitems v (List.mem_of_mem_tail hv)
  · refine .bind (requireCount_harmless _ _ _) fun _ _ => .pure ⟨?_, h.setItems addr ?_⟩
    · exact hasValue_getD hitems fun v hv => List.mem_of_mem_getLast? hv
    · exact fun v hv => hitems v (List.dropLast_subset _ hv)
  · -- join gives a string
    refine .bind (joinSeparator_harmless args) fun _ _ => ?_
    exact .bind (joinParts_harmless 0 _) fun _ _ => .pure ⟨trivial, h⟩
  · -- concat gives a new array and writes to none
    refine .bind (h.allows_arrayArguments _ hargs) fun more hmore => .pure (h.newArray ?_)
    exact fun v hv => (List.mem_append.1 hv).elim (hitems v) (hmore v)
  · -- contains and indexOf give no element of the array
    split
    · exact ⟨trivial, h⟩
    · exact .error rfl
  · split
    · next value =>
      refine .pure ⟨?_, h⟩
      cases heap.indexOf? (heap.items addr) value with
      | none => trivial
      | some place => trivial
    · exact .error rfl
  · exact .error rfl

theorem Within.allows_mapMethod (h : heap.Within realm) {addr : Nat} (haddr : realm.HasMap addr)
    (name : String) {args : List Value} (hargs : ∀ v ∈ args, realm.HasValue v) :
    realm.Allows (GivesValue realm) (heap.mapMethod addr name args) := by
  have hentries := h.entries addr haddr
  have hfound : ∀ key, realm.HasValue (((heap.entries addr).get? key).getD .null) := by
    intro key
    cases hkey : (heap.entries addr).get? key with
    | none => trivial
    | some value => exact hentries key value hkey
  unfold mapMethod
  dsimp only
  split
  · split
    · exact .bind (mapKey_harmless _) fun key _ => .pure ⟨hfound key, h⟩
    · exact .error rfl
  · split
    · next key value =>
      have hvalue : realm.HasValue value := hargs value (by simp)
      refine .bind (mapKey_harmless _) fun key _ => ?_
      exact .pure ⟨hvalue, h.setEntries addr (hentries.insert key hvalue)⟩
    · exact .error rfl
  · split
    · refine .bind (mapKey_harmless _) fun key _ => ?_
      exact .pure ⟨hfound key, h.setEntries addr (hentries.erase key)⟩
    · exact .error rfl
  · exact .error rfl

theorem Within.allows_method (h : heap.Within realm) {value : Value}
    (hvalue : realm.HasValue value) (name : String) {args : List Value}
    (hargs : ∀ v ∈ args, realm.HasValue v) :
    realm.Allows (GivesReply realm) (heap.method value name args) := by
  -- one case for each kind of value, of which only some have methods
  cases value with
  | null => exact .error rfl
  | bool b => exact .error rfl
  | str text => exact .bind (allows_stringMethod text name args) fun v hv => .pure ⟨hv, h⟩
  | dec d => exact .bind (allows_decimalMethod d name args) fun v hv => .pure ⟨hv, h⟩
  | array addr =>
    exact .bind (h.allows_arrayMethod hvalue name hargs) fun _ hgives => .pure hgives
  | map addr => exact .bind (h.allows_mapMethod hvalue name hargs) fun _ hgives => .pure hgives
  | func f =>
    unfold method
    dsimp only
    split
    · exact ⟨⟨hvalue, (fun v hv => nomatch hv), hargs⟩, h⟩
    · exact .error rfl
  | object addr =>
    unfold method
    dsimp only
    split
    · next decl hdecl =>
      refine ⟨⟨(h.classes addr hvalue).method hdecl, fun v hv => ?_, hargs⟩, h⟩
      cases hv
      exact hvalue
    · exact .error rfl

end Heap

/-! ### Realms of all values -/

/-- The realm leaves out no address, no function and no expression. -/
structure Realm.IsTotal (realm : Realm) : Prop where
  hasArray : ∀ addr, realm.HasArray addr
  hasMap : ∀ addr, realm.HasMap addr
  hasObject : ∀ addr, realm.HasObject addr
  hasFunction : ∀ decl, realm.HasFunction decl
  hasInitial : ∀ e, realm.HasInitial e

namespace Realm.IsTotal

variable (h : realm.IsTotal)
include h

theorem hasValue (v : Value) : realm.HasValue v := by
  cases v with
  | array addr => exact h.hasArray addr
  | map addr => exact h.hasMap addr
  | object addr => exact h.hasObject addr
  | func f =>
    obtain ⟨id, routine⟩ := f
    cases routine with
    | native fn => trivial
    | declared decl => exact h.hasFunction decl
  | _ => trivial

theorem hasClass (decl : ClassDecl) : realm.HasClass decl :=
  ⟨fun _ _ => h.hasInitial _, fun _ _ => h.hasFunction _, fun _ _ => h.hasFunction _⟩

theorem heap_within {heap : Heap} (hheap : realm.HasHeap heap) : heap.Within realm where
  hasHeap := hheap
  items _ _ v _ := h.hasValue v
  entries _ _ _ v _ := h.hasValue v
  classes _ _ := h.hasClass _
  props _ _ _ v _ := h.hasValue v
  arrays addr _ := h.hasArray addr
  maps addr _ := h.hasMap addr
  instances addr _ := h.hasObject addr

end Realm.IsTotal

/-- The realm that has everything, but for a break or a continue without a loop as a cause to fail. -/
def Realm.everything : Realm where
  HasArray _ := True
  HasMap _ := True
  HasObject _ := True
  HasFunction _ := True
  HasInitial _ := True
  MayFail cause := cause.isStray = false
  MayStop := True
  HasHeap _ := True
  mayFail _ h := h
  hasHeap_step _ _ := trivial

theorem Realm.isTotal_everything : Realm.everything.IsTotal :=
  ⟨fun _ => trivial, fun _ => trivial, fun _ => trivial, fun _ => trivial, fun _ => trivial⟩

theorem Value.hasValue_everything (v : Value) : Realm.everything.HasValue v :=
  Realm.isTotal_everything.hasValue v

theorem Realm.hasClass_everything (decl : ClassDecl) : Realm.everything.HasClass decl :=
  Realm.isTotal_everything.hasClass decl

theorem Heap.within_everything (heap : Heap) : heap.Within Realm.everything :=
  Realm.isTotal_everything.heap_within trivial

namespace Heap

theorem property_harmless (heap : Heap) (value : Value) (name : String) :
    Realm.everything.Harmless (heap.property value name) :=
  (heap.within_everything.allows_property value.hasValue_everything name).harmless

theorem setProperty_harmless (heap : Heap) (value : Value) (name : String) (new : Value) :
    Realm.everything.Harmless (heap.setProperty value name new) :=
  (heap.within_everything.allows_setProperty value name new.hasValue_everything).harmless

theorem method_harmless (heap : Heap) (value : Value) (name : String) (args : List Value) :
    Realm.everything.Harmless (heap.method value name args) :=
  (heap.within_everything.allows_method value.hasValue_everything name fun v _ =>
    v.hasValue_everything).harmless

end Heap

end DecimalScript
