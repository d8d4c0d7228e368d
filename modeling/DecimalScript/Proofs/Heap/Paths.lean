import Mathlib.Data.List.Forall2
import DecimalScript.Heap.Equality

/-!
# Paths through the heap

What is reached from a value, in how many steps, and what a later heap leaves as it was. A step goes
from an array to an element or from a map to a value (`Heap.parts`), or also from an instance to the
value of a property (`Heap.holdings`); a function leads nowhere.

A heap is closed if it refers only to what is on it (`Heap.Closed`). That an address could also refer
to nothing is due to addresses being numbers: one is only ever given out together with what stands
there. On a closed heap what is reached from a value is on the heap, and if none of it was written, then
the same is reached on the later heap (`sameView_of_sameAt`).
-/

namespace DecimalScript

/-- The value is an array or a map. -/
def Value.IsContainer : Value → Prop
  | .array _ | .map _ => True
  | _ => False

namespace Heap

/-! ### Steps -/

/-- What one step through an array or a map leads to. -/
def parts (heap : Heap) : Value → List Value
  | .array addr => heap.items addr
  | .map addr => (heap.entries addr).values
  | _ => []

/-- What one step leads to that may also go through an instance. -/
def holdings (heap : Heap) : Value → List Value
  | .object addr => (heap.object addr).props.values
  | v => heap.parts v

/-- The number of steps lead from `v` to a value, where `next` is what one step leads to. -/
inductive Reaches (next : Value → List Value) (v : Value) : ℕ → Value → Prop where
  | self : Reaches next v 0 v
  | step {n : ℕ} {u w : Value} (h : Reaches next v n u) (hw : w ∈ next u) :
    Reaches next v (n + 1) w

variable {next next' : Value → List Value} {u v w : Value} {n : ℕ}

theorem Reaches.mono (hnext : ∀ u, next u ⊆ next' u) (h : Reaches next v n u) :
    Reaches next' v n u := by
  induction h with
  | self => exact .self
  | step _ hw ih => exact .step ih (hnext _ hw)

/-- A path ends where it starts, or it goes on from one of the first steps. -/
theorem Reaches.self_or_exists (h : Reaches next v n u) :
    n = 0 ∧ u = v ∨ ∃ m, n = m + 1 ∧ ∃ w ∈ next v, Reaches next w m u := by
  -- along the path, whose first step is found at its far end
  induction h with
  | self => exact .inl ⟨rfl, rfl⟩
  | step _ hw ih =>
    obtain ⟨rfl, rfl⟩ | ⟨m, rfl, x, hx, hreaches⟩ := ih
    · exact .inr ⟨0, rfl, _, hw, .self⟩
    · exact .inr ⟨m + 1, rfl, x, hx, .step hreaches hw⟩

theorem parts_subset_holdings (heap : Heap) (v : Value) : heap.parts v ⊆ heap.holdings v := by
  -- only an object holds values that are not its parts
  cases v with
  | object addr => exact List.nil_subset _
  | null => exact List.Subset.refl _
  | bool b => exact List.Subset.refl _
  | str text => exact List.Subset.refl _
  | dec d => exact List.Subset.refl _
  | array addr => exact List.Subset.refl _
  | map addr => exact List.Subset.refl _
  | func f => exact List.Subset.refl _

/-! ### Closed heaps -/

/-- What the value refers to is on the heap. -/
def Holds (heap : Heap) : Value → Prop
  | .array addr => addr < heap.arrays.size
  | .map addr => addr < heap.maps.size
  | .object addr => addr < heap.instances.size
  | _ => True

/-- Everything that something on the heap refers to is on the heap. -/
def Closed (heap : Heap) : Prop :=
  ∀ v, ∀ w ∈ heap.holdings v, heap.Holds w

variable {heap middle later : Heap} {S : Value → Prop}

theorem Closed.holds_of_mem_parts (h : heap.Closed) (hw : w ∈ heap.parts v) : heap.Holds w :=
  h v w (heap.parts_subset_holdings v hw)

theorem Closed.holds_of_reaches (h : heap.Closed) (hv : heap.Holds v)
    (hu : Reaches heap.holdings v n u) : heap.Holds u := by
  cases hu with
  | self => exact hv
  | step _ hw => exact h _ _ hw

/-- On a closed heap the values that can be reached are on the heap. -/
theorem Closed.holds_of_reaches_parts (h : heap.Closed) (hv : heap.Holds v)
    (hu : Reaches heap.parts v n u) : heap.Holds u :=
  h.holds_of_reaches hv (hu.mono heap.parts_subset_holdings)

/-! ### What stays the same -/

/-- What the value refers to is the same on the later heap. -/
def SameAt (heap later : Heap) : Value → Prop
  | .array addr => later.items addr = heap.items addr
  | .map addr => later.entries addr = heap.entries addr
  | .object addr => later.object addr = heap.object addr
  | _ => True

theorem SameAt.refl (heap : Heap) (v : Value) : heap.SameAt heap v := by
  cases v <;> trivial

theorem SameAt.trans (h : heap.SameAt middle v) (h' : middle.SameAt later v) :
    heap.SameAt later v := by
  -- what is no container is the same in all heaps
  cases v with
  | array addr => exact Eq.trans h' h
  | map addr => exact Eq.trans h' h
  | object addr => exact Eq.trans h' h
  | null => trivial
  | bool b => trivial
  | str text => trivial
  | dec d => trivial
  | func f => trivial

theorem SameAt.parts_eq (h : heap.SameAt later v) : later.parts v = heap.parts v := by
  cases v with
  | array addr => exact h
  | map addr => exact congrArg Entries.values h
  | object addr => rfl
  | null => rfl
  | bool b => rfl
  | str text => rfl
  | dec d => rfl
  | func f => rfl

theorem SameAt.holdings_eq (h : heap.SameAt later v) : later.holdings v = heap.holdings v := by
  cases v with
  | object addr => exact congrArg (fun o => o.props.values) h
  | array addr => exact h.parts_eq
  | map addr => exact h.parts_eq
  | null => rfl
  | bool b => rfl
  | str text => rfl
  | dec d => rfl
  | func f => rfl

/-- The same can be reached from `v` on the later heap, and it reads the same there. -/
structure SameView (next : Heap → Value → List Value) (heap later : Heap) (v : Value) : Prop where
  reaches_iff : ∀ n u, Reaches (next later) v n u ↔ Reaches (next heap) v n u
  sameAt : ∀ n u, Reaches (next heap) v n u → heap.SameAt later u

/-- If all that can be reached reads the same, then nothing else can be reached. -/
theorem sameView_of_sameAt {next : Heap → Value → List Value}
    (hnext : ∀ u, heap.SameAt later u → next later u = next heap u)
    (h : ∀ n u, Reaches (next heap) v n u → heap.SameAt later u) : SameView next heap later v where
  reaches_iff n u := by
    constructor
    · -- along the path in the one heap it is a path in the other, since each value on it holds the
      -- same
      intro hu
      induction hu with
      | self => exact .self
      | @step n u w _ hw ih =>
        rw [hnext u (h n u ih)] at hw
        exact .step ih hw
    · intro hu
      induction hu with
      | self => exact .self
      | @step n u w hu hw ih =>
        rw [← hnext u (h n u hu)] at hw
        exact .step ih hw
  sameAt := h

/-- What is on the heap is on the later heap, and reads the same there. -/
structure Keeps (heap later : Heap) : Prop where
  holds : ∀ v, heap.Holds v → later.Holds v
  sameAt : ∀ v, heap.Holds v → heap.SameAt later v

theorem Keeps.refl (heap : Heap) : heap.Keeps heap :=
  ⟨fun _ h => h, fun v _ => .refl heap v⟩

theorem Keeps.trans (h : heap.Keeps middle) (h' : middle.Keeps later) : heap.Keeps later :=
  ⟨fun v hv => h'.holds v (h.holds v hv),
    fun v hv => (h.sameAt v hv).trans (h'.sameAt v (h.holds v hv))⟩

/-- What is on the heap is on the later heap, and the arrays and maps read the same there. Instances
may have been written. -/
structure KeepsParts (heap later : Heap) : Prop where
  holds : ∀ v, heap.Holds v → later.Holds v
  sameAt : ∀ v, v.IsContainer → heap.Holds v → heap.SameAt later v

theorem Keeps.keepsParts (h : heap.Keeps later) : heap.KeepsParts later :=
  ⟨h.holds, fun v _ hv => h.sameAt v hv⟩

theorem KeepsParts.trans (h : heap.KeepsParts middle) (h' : middle.KeepsParts later) :
    heap.KeepsParts later :=
  ⟨fun v hv => h'.holds v (h.holds v hv),
    fun v hc hv => (h.sameAt v hc hv).trans (h'.sameAt v hc (h.holds v hv))⟩

theorem KeepsParts.items_eq (h : heap.KeepsParts later) {addr : ℕ}
    (haddr : heap.Holds (.array addr)) : later.items addr = heap.items addr :=
  h.sameAt (.array addr) trivial haddr

theorem KeepsParts.entries_eq (h : heap.KeepsParts later) {addr : ℕ}
    (haddr : heap.Holds (.map addr)) : later.entries addr = heap.entries addr :=
  h.sameAt (.map addr) trivial haddr

theorem KeepsParts.parts_eq (h : heap.KeepsParts later) (hv : heap.Holds v) :
    later.parts v = heap.parts v := by
  cases v with
  | array addr => exact h.items_eq hv
  | map addr => exact congrArg Entries.values (h.entries_eq hv)
  | object addr => rfl
  | null => rfl
  | bool b => rfl
  | str text => rfl
  | dec d => rfl
  | func f => rfl

theorem Keeps.sameView (h : heap.Keeps later) (hclosed : heap.Closed) (hv : heap.Holds v) :
    SameView holdings heap later v :=
  sameView_of_sameAt (fun _ => SameAt.holdings_eq) fun _ u hu =>
    h.sameAt u (hclosed.holds_of_reaches hv hu)

/-! ### Making and writing -/

theorem keeps_newArray (heap : Heap) (items : List Value) : heap.Keeps (heap.newArray items).2 where
  holds v hv := by
    -- the new address is the first free one, so no old one is affected
    cases v with
    | array addr => exact Nat.lt_trans hv (by simp [newArray])
    | _ => exact hv
  sameAt v hv := by
    cases v with
    | array addr => rw [SameAt, items_newArray, if_neg (Nat.ne_of_lt hv)]
    | _ => first | rfl | trivial

theorem keeps_newMap (heap : Heap) (entries : Entries Value) :
    heap.Keeps (heap.newMap entries).2 where
  holds v hv := by
    cases v with
    | map addr => exact Nat.lt_trans hv (by simp [newMap])
    | _ => exact hv
  sameAt v hv := by
    cases v with
    | map addr => rw [SameAt, entries_newMap, if_neg (Nat.ne_of_lt hv)]
    | _ => first | rfl | trivial

theorem keeps_newObject (heap : Heap) (classDecl : ClassDecl) :
    heap.Keeps (heap.newObject classDecl).2 where
  holds v hv := by
    cases v with
    | object addr => exact Nat.lt_trans hv (by simp [newObject])
    | _ => exact hv
  sameAt v hv := by
    cases v with
    | object addr => rw [SameAt, object_newObject, if_neg (Nat.ne_of_lt hv)]
    | _ => first | rfl | trivial

theorem keeps_newFunction (heap : Heap) (routine : Routine) :
    heap.Keeps (heap.newFunction routine).2 where
  holds v hv := by cases v <;> exact hv
  sameAt v _ := by cases v <;> trivial

theorem holds_setItems {addr : ℕ} {items : List Value} :
    (heap.setItems addr items).Holds v ↔ heap.Holds v := by
  cases v <;> simp [setItems, Holds]

theorem holds_setEntries {addr : ℕ} {entries : Entries Value} :
    (heap.setEntries addr entries).Holds v ↔ heap.Holds v := by
  cases v <;> simp [setEntries, Holds]

theorem holds_setProp {addr : ℕ} {name : String} {value : Value} :
    (heap.setProp addr name value).Holds v ↔ heap.Holds v := by
  cases v <;> simp [setProp, Holds]

theorem sameAt_setItems {addr : ℕ} (items : List Value) (hne : v ≠ .array addr) :
    heap.SameAt (heap.setItems addr items) v := by
  cases v with
  | array other =>
    have hother : addr ≠ other := fun heq => hne (congrArg Value.array heq.symm)
    simp only [SameAt, setItems, Heap.items, Array.getElem?_setIfInBounds_ne hother]
  | _ => first | rfl | trivial

theorem sameAt_setEntries {addr : ℕ} (entries : Entries Value) (hne : v ≠ .map addr) :
    heap.SameAt (heap.setEntries addr entries) v := by
  cases v with
  | map other =>
    have hother : addr ≠ other := fun heq => hne (congrArg Value.map heq.symm)
    simp only [SameAt, setEntries, Heap.entries, Array.getElem?_setIfInBounds_ne hother]
  | _ => first | rfl | trivial

theorem sameAt_setProp {addr : ℕ} (name : String) (value : Value) (hne : v ≠ .object addr) :
    heap.SameAt (heap.setProp addr name value) v := by
  cases v with
  | object other =>
    have hother : addr ≠ other := fun heq => hne (congrArg Value.object heq.symm)
    simp only [SameAt, setProp, Heap.object, Array.getElem?_modify, if_neg hother]
  | _ => first | rfl | trivial

/-! Each of these steps leaves a heap closed if what it is given is on the heap. -/

theorem closed_empty : empty.Closed := by
  intro v w hw
  cases v <;> exact absurd hw List.not_mem_nil

theorem Closed.of_holdings (h : heap.Closed) (hholds : ∀ v, heap.Holds v → later.Holds v)
    (hnew : ∀ v, ∀ w ∈ later.holdings v, w ∈ heap.holdings v ∨ heap.Holds w) : later.Closed := by
  intro v w hw
  refine hholds w ?_
  obtain hold | hgiven := hnew v w hw
  · exact h v w hold
  · exact hgiven

theorem Closed.newArray (h : heap.Closed) {items : List Value}
    (hitems : ∀ w ∈ items, heap.Holds w) : (heap.newArray items).2.Closed := by
  refine h.of_holdings (keeps_newArray heap items).holds fun v w hw => ?_
  -- the new array holds what was there already
  cases v with
  | array addr =>
    replace hw : w ∈ (heap.newArray items).2.items addr := hw
    rw [items_newArray] at hw
    split at hw
    · exact .inr (hitems w hw)
    · exact .inl hw
  | _ => exact .inl hw

theorem Closed.newMap (h : heap.Closed) {entries : Entries Value}
    (hvalues : ∀ w ∈ entries.values, heap.Holds w) : (heap.newMap entries).2.Closed := by
  refine h.of_holdings (keeps_newMap heap entries).holds fun v w hw => ?_
  cases v with
  | map addr =>
    replace hw : w ∈ ((heap.newMap entries).2.entries addr).values := hw
    rw [entries_newMap] at hw
    split at hw
    · exact .inr (hvalues w hw)
    · exact .inl hw
  | _ => exact .inl hw

theorem Closed.newObject (h : heap.Closed) (classDecl : ClassDecl) :
    (heap.newObject classDecl).2.Closed := by
  refine h.of_holdings (keeps_newObject heap classDecl).holds fun v w hw => ?_
  cases v with
  | object addr =>
    replace hw : w ∈ ((heap.newObject classDecl).2.object addr).props.values := hw
    rw [object_newObject] at hw
    split at hw
    · cases hw
    · exact .inl hw
  | _ => exact .inl hw

theorem Closed.setItems (h : heap.Closed) (addr : ℕ) {items : List Value}
    (hitems : ∀ w ∈ items, heap.Holds w) : (heap.setItems addr items).Closed := by
  -- nothing is written outside of the store, and inside it one array changes
  refine h.of_holdings (fun _ => holds_setItems.2) fun v w hw => ?_
  by_cases hv : v = .array addr
  · subst hv
    by_cases haddr : addr < heap.arrays.size
    · replace hw : w ∈ (heap.setItems addr items).items addr := hw
      rw [items_setItems haddr, if_pos rfl] at hw
      exact .inr (hitems w hw)
    · rw [Heap.setItems, Array.setIfInBounds_eq_of_size_le (Nat.le_of_not_lt haddr)] at hw
      exact .inl hw
  · rw [(sameAt_setItems items hv).holdings_eq] at hw
    exact .inl hw

theorem Closed.setEntries (h : heap.Closed) (addr : ℕ) {entries : Entries Value}
    (hvalues : ∀ w ∈ entries.values, heap.Holds w) : (heap.setEntries addr entries).Closed := by
  refine h.of_holdings (fun _ => holds_setEntries.2) fun v w hw => ?_
  by_cases hv : v = .map addr
  · subst hv
    by_cases haddr : addr < heap.maps.size
    · replace hw : w ∈ ((heap.setEntries addr entries).entries addr).values := hw
      rw [entries_setEntries haddr, if_pos rfl] at hw
      exact .inr (hvalues w hw)
    · rw [Heap.setEntries, Array.setIfInBounds_eq_of_size_le (Nat.le_of_not_lt haddr)] at hw
      exact .inl hw
  · rw [(sameAt_setEntries entries hv).holdings_eq] at hw
    exact .inl hw

theorem Closed.setProp (h : heap.Closed) (addr : ℕ) (name : String) {value : Value}
    (hvalue : heap.Holds value) : (heap.setProp addr name value).Closed := by
  -- one object changes, and in it one property
  refine h.of_holdings (fun _ => holds_setProp.2) fun v w hw => ?_
  cases v with
  | object other =>
    replace hw : w ∈ ((heap.setProp addr name value).object other).props.values := hw
    obtain heq | heq := object_setProp heap addr name value other
    · rw [heq] at hw
      exact .inl hw
    · rw [heq] at hw
      obtain rfl | hold := Entries.mem_values_insert hw
      · exact .inr hvalue
      · exact .inl hold
  | _ => exact .inl hw

/-- The later heap has come from `heap` by making new things and by writing. What was made since may
have been written, but of what was on the heap only arrays and maps of `S`. -/
inductive Written (heap : Heap) (S : Value → Prop) : Heap → Prop where
  | start : Written heap S heap
  | newArray {later : Heap} (h : Written heap S later) (items : List Value) :
    Written heap S (later.newArray items).2
  | newMap {later : Heap} (h : Written heap S later) (entries : Entries Value) :
    Written heap S (later.newMap entries).2
  | newObject {later : Heap} (h : Written heap S later) (classDecl : ClassDecl) :
    Written heap S (later.newObject classDecl).2
  | newFunction {later : Heap} (h : Written heap S later) (routine : Routine) :
    Written heap S (later.newFunction routine).2
  | setItems {later : Heap} (h : Written heap S later) {addr : ℕ}
    (haddr : heap.Holds (.array addr) → S (.array addr)) (items : List Value) :
    Written heap S (later.setItems addr items)
  | setEntries {later : Heap} (h : Written heap S later) {addr : ℕ}
    (haddr : heap.Holds (.map addr) → S (.map addr)) (entries : Entries Value) :
    Written heap S (later.setEntries addr entries)
  | setProp {later : Heap} (h : Written heap S later) {addr : ℕ}
    (haddr : ¬heap.Holds (.object addr)) (name : String) (value : Value) :
    Written heap S (later.setProp addr name value)

/-- What was on the heap and is not one of the arrays and maps of `S` was not written. -/
theorem Written.sameAt (h : Written heap S later) (hv : heap.Holds v)
    (hS : v.IsContainer → ¬S v) : heap.SameAt later v := by
  -- along with being the same the value stays held, which the next step needs
  suffices hlater : later.Holds v ∧ heap.SameAt later v from hlater.2
  have hmade : ∀ {middle later : Heap}, middle.Keeps later →
      middle.Holds v ∧ heap.SameAt middle v → later.Holds v ∧ heap.SameAt later v :=
    fun hkeeps h => ⟨hkeeps.holds v h.1, h.2.trans (hkeeps.sameAt v h.1)⟩
  -- on the operations: what is made is new, and what is written is another container
  induction h with
  | start => exact ⟨hv, .refl heap v⟩
  | newArray _ items ih => exact hmade (keeps_newArray _ items) ih
  | newMap _ entries ih => exact hmade (keeps_newMap _ entries) ih
  | newObject _ classDecl ih => exact hmade (keeps_newObject _ classDecl) ih
  | newFunction _ routine ih => exact hmade (keeps_newFunction _ routine) ih
  | setItems _ haddr items ih =>
    refine ⟨holds_setItems.2 ih.1, ih.2.trans (sameAt_setItems items ?_)⟩
    rintro rfl
    exact hS trivial (haddr hv)
  | setEntries _ haddr entries ih =>
    refine ⟨holds_setEntries.2 ih.1, ih.2.trans (sameAt_setEntries entries ?_)⟩
    rintro rfl
    exact hS trivial (haddr hv)
  | setProp _ haddr name value ih =>
    refine ⟨holds_setProp.2 ih.1, ih.2.trans (sameAt_setProp name value ?_)⟩
    rintro rfl
    exact haddr hv

end Heap

end DecimalScript
