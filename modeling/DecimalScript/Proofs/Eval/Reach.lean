import DecimalScript.Proofs.Eval.Program
import DecimalScript.Proofs.Eval.Realm

/-!
# What a session reaches

A program gets to the global names, to the values that can be imported and to what the root frame
binds, and from a container or an instance to what it holds (`Session.Reaches`). The functions that
it can call are those among these values and the getters and methods of the classes that it gets to
(`Session.ReachesFunction`). What stands on the heap besides does not matter.

A session at rest is within the realm of what it reaches, together with the addresses that it has
not given out yet (`Session.AtRest.within`). What it reaches is also smaller than the session.
-/

namespace DecimalScript

namespace Session

/-- The values that a program gets to. -/
inductive Reaches (s : Session) : Value → Prop where
  | global {name : String} {value : Value} (h : s.scopes.globals.get? name = some value) :
      Reaches s value
  | imported {name : String} {value : Value} (h : s.imports.get? name = some value) :
      Reaches s value
  | bound {id : Nat} {frame : Frame} {name : String} {binding : Binding}
      (hframe : s.scopes.frames[id]? = some frame)
      (h : frame.bindings.get? name = some binding) : Reaches s binding.value
  | element {addr : Nat} {value : Value} (haddr : Reaches s (.array addr))
      (h : value ∈ s.heap.items addr) : Reaches s value
  | entry {addr : Nat} {key : String} {value : Value} (haddr : Reaches s (.map addr))
      (h : (s.heap.entries addr).get? key = some value) : Reaches s value
  | prop {addr : Nat} {name : String} {value : Value} (haddr : Reaches s (.object addr))
      (h : (s.heap.object addr).props.get? name = some value) : Reaches s value

/-- The classes that a program gets to. -/
inductive ReachesClass (s : Session) : ClassDecl → Prop where
  | bound {id : Nat} {frame : Frame} {name : String} {decl : ClassDecl}
      (hframe : s.scopes.frames[id]? = some frame) (h : frame.classes.get? name = some decl) :
      ReachesClass s decl
  | ofObject {addr : Nat} (haddr : s.Reaches (.object addr)) :
      ReachesClass s (s.heap.object addr).classDecl

/-- The functions, methods and getters that a program gets to. -/
inductive ReachesFunction (s : Session) : FunctionDecl → Prop where
  | value {id : Nat} {decl : FunctionDecl} (h : s.Reaches (.func ⟨id, .declared decl⟩)) :
      ReachesFunction s decl
  | getter {decl : ClassDecl} {getter : GetterDecl} (hclass : s.ReachesClass decl)
      (h : getter ∈ decl.getters) : ReachesFunction s getter.asFunction
  | method {decl : ClassDecl} {method : FunctionDecl} (hclass : s.ReachesClass decl)
      (h : method ∈ decl.methods) : ReachesFunction s method

end Session

/-! ### The realm of what is reached -/

/-- The realm with the addresses that the session reaches or has not given out yet, whatever the heap
is as a whole. -/
def Realm.reachedFrom (realm : Realm) (s : Session) : Realm :=
  { realm with
    HasArray := fun addr => s.Reaches (.array addr) ∨ s.heap.arrays.size ≤ addr
    HasMap := fun addr => s.Reaches (.map addr) ∨ s.heap.maps.size ≤ addr
    HasObject := fun addr => s.Reaches (.object addr) ∨ s.heap.instances.size ≤ addr
    HasHeap := fun _ => True
    hasHeap_step := fun _ _ => trivial }

namespace Session

variable {realm : Realm} {s : Session}

section Within

variable (hfunctions : ∀ decl, s.ReachesFunction decl → realm.HasFunction decl)
include hfunctions

theorem Reaches.hasValue {value : Value} (h : s.Reaches value) :
    (realm.reachedFrom s).HasValue value := by
  -- a declared function is in the realm by hypothesis; anything else is held by its address
  cases value with
  | array addr => exact .inl h
  | map addr => exact .inl h
  | object addr => exact .inl h
  | func f =>
    obtain ⟨id, routine⟩ := f
    cases routine with
    | native fn => trivial
    | declared decl => exact hfunctions decl (.value h)
  | _ => trivial

variable (hinitials : ∀ decl, s.ReachesClass decl → ∀ property ∈ decl.properties,
  realm.HasInitial property.init)
include hinitials

theorem ReachesClass.hasClass {decl : ClassDecl} (h : s.ReachesClass decl) :
    (realm.reachedFrom s).HasClass decl where
  properties := hinitials decl h
  getters _ hgetter := hfunctions _ (.getter h hgetter)
  methods _ hmethod := hfunctions _ (.method h hmethod)

theorem heap_within : s.heap.Within (realm.reachedFrom s) where
  hasHeap := trivial
  -- an address is one that was reached, or nothing is stored there yet
  items addr haddr v hv := by
    obtain hreached | hnew := haddr
    · exact (Reaches.element hreached hv).hasValue hfunctions
    · rw [Heap.items_eq_nil_of_size_le hnew] at hv
      cases hv
  entries addr haddr := by
    obtain hreached | hnew := haddr
    · exact fun key v hv => (Reaches.entry hreached hv).hasValue hfunctions
    · rw [Heap.entries_eq_empty_of_size_le hnew]
      exact .empty
  classes addr haddr := by
    obtain hreached | hnew := haddr
    · exact (ReachesClass.ofObject hreached).hasClass hfunctions hinitials
    · rw [Heap.object_eq_default_of_size_le hnew]
      exact ⟨(fun _ h => nomatch h), (fun _ h => nomatch h), (fun _ h => nomatch h)⟩
  props addr haddr := by
    obtain hreached | hnew := haddr
    · exact fun name v hv => (Reaches.prop hreached hv).hasValue hfunctions
    · rw [Heap.object_eq_default_of_size_le hnew]
      exact .empty
  arrays _ h := .inr h
  maps _ h := .inr h
  instances _ h := .inr h

/-- **A session at rest is within the realm of what it reaches.** -/
theorem AtRest.within (hs : s.AtRest) : s.Within (realm.reachedFrom s) where
  heap := heap_within hfunctions hinitials
  scopes :=
    { globals := fun _ _ h => (Reaches.global h).hasValue hfunctions
      frames := fun id frame hframe => by
        -- the root frame is the only one
        have hid : id = 0 := by
          have hsize := (Array.getElem?_eq_some_iff.1 hframe).1
          have hdepth : s.scopes.frames.size = 1 := hs.depth
          omega
        subst hid
        have hbare := hs.bare frame hframe
        refine ⟨fun _ _ h => (Reaches.bound hframe h).hasValue hfunctions,
          fun _ _ h => (ReachesClass.bound hframe h).hasClass hfunctions hinitials, ?_, ?_, ?_⟩
        · rw [hbare.receiver]
          exact fun _ h => nomatch h
        · rw [hbare.result]
          exact fun _ h => nomatch h
        · rw [hbare.turn]
          exact fun _ h => nomatch h }
  imports := fun _ _ h => (Reaches.imported h).hasValue hfunctions

end Within

/-- In a fresh session whose global names stand for functions no other functions are reached. -/
theorem ReachesFunction.of_fresh {globals : Entries Value}
    (hfunctions : ∀ name value, globals.get? name = some value → ∃ f, value = .func f)
    {decl : FunctionDecl} (h : (Session.fresh .empty globals).ReachesFunction decl) :
    ∃ name id, globals.get? name = some (.func ⟨id, .declared decl⟩) := by
  -- the only frame is the root frame, which binds nothing
  have hframe : ∀ (id : Nat) (frame : Frame),
      (Session.fresh .empty globals).scopes.frames[id]? = some frame → frame = .fresh none none := by
    intro id frame hid
    cases id with
    | zero => exact (Option.some.inj hid).symm
    | succ id => cases hid
  -- a function holds nothing, so what is reached does not grow
  have hvalue : ∀ value, (Session.fresh .empty globals).Reaches value →
      ∃ name f, globals.get? name = some (.func f) ∧ value = .func f := by
    intro value hreached
    induction hreached with
    | @global name value hglobal =>
      obtain ⟨f, rfl⟩ := hfunctions name value hglobal
      exact ⟨name, f, hglobal, rfl⟩
    | imported himported => cases himported
    | bound hid hbound =>
      rw [hframe _ _ hid] at hbound
      cases hbound
    | element _ _ ih => obtain ⟨-, -, -, ⟨⟩⟩ := ih
    | entry _ _ ih => obtain ⟨-, -, -, ⟨⟩⟩ := ih
    | prop _ _ ih => obtain ⟨-, -, -, ⟨⟩⟩ := ih
  -- there are no objects, and the root frame has no classes
  have hclass : ∀ owner, ¬(Session.fresh .empty globals).ReachesClass owner := by
    intro owner howner
    cases howner with
    | bound hid hbound =>
      rw [hframe _ _ hid] at hbound
      cases hbound
    | ofObject haddr => obtain ⟨-, -, -, ⟨⟩⟩ := hvalue _ haddr
  cases h with
  | @value id _ hreached =>
    obtain ⟨name, f, hglobal, ⟨⟩⟩ := hvalue _ hreached
    exact ⟨name, id, hglobal⟩
  | getter howner => exact absurd howner (hclass _)
  | method howner => exact absurd howner (hclass _)

/-- In a fresh session with one global name, which stands for a function, no other is reached. -/
theorem ReachesFunction.eq_of_fresh {name : String} {id : Nat} {decl other : FunctionDecl}
    (h : (Session.fresh .empty
      (Entries.empty.insert name (.func ⟨id, .declared decl⟩))).ReachesFunction other) :
    other = decl := by
  -- there is one global, whatever name is looked for
  have hglobal : ∀ key value,
      (Entries.empty.insert name (Value.func ⟨id, .declared decl⟩)).get? key = some value →
        value = .func ⟨id, .declared decl⟩ := by
    intro key value hvalue
    rw [Entries.get?_insert] at hvalue
    split at hvalue
    · exact (Option.some.inj hvalue).symm
    · cases hvalue
  obtain ⟨key, number, hbound⟩ := h.of_fresh fun key value hvalue => ⟨_, hglobal key value hvalue⟩
  cases hglobal key _ hbound
  rfl

end Session

/-! ### The size of what is reached -/

theorem Entries.sizeOf_lt_of_get? {α : Type} [SizeOf α] {entries : Entries α} {key : String}
    {value : α} (h : entries.get? key = some value) : sizeOf value < sizeOf entries := by
  have hentry := List.sizeOf_lt_of_mem (Entries.get?_eq_some_iff.1 h)
  cases entries
  simp only [Entries.mk.sizeOf_spec, Prod.mk.sizeOf_spec] at hentry ⊢
  omega

theorem sizeOf_lt_of_getElem? {α : Type} [SizeOf α] {list : Array α} {i : Nat} {value : α}
    (h : list[i]? = some value) : sizeOf value < sizeOf list :=
  Array.sizeOf_lt_of_mem (Array.mem_of_getElem? h)

namespace Heap

variable {heap : Heap} {addr : Nat} {value : Value}

theorem sizeOf_lt_of_mem_items (h : value ∈ heap.items addr) : sizeOf value < sizeOf heap := by
  rw [Heap.items] at h
  -- what is stored nowhere has no items
  cases harray : heap.arrays[addr]? with
  | none =>
    rw [harray] at h
    cases h
  | some items =>
    rw [harray] at h
    have hvalue := List.sizeOf_lt_of_mem h
    have hitems := sizeOf_lt_of_getElem? harray
    cases heap
    simp only [Option.getD_some, Heap.mk.sizeOf_spec] at hvalue hitems ⊢
    omega

theorem sizeOf_lt_of_entry {key : String} (h : (heap.entries addr).get? key = some value) :
    sizeOf value < sizeOf heap := by
  rw [Heap.entries] at h
  cases hmap : heap.maps[addr]? with
  | none =>
    rw [hmap] at h
    cases h
  | some entries =>
    rw [hmap] at h
    have hvalue := Entries.sizeOf_lt_of_get? h
    have hentries := sizeOf_lt_of_getElem? hmap
    cases heap
    simp only [Option.getD_some, Heap.mk.sizeOf_spec] at hvalue hentries ⊢
    omega

/-- An instance is part of the heap, unless nothing stands at its address. -/
theorem object_eq_default_or_sizeOf_lt (heap : Heap) (addr : Nat) :
    heap.object addr = default ∨ sizeOf (heap.object addr) < sizeOf heap := by
  rw [Heap.object]
  cases hobject : heap.instances[addr]? with
  | none => exact .inl rfl
  | some object =>
    have hsize := sizeOf_lt_of_getElem? hobject
    right
    cases heap
    simp only [Option.getD_some, Heap.mk.sizeOf_spec] at hsize ⊢
    omega

theorem sizeOf_lt_of_prop {name : String} (h : (heap.object addr).props.get? name = some value) :
    sizeOf value < sizeOf heap := by
  have hvalue := Entries.sizeOf_lt_of_get? h
  obtain hdefault | hsize := object_eq_default_or_sizeOf_lt heap addr
  · rw [hdefault] at h
    cases h
  · cases hobject : heap.object addr
    rw [hobject] at hvalue hsize
    simp only [Instance.mk.sizeOf_spec] at hvalue hsize
    omega

end Heap

namespace Session

variable {s : Session}

theorem sizeOf_heap_lt (s : Session) : sizeOf s.heap < sizeOf s := by
  cases s
  simp only [Session.mk.sizeOf_spec]
  omega

/-- A frame is part of the session. -/
theorem sizeOf_lt_of_frame {id : Nat} {frame : Frame} (h : s.scopes.frames[id]? = some frame) :
    sizeOf frame < sizeOf s := by
  have hframe := sizeOf_lt_of_getElem? h
  obtain ⟨heap, ⟨globals, frames, current⟩, calls⟩ := s
  simp only [Session.mk.sizeOf_spec, Scopes.mk.sizeOf_spec] at hframe ⊢
  omega

theorem Reaches.sizeOf_lt {value : Value} (h : s.Reaches value) : sizeOf value < sizeOf s := by
  have hheap := s.sizeOf_heap_lt
  -- on the place from which the value is reached: the globals, the imports, a frame or the heap
  cases h with
  | global h =>
    have hvalue := Entries.sizeOf_lt_of_get? h
    obtain ⟨heap, ⟨globals, frames, current⟩, calls⟩ := s
    simp only [Session.mk.sizeOf_spec, Scopes.mk.sizeOf_spec] at hvalue ⊢
    omega
  | imported h =>
    have hvalue := Entries.sizeOf_lt_of_get? h
    cases s
    simp only [Session.mk.sizeOf_spec] at hvalue ⊢
    omega
  | @bound id frame name binding hframe h =>
    have hbinding := Entries.sizeOf_lt_of_get? h
    have hsize := sizeOf_lt_of_frame hframe
    cases frame
    cases binding
    simp only [Frame.mk.sizeOf_spec, Binding.mk.sizeOf_spec] at hbinding hsize ⊢
    omega
  | element haddr h => exact Nat.lt_trans (Heap.sizeOf_lt_of_mem_items h) hheap
  | entry haddr h => exact Nat.lt_trans (Heap.sizeOf_lt_of_entry h) hheap
  | prop haddr h => exact Nat.lt_trans (Heap.sizeOf_lt_of_prop h) hheap

theorem ReachesClass.eq_default_or_sizeOf_lt {decl : ClassDecl} (h : s.ReachesClass decl) :
    decl = (default : Instance).classDecl ∨ sizeOf decl < sizeOf s := by
  -- the class is bound in a frame or it is that of an object, which may be the default one
  cases h with
  | @bound id frame name _ hframe h =>
    have hdecl := Entries.sizeOf_lt_of_get? h
    have hsize := sizeOf_lt_of_frame hframe
    right
    cases frame
    simp only [Frame.mk.sizeOf_spec] at hdecl hsize ⊢
    omega
  | @ofObject addr haddr =>
    obtain hdefault | hobject := Heap.object_eq_default_or_sizeOf_lt s.heap addr
    · exact .inl (congrArg Instance.classDecl hdefault)
    · have hheap := s.sizeOf_heap_lt
      right
      cases hinstance : s.heap.object addr
      rw [hinstance] at hobject
      simp only [Instance.mk.sizeOf_spec] at hobject ⊢
      omega

theorem ReachesClass.sizeOf_initial_lt {decl : ClassDecl} (h : s.ReachesClass decl)
    {property : PropertyDecl} (hproperty : property ∈ decl.properties) :
    sizeOf property.init < sizeOf s := by
  obtain rfl | hdecl := h.eq_default_or_sizeOf_lt
  · cases hproperty
  · have hmem := List.sizeOf_lt_of_mem hproperty
    cases decl
    cases property
    simp only [ClassDecl.mk.sizeOf_spec, PropertyDecl.mk.sizeOf_spec] at hdecl hmem ⊢
    omega

theorem ReachesFunction.sizeOf_body_lt {decl : FunctionDecl} (h : s.ReachesFunction decl) :
    sizeOf decl.body < sizeOf s := by
  -- the function is a value, a getter or a method
  cases h with
  | value h =>
    have hsize := h.sizeOf_lt
    cases decl
    simp only [Value.func.sizeOf_spec, Closure.mk.sizeOf_spec, Routine.declared.sizeOf_spec,
      FunctionDecl.mk.sizeOf_spec] at hsize ⊢
    omega
  | @getter owner getter hclass h =>
    obtain rfl | howner := hclass.eq_default_or_sizeOf_lt
    · cases h
    · have hmem := List.sizeOf_lt_of_mem h
      cases owner
      cases getter
      simp only [ClassDecl.mk.sizeOf_spec, GetterDecl.mk.sizeOf_spec, GetterDecl.asFunction]
        at howner hmem ⊢
      omega
  | @method owner _ hclass h =>
    obtain rfl | howner := hclass.eq_default_or_sizeOf_lt
    · cases h
    · have hmem := List.sizeOf_lt_of_mem h
      cases owner
      cases decl
      simp only [ClassDecl.mk.sizeOf_spec, FunctionDecl.mk.sizeOf_spec] at howner hmem ⊢
      omega

end Session

end DecimalScript
