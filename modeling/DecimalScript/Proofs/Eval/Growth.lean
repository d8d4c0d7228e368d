import DecimalScript.Proofs.Eval.Constructs
import DecimalScript.Proofs.Eval.Course
import DecimalScript.Proofs.Heap.Paths

/-!
# The heap grows

Nothing is ever taken from a heap. What was made stays there, an instance stays one of its class, and
a property that it once got it keeps, though perhaps with another value (`Heap.Grows`). Every step on
the heap keeps this, and so the heaps that have grown from a given one make up a realm that leaves
nothing else out (`Realm.growing`). No evaluation leaves it, whatever code it gets to.

Main result: `nestedWith_grows`.
-/

namespace DecimalScript

/-! ### Heaps -/

/-- What was on the heap is still there: the instances are of their classes and have all the
properties that they had. -/
structure Heap.Grows (heap later : Heap) : Prop where
  holds : ∀ v, heap.Holds v → later.Holds v
  classDecl : ∀ addr, heap.Holds (.object addr) →
    (later.object addr).classDecl = (heap.object addr).classDecl
  props : ∀ addr name, heap.Holds (.object addr) → (heap.object addr).props.contains name = true →
    (later.object addr).props.contains name = true

namespace Heap

variable {heap middle later : Heap}

theorem Grows.refl (heap : Heap) : heap.Grows heap :=
  ⟨fun _ h => h, fun _ _ => rfl, fun _ _ _ h => h⟩

theorem Grows.trans (h : heap.Grows middle) (h' : middle.Grows later) : heap.Grows later where
  holds v hv := h'.holds v (h.holds v hv)
  classDecl addr haddr := (h'.classDecl addr (h.holds _ haddr)).trans (h.classDecl addr haddr)
  props addr name haddr hname :=
    h'.props addr name (h.holds _ haddr) (h.props addr name haddr hname)

theorem Keeps.grows (h : heap.Keeps later) : heap.Grows later where
  holds := h.holds
  classDecl addr haddr := congrArg Instance.classDecl (h.sameAt (.object addr) haddr)
  props addr name haddr hname := by
    rwa [show later.object addr = heap.object addr from h.sameAt (.object addr) haddr]

theorem grows_setProp (heap : Heap) (addr : Nat) (name : String) (value : Value) :
    heap.Grows (heap.setProp addr name value) where
  holds _ := holds_setProp.2
  classDecl other _ := by
    -- a property is set in one object, or nowhere
    obtain heq | heq := object_setProp heap addr name value other <;> rw [heq]
  props other key _ hkey := by
    obtain heq | heq := object_setProp heap addr name value other
    · rwa [heq]
    · rw [heq]
      exact Entries.contains_insert.2 (.inr hkey)

theorem Step.grows (h : heap.Step later) : heap.Grows later := by
  cases h with
  | newArray items => exact (keeps_newArray heap items).grows
  | newMap entries => exact (keeps_newMap heap entries).grows
  | newObject classDecl => exact (keeps_newObject heap classDecl).grows
  | newFunction routine => exact (keeps_newFunction heap routine).grows
  -- the instances are other than the arrays and maps
  | setItems addr items => exact ⟨fun _ => holds_setItems.2, fun _ _ => rfl, fun _ _ _ h => h⟩
  | setEntries addr entries =>
    exact ⟨fun _ => holds_setEntries.2, fun _ _ => rfl, fun _ _ _ h => h⟩
  | setProp addr name value => exact grows_setProp heap addr name value

end Heap

/-! ### Evaluations -/

/-- The realm of everything on the heaps that have grown from the given one. -/
def Realm.growing (start : Heap) : Realm where
  HasArray _ := True
  HasMap _ := True
  HasObject _ := True
  HasFunction _ := True
  HasInitial _ := True
  MayFail _ := True
  MayStop := True
  HasHeap heap := start.Grows heap
  mayFail _ _ := trivial
  hasHeap_step hstep hheap := hheap.trans hstep.grows

variable {start : Heap}

theorem Realm.isTotal_growing : (Realm.growing start).IsTotal :=
  ⟨fun _ => trivial, fun _ => trivial, fun _ => trivial, fun _ => trivial, fun _ => trivial⟩

/-- Every way for a body to end is of the realm. -/
theorem Realm.hasEnd_growing (flow : Flow) : (Realm.growing start).HasEnd flow := by
  cases flow with
  | result value => exact Realm.isTotal_growing.hasValue value
  | _ => trivial

/-- Expressions and statements leave only heaps behind that have grown. -/
structure Nested.Growing (start : Heap) (nested : Nested) : Prop where
  eval : ∀ calls e, nested.EvalStays (.growing start) calls e
  exec : ∀ calls stmt, (nested.exec stmt).Stays (.growing start) calls (Realm.growing start).HasEnd

section Nested

variable {nested : Nested} (hnested : nested.Growing start) (calls : CallStack)
include hnested

theorem block_stays_of_growing (block : Block) :
    (runBlock nested block).Stays (.growing start) calls (Realm.growing start).HasEnd := by
  refine runBlock_stays trivial (fun stmt _ => ?_) fun stmt _ _ => hnested.exec calls stmt
  -- any function and any class may be declared
  unfold Realm.Declares
  split
  · exact Realm.isTotal_growing.hasFunction _
  · exact Realm.isTotal_growing.hasClass _
  · trivial

theorem ready_of_growing : nested.Ready (.growing start) calls :=
  ⟨fun _ deeper _ decl _ => block_stays_of_growing hnested deeper decl.body,
    fun _ deeper _ e _ => hnested.eval deeper e⟩

theorem runsBlocks_of_growing (kind : StmtKind) :
    nested.RunsBlocks (.growing start) calls (Realm.growing start).HasEnd
      (Realm.growing start).HasEnd kind := by
  have hblock := block_stays_of_growing hnested calls
  -- blocks stay among the heaps that grow, whatever they hold
  cases kind with
  | branch first others otherwise =>
    exact ⟨fun arm _ => hblock arm.block, fun block _ => hblock block⟩
  | loop condition body => exact ⟨trivial, hblock body⟩
  | iterate target names body => exact hblock body
  | _ => trivial

end Nested

theorem nestedWith_growing (start : Heap) (fuel : Nat) : (nestedWith fuel).Growing start := by
  -- on the fuel: what may be evaluated with less of it is given
  induction fuel with
  | zero => exact ⟨fun calls e => .outOfFuel trivial, fun calls stmt => .outOfFuel trivial⟩
  | succ fuel ih =>
    refine ⟨fun calls e => ?_, fun calls stmt => ?_⟩
    · exact evalExprWith_stays (ready_of_growing ih calls) e fun part _ => ih.eval calls part
    · have hblocks := runsBlocks_of_growing ih calls stmt.kind
      exact .atLine stmt.line (execKindWith_stays (ready_of_growing ih calls) trivial
        (fun v _ => Realm.hasEnd_growing (.result v)) (fun v _ => Realm.hasEnd_growing (.result v))
        fuel stmt.kind (fun part _ => ih.eval calls part) hblocks)

/-- The session in which an evaluation ended is within the realm. -/
theorem Outcome.Within.within_of_session? {α : Type} {realm : Realm} {calls : CallStack}
    {p : α → Prop} {outcome : Outcome α} (h : outcome.Within realm calls p) {t : Session}
    (ht : outcome.session? = some t) : t.Within realm := by
  cases outcome with
  | done value u =>
    cases ht
    exact h.2.2
  | failed failure u =>
    cases ht
    exact h.2.2
  | outOfFuel => cases ht

/-- **The heap grows with every evaluation**, also with one that fails. -/
theorem nestedWith_grows {fuel : Nat} {e : Expr} {s t : Session}
    (h : (((nestedWith fuel).eval e).run s).session? = some t) : s.heap.Grows t.heap := by
  have hstart : s.Within (.growing s.heap) :=
    Session.within_of_isTotal Realm.isTotal_growing (.refl s.heap)
  have hends := (nestedWith_growing s.heap fuel).eval s.calls e s rfl hstart
  exact (hends.within_of_session? h).heap.hasHeap

end DecimalScript
