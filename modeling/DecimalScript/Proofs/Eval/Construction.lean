import DecimalScript.Proofs.Eval.Collections
import DecimalScript.Proofs.Eval.Growth
import DecimalScript.Proofs.Eval.ImplicitResult
import DecimalScript.Proofs.Eval.Restoration
import DecimalScript.Proofs.Heap.Copy

/-!
# Constructions

A construction makes an instance without properties, evaluates the initializers of its class in a
frame of their own, and sets the properties that the parameters name last. `Initialized` tells the
sessions in between, initializer by initializer: each is evaluated in the session in which the one
before it has ended and its value has been set. The arguments are no part of this, for they become
properties only when the last initializer has ended.

An initializer may run any code, and this code may get to the half-built instance and write to it. What
holds of the instance all the same (`UnderConstruction`) comes from two facts about all evaluations:
the frame that has the instance as its receiver is kept, and the heap grows (`Heap.Grows`), so the
instance keeps its class and the properties that were set. To set the properties of the parameters is
a step on the heap alone (`Heap.withArguments`), behind which no code runs any more. What is passed by
value is copied in this step, so the property is equal to the argument and newly made
(`CompleteInstance.equal_and_new`).

Main result: `construct_complete_or_none`.
-/

namespace DecimalScript

/-! ### Initializers -/

/-- The session in which the first initializer is evaluated: the instance has no properties, it is the
receiver, and its construction is a call. -/
def Session.constructing (s : Session) (decl : ClassDecl) (calls : CallStack) : Session :=
  { s with
    heap := (s.heap.newObject decl).2
    scopes := s.scopes.push (some (.object s.heap.instances.size))
    calls }

/-- The initializers of the properties have been evaluated one after another, from the given session
to the last, and each value has been set before the next. -/
inductive Initialized (nested : Nested) (addr : ℕ) (start : Session) :
    List PropertyDecl → Session → Prop where
  | none : Initialized nested addr start [] start
  | next {before : List PropertyDecl} {property : PropertyDecl} {u v : Session} {value : Value}
      (h : Initialized nested addr start before u)
      (hinit : (nested.eval property.init).run u = .done value v) :
      Initialized nested addr start (before ++ [property])
        { v with heap := v.heap.setProp addr property.name value }

section Initializers

variable {nested : Nested} {addr : ℕ} {start s u : Session}

theorem initProps_append (nested : Nested) (addr : ℕ) (first second : List PropertyDecl) :
    initProps nested addr (first ++ second) =
      initProps nested addr first >>= fun _ => initProps nested addr second := by
  induction first with
  | nil => rfl
  | cons property rest ih => simp only [List.cons_append, initProps, ih, bind_assoc]

/-- What the last initializer does, and what is done with its value. -/
theorem run_initProps_singleton (property : PropertyDecl) (s : Session) :
    (initProps nested addr [property]).run s =
      match (nested.eval property.init).run s with
      | .done value t => .done () { t with heap := t.heap.setProp addr property.name value }
      | .failed failure t => .failed failure t
      | .outOfFuel => .outOfFuel := by
  rw [initProps, Exec.run_bind]
  cases (nested.eval property.init).run s <;> rfl

theorem Initialized.run_initProps {decls : List PropertyDecl}
    (h : Initialized nested addr start decls u) :
    (initProps nested addr decls).run start = .done () u := by
  -- on the initializers that have run, the last of which is added at the end
  induction h with
  | none => rfl
  | next _ hinit ih =>
    rw [initProps_append, Exec.run_bind, ih]
    dsimp only
    rw [run_initProps_singleton, hinit]

/-- How the initializers of a class end. -/
inductive InitializersEnd (nested : Nested) (addr : ℕ) (start : Session)
    (decls : List PropertyDecl) : Outcome Unit → Prop where
  | done {u : Session} (h : Initialized nested addr start decls u) :
      InitializersEnd nested addr start decls (.done () u)
  | failed {before after : List PropertyDecl} {property : PropertyDecl} {u v : Session}
      {failure : Failure} (hdecls : decls = before ++ property :: after)
      (h : Initialized nested addr start before u)
      (hfailed : (nested.eval property.init).run u = .failed failure v) :
      InitializersEnd nested addr start decls (.failed failure v)
  | outOfFuel {before after : List PropertyDecl} {property : PropertyDecl} {u : Session}
      (hdecls : decls = before ++ property :: after) (h : Initialized nested addr start before u)
      (hfuel : (nested.eval property.init).run u = .outOfFuel) :
      InitializersEnd nested addr start decls .outOfFuel

/-- By induction on the initializers, the last one split off. -/
theorem initializersEnd (nested : Nested) (addr : ℕ) (start : Session)
    (decls : List PropertyDecl) :
    InitializersEnd nested addr start decls ((initProps nested addr decls).run start) := by
  induction decls using List.reverseRecOn with
  | nil => exact .done .none
  | append_singleton decls last ih =>
    rw [initProps_append, Exec.run_bind]
    generalize (initProps nested addr decls).run start = ended at ih
    cases ih with
    | @done u h =>
      dsimp only
      rw [run_initProps_singleton]
      cases hlast : (nested.eval last.init).run u with
      | done value v => exact .done (.next h hlast)
      | failed failure v => exact .failed rfl h hlast
      | outOfFuel => exact .outOfFuel rfl h hlast
    | failed hdecls h hfailed =>
      -- the last initializer is behind the one that failed
      exact .failed (by rw [hdecls, List.append_assoc, List.cons_append]) h hfailed
    | outOfFuel hdecls h hfuel =>
      exact .outOfFuel (by rw [hdecls, List.append_assoc, List.cons_append]) h hfuel

end Initializers

/-! ### The instance while it is built -/

/-- What holds of a session in which an initializer is evaluated, where `before` are the properties
whose initializers have been evaluated. -/
structure UnderConstruction (decl : ClassDecl) (addr : ℕ) (before : List PropertyDecl)
    (u : Session) : Prop where
  receiver : u.scopes.receiver? = some (.object addr)
  classDecl : (u.heap.object addr).classDecl = decl
  /-- The instance has the properties, and code that reads them there sees them. -/
  props : ∀ property ∈ before, ∃ v, (u.heap.object addr).props.get? property.name = some v ∧
    ∀ n, (evalExpr (n + 2) (.property .this property.name)).run u = .done v u

/-- The current frame answers first. -/
theorem Scopes.receiver?_of_current {scopes : Scopes} {frame : Frame} {v : Value}
    (hframe : scopes.frames[scopes.current]? = some frame) (hreceiver : frame.receiver = some v) :
    scopes.receiver? = some v := by
  have hsize := (Array.getElem?_eq_some_iff.1 hframe).1
  obtain ⟨steps, hsteps⟩ := Nat.exists_eq_add_one.2 (Nat.zero_lt_of_lt hsize)
  rw [receiver?, search, hsteps, searchFrom, hframe]
  simp only [hreceiver]

/-- A property that the receiver has is read from it without a call. -/
theorem run_evalExpr_property_this {s : Session} {addr : ℕ} {name : String} {v : Value}
    (hreceiver : s.scopes.receiver? = some (.object addr))
    (hvalue : (s.heap.object addr).props.get? name = some v) (n : ℕ) :
    (evalExpr (n + 2) (.property .this name)).run s = .done v s := by
  -- first the receiver is evaluated, then the slot is formed, and then it is read
  have hthis : ((nestedWith (n + 1)).eval .this).run s = .done (.object addr) s := by
    change (evalExprWith (nestedWith n) .this).run s = _
    rw [evalExprWith, Exec.run_bind, Exec.run_read, hreceiver]
    rfl
  have hread : s.heap.property (.object addr) name = .ok (.value v, s.heap) := by
    rw [Heap.property, Heap.objectProperty, hvalue]
    rfl
  have hslot : (evalPropertySlot (nestedWith (n + 1)) .this name).run s =
      .done (.property (.object addr) name) s := by
    rw [evalPropertySlot, Exec.run_bind, hthis]
    rfl
  change (evalPropertySlot (nestedWith (n + 1)) .this name >>= fun slot =>
    slot.read (nestedWith (n + 1))).run s = _
  rw [Exec.run_bind, hslot]
  exact run_getProperty_of_value hread

section Building

variable {fuel : ℕ} {addr : ℕ} {decl : ClassDecl} {calls : CallStack} {s start u : Session}
  {before : List PropertyDecl}

/-- The frame of the initializers is kept by all of them. -/
theorem Initialized.receiver?
    (h : Initialized (nestedWith fuel) addr (s.constructing decl calls) before u) :
    u.scopes.receiver? = some (.object s.heap.instances.size) := by
  have hcourse := initProps_follows (nestedWith_follows fuel) addr before _ u
    (by rw [h.run_initProps]; rfl)
  have hkept := (hcourse.kept (by simp [Session.constructing])).scopes
  -- the frame was pushed with the receiver, and none of them changes what it has
  obtain ⟨frame, hframe, hsame⟩ := hkept.inner
    (.fresh (some s.scopes.current) (some (.object s.heap.instances.size)))
    (by simp [Session.constructing, Scopes.push])
  rw [← hkept.current] at hframe
  exact Scopes.receiver?_of_current hframe hsame.receiver

/-- What the initializers run only lets the heap grow. -/
theorem Initialized.grows (h : Initialized (nestedWith fuel) addr start before u) :
    start.heap.Grows u.heap := by
  -- each initializer lets the heap grow, and setting its property does as well
  induction h with
  | none => exact .refl _
  | @next before property u v value _ hinit ih =>
    have hinit' : (((nestedWith fuel).eval property.init).run u).session? = some v := by
      rw [hinit]
      rfl
    exact ih.trans ((nestedWith_grows hinit').trans (Heap.grows_setProp v.heap _ _ _))

/-- By induction on the initializers: each adds its property, and none takes one away. -/
theorem Initialized.contains (h : Initialized (nestedWith fuel) addr start before u)
    (haddr : start.heap.Holds (.object addr)) {property : PropertyDecl}
    (hproperty : property ∈ before) :
    (u.heap.object addr).props.contains property.name = true := by
  induction h with
  | none => cases hproperty
  | @next before last u v value h hinit ih =>
    have hheld := h.grows.holds _ haddr
    have hgrows : u.heap.Grows v.heap := nestedWith_grows (by rw [hinit]; rfl)
    -- what the last one runs takes no property away, and its own is set behind it
    refine (Heap.contains_setProp (hgrows.holds _ hheld) value).2 ?_
    obtain hbefore | hlast := List.mem_append.1 hproperty
    · exact .inr (hgrows.props addr _ hheld (ih hbefore))
    · exact .inl (congrArg PropertyDecl.name (List.mem_singleton.1 hlast))

theorem Session.holds_constructing (s : Session) (decl : ClassDecl) (calls : CallStack) :
    (s.constructing decl calls).heap.Holds (.object s.heap.instances.size) := by
  simp [constructing, Heap.newObject, Heap.Holds]

/-- **Whatever the initializers run, the instance stays one of its class and the receiver, and it has
the properties whose initializers have been evaluated.** -/
theorem Initialized.underConstruction
    (h : Initialized (nestedWith fuel) s.heap.instances.size (s.constructing decl calls) before u) :
    UnderConstruction decl s.heap.instances.size before u where
  receiver := h.receiver?
  classDecl := by
    -- the object is of its class from the beginning, and nothing changes the class of an object
    rw [h.grows.classDecl _ (s.holds_constructing decl calls), Session.constructing,
      Heap.object_newObject, if_pos rfl]
  props property hproperty := by
    have hcontains := h.contains (s.holds_constructing decl calls) hproperty
    obtain ⟨v, hv⟩ := Option.isSome_iff_exists.1 hcontains
    exact ⟨v, hv, run_evalExpr_property_this h.receiver? hv⟩

end Building

/-! ### The properties of the parameters -/

/-- The heap after the properties that the parameters name have been set to the arguments. -/
def Heap.withArguments (addr : ℕ) : List Param → List Value → Heap → Heap
  | param :: params, arg :: args, heap =>
    withArguments addr params args
      ((heap.pass param.byRef arg).2.setProp addr param.name (heap.pass param.byRef arg).1)
  | _, _, heap => heap

theorem run_setParamProps (addr : ℕ) (params : List Param) (args : List Value) (s : Session) :
    (setParamProps addr params args).run s =
      .done () { s with heap := s.heap.withArguments addr params args } := by
  -- on the parameters, in whatever state the others left
  induction params generalizing args s with
  | nil => rfl
  | cons param params ih =>
    cases args with
    | nil => rfl
    | cons arg args => exact ih args _

/-- What goes by reference is passed as it is, and of anything else a copy, made somewhere between the
two heaps; from one to the other nothing is written but the instance. -/
inductive Heap.Handed (addr : ℕ) (heap later : Heap) : Bool → Value → Value → Prop where
  | byRef (arg : Value) : Handed addr heap later true arg arg
  | byValue {middle copied : Heap} {arg copy : Value}
      (hbefore : heap.KeepsBut middle (.object addr)) (hcopy : middle.copy arg = (copy, copied))
      (hafter : copied.KeepsBut later (.object addr)) : Handed addr heap later false arg copy

namespace Heap

variable {addr : ℕ} {heap middle later : Heap} {params : List Param} {args : List Value}

theorem KeepsBut.trans {receiver : Value} (h : heap.KeepsBut middle receiver)
    (h' : middle.KeepsBut later receiver) : heap.KeepsBut later receiver :=
  ⟨fun v hv => h'.holds v (h.holds v hv),
    fun v hv hne => (h.sameAt v hv hne).trans (h'.sameAt v (h.holds v hv) hne)⟩

theorem keepsBut_setProp (heap : Heap) (addr : ℕ) (name : String) (value : Value) :
    heap.KeepsBut (heap.setProp addr name value) (.object addr) :=
  ⟨fun _ => holds_setProp.2, fun _ _ hne => sameAt_setProp name value hne⟩

theorem KeepsBut.keepsParts (h : heap.KeepsBut later (.object addr)) : heap.KeepsParts later where
  holds := h.holds
  sameAt v hcontainer hv := h.sameAt v hv (by rintro rfl; exact hcontainer)

/-- What each step keeps is kept altogether, by induction on the parameters. -/
theorem rel_withArguments (rel : Heap → Heap → Prop)
    (htrans : ∀ {heap middle later}, rel heap middle → rel middle later → rel heap later)
    (hkeeps : ∀ {heap later : Heap}, heap.Keeps later → rel heap later)
    (hset : ∀ (heap : Heap) name value, rel heap (heap.setProp addr name value))
    (params : List Param) (args : List Value) (heap : Heap) :
    rel heap (heap.withArguments addr params args) := by
  -- on the parameters: a copy, a property and then the rest
  induction params generalizing args heap with
  | nil => exact hkeeps (.refl heap)
  | cons param params ih =>
    cases args with
    | nil => exact hkeeps (.refl heap)
    | cons arg args =>
      have hpass := hkeeps (keeps_pass heap param.byRef arg)
      exact htrans (htrans hpass (hset _ param.name _)) (ih args _)

theorem keepsBut_withArguments (addr : ℕ) (params : List Param) (args : List Value) (heap : Heap) :
    heap.KeepsBut (heap.withArguments addr params args) (.object addr) :=
  rel_withArguments (fun heap later => heap.KeepsBut later (.object addr)) KeepsBut.trans
    (fun hkeeps => hkeeps.keepsBut _) (keepsBut_setProp · addr) params args heap

theorem grows_withArguments (addr : ℕ) (params : List Param) (args : List Value) (heap : Heap) :
    heap.Grows (heap.withArguments addr params args) :=
  rel_withArguments Grows Grows.trans Keeps.grows (grows_setProp · addr) params args heap

/-- Properties that no parameter names are left as they were. -/
theorem get?_withArguments_of_ne {name : String} (haddr : heap.Holds (.object addr))
    (hname : ∀ param ∈ params, param.name ≠ name) :
    ((heap.withArguments addr params args).object addr).props.get? name =
      (heap.object addr).props.get? name := by
  -- the parameters have other names, so the property is not written
  induction params generalizing args heap with
  | nil => rfl
  | cons param params ih =>
    obtain ⟨hne, hrest⟩ := List.forall_mem_cons.1 hname
    cases args with
    | nil => rfl
    | cons arg args =>
      have hpass := keeps_pass heap param.byRef arg
      have hheld := hpass.holds _ haddr
      have hsame : (heap.pass param.byRef arg).2.object addr = heap.object addr :=
        hpass.sameAt _ haddr
      refine (ih (holds_setProp.2 hheld) hrest).trans ?_
      rw [object_setProp_of_lt hheld, if_pos rfl, Entries.get?_insert, if_neg hne.symm, hsame]

/-- As many arguments as parameters give every parameter its property. -/
theorem contains_withArguments (haddr : heap.Holds (.object addr))
    (hlength : params.length = args.length) {param : Param} (hparam : param ∈ params) :
    ((heap.withArguments addr params args).object addr).props.contains param.name = true := by
  -- on the parameters, each of which is set in its turn
  induction params generalizing args heap with
  | nil => cases hparam
  | cons first params ih =>
    cases args with
    | nil => cases hlength
    | cons arg args =>
      have hheld := (keeps_pass heap first.byRef arg).holds _ haddr
      rw [withArguments]
      obtain rfl | hrest := List.mem_cons.1 hparam
      · -- later arguments may take its place, but no property is lost
        have hset := (contains_setProp hheld (heap.pass param.byRef arg).1).2
          (.inl (Eq.refl param.name))
        exact (grows_withArguments addr params args _).props _ _ (holds_setProp.2 hheld) hset
      · exact ih (holds_setProp.2 hheld) (Nat.succ.inj hlength) hrest

theorem Handed.of_keepsBut {byRef : Bool} {arg v : Value} (h : Handed addr middle later byRef arg v)
    (hkeeps : heap.KeepsBut middle (.object addr)) : Handed addr heap later byRef arg v := by
  cases h with
  | byRef => exact .byRef arg
  | byValue hbefore hcopy hafter => exact .byValue (hkeeps.trans hbefore) hcopy hafter

/-- What goes by value is a copy, whatever is written to the instance before it is made and after. -/
theorem Handed.isCopy {arg v : Value} (h : Handed addr heap later false arg v)
    (hclosed : heap.Closed) (harg : heap.Holds arg) : IsCopy heap later copyLevels arg v := by
  cases h with
  | @byValue middle copied _ _ hbefore hcopy hafter =>
    obtain ⟨-, hlevels⟩ := copies_copyWithin hclosed copyLevels arg harg middle hbefore.keepsParts
    rw [show copyWithin copyLevels arg middle = (v, copied) from hcopy] at hlevels
    exact hlevels.keeps hafter.keepsParts

/-- **What goes by value is equal to the argument and newly made**, its arrays and maps at most 64
steps deep. -/
theorem Handed.equal_and_new {arg v : Value} (h : Handed addr heap later false arg v)
    (hkeeps : heap.KeepsBut later (.object addr)) (hclosed : heap.Closed) (harg : heap.Holds arg) :
    later.equal arg v = true ∧ ∀ n ≤ 64, ∀ u, Reaches later.parts v n u → u.IsContainer →
      ¬heap.Holds u ∧ later.Holds u := by
  have hlevels := h.isCopy hclosed harg
  refine ⟨equal_of_isCopy hclosed hkeeps.keepsParts harg hlevels, fun n hn u hu hcontainer => ?_⟩
  have hnew := (hlevels.of_reaches hclosed hkeeps.keepsParts harg hu hcontainer).1
  exact hnew (Nat.lt_succ_of_le hn)

/-- The value that an argument is passed as. -/
theorem handed_pass (addr : ℕ) {byRef : Bool} {arg : Value}
    (hbefore : heap.KeepsBut middle (.object addr))
    (hafter : (middle.pass byRef arg).2.KeepsBut later (.object addr)) :
    Handed addr heap later byRef arg (middle.pass byRef arg).1 := by
  cases byRef with
  | true => exact .byRef arg
  | false => exact .byValue hbefore rfl hafter

/-- The last parameter of a name decides what the property holds. -/
theorem get?_withArguments (haddr : heap.Holds (.object addr)) {i : ℕ} {param : Param} {arg : Value}
    (hparam : params[i]? = some param) (harg : args[i]? = some arg)
    (hlast : ∀ other ∈ params.drop (i + 1), other.name ≠ param.name) :
    ∃ v, ((heap.withArguments addr params args).object addr).props.get? param.name = some v ∧
      Handed addr heap (heap.withArguments addr params args) param.byRef arg v := by
  -- on the parameters, down to the one that is asked for
  induction params generalizing args heap i with
  | nil => cases hparam
  | cons first params ih =>
    cases args with
    | nil => cases harg
    | cons value args =>
      -- passing the first argument leaves the object as it was, and then one property of it is set
      have hpass := keeps_pass heap first.byRef value
      have hheld := hpass.holds _ haddr
      have hset := keepsBut_setProp (heap.pass first.byRef value).2 addr first.name
        (heap.pass first.byRef value).1
      cases i with
      | zero =>
        cases hparam
        cases harg
        rw [withArguments]
        refine ⟨(heap.pass param.byRef arg).1, ?_, ?_⟩
        · -- what comes behind names other properties
          refine (get?_withArguments_of_ne (holds_setProp.2 hheld) hlast).trans ?_
          rw [object_setProp_of_lt hheld, if_pos rfl, Entries.get?_insert, if_pos rfl]
        · -- the value was handed over from the heap that is there, and the rest changes this object
          -- only
          exact handed_pass addr ((Keeps.refl heap).keepsBut _)
            (hset.trans (keepsBut_withArguments addr params args _))
      | succ i =>
        obtain ⟨v, hv, hhanded⟩ := ih (holds_setProp.2 hheld) hparam harg hlast
        exact ⟨v, hv, hhanded.of_keepsBut ((hpass.keepsBut _).trans hset)⟩

end Heap

/-! ### Complete instances -/

/-- What holds of an instance of the class on the later heap, where `initialized` is the heap that its
initializers have left. -/
structure CompleteInstance (decl : ClassDecl) (args : List Value) (addr : ℕ)
    (initialized later : Heap) : Prop where
  classDecl : (later.object addr).classDecl = decl
  declared : ∀ property ∈ decl.properties,
    (later.object addr).props.contains property.name = true
  named : ∀ param ∈ decl.params, (later.object addr).props.contains param.name = true
  /-- Of several parameters of one name the last one counts. -/
  parameters : ∀ i param arg, decl.params[i]? = some param → args[i]? = some arg →
    (∀ other ∈ decl.params.drop (i + 1), other.name ≠ param.name) →
    ∃ v, (later.object addr).props.get? param.name = some v ∧
      Heap.Handed addr initialized later param.byRef arg v
  others : ∀ name, (∀ param ∈ decl.params, param.name ≠ name) →
    (later.object addr).props.get? name = (initialized.object addr).props.get? name
  keepsBut : initialized.KeepsBut later (.object addr)

/-- A property that a parameter by value names has a copy of its argument: it is equal to the argument,
and no array or map in it, at most 64 steps deep, was there when the initializers had ended. -/
theorem CompleteInstance.equal_and_new {decl : ClassDecl} {args : List Value} {addr : ℕ}
    {initialized later : Heap} (h : CompleteInstance decl args addr initialized later) {i : ℕ}
    {param : Param} {arg : Value} (hparam : decl.params[i]? = some param) (harg : args[i]? = some arg)
    (hlast : ∀ other ∈ decl.params.drop (i + 1), other.name ≠ param.name)
    (hbyValue : param.byRef = false) (hclosed : initialized.Closed) (hheld : initialized.Holds arg) :
    ∃ v, (later.object addr).props.get? param.name = some v ∧ later.equal arg v = true ∧
      ∀ n ≤ 64, ∀ u, Heap.Reaches later.parts v n u → u.IsContainer →
        ¬initialized.Holds u ∧ later.Holds u := by
  -- the value is the one that was handed over, and in this case it is a copy
  obtain ⟨v, hv, hhanded⟩ := h.parameters i param arg hparam harg hlast
  rw [hbyValue] at hhanded
  exact ⟨v, hv, hhanded.equal_and_new h.keepsBut hclosed hheld⟩

/-- The instance is complete when the properties that the parameters name are set. -/
theorem Initialized.completeInstance {fuel : ℕ} {decl : ClassDecl} {args : List Value}
    {calls : CallStack} {s u : Session} (hlength : decl.params.length = args.length)
    (h : Initialized (nestedWith fuel) s.heap.instances.size (s.constructing decl calls)
      decl.properties u) :
    CompleteInstance decl args s.heap.instances.size u.heap
      (u.heap.withArguments s.heap.instances.size decl.params args) := by
  have hstart := s.holds_constructing decl calls
  -- after all the code that the initializers ran the instance is still where it was made
  have hheld := h.grows.holds _ hstart
  have hgrows := u.heap.grows_withArguments s.heap.instances.size decl.params args
  constructor
  case classDecl => exact (hgrows.classDecl _ hheld).trans h.underConstruction.classDecl
  case declared =>
    exact fun property hproperty => hgrows.props _ _ hheld (h.contains hstart hproperty)
  case named => exact fun param hparam => Heap.contains_withArguments hheld hlength hparam
  case parameters =>
    exact fun i param arg hparam harg hlast => Heap.get?_withArguments hheld hparam harg hlast
  case others => exact fun name hname => Heap.get?_withArguments_of_ne hheld hname
  case keepsBut => exact u.heap.keepsBut_withArguments _ decl.params args

/-! ### Constructions -/

/-- How a construction ends if the initializers have ended: as they have, with a complete instance or
with none. The frame and the call are left in any case. -/
inductive Constructed (decl : ClassDecl) (args : List Value) (addr : ℕ) :
    Outcome Unit → Outcome Value → Prop where
  | complete {u : Session} {later : Heap} (h : CompleteInstance decl args addr u.heap later) :
      Constructed decl args addr (.done () u)
        (.done (.object addr)
          { u with heap := later, scopes := u.scopes.pop, calls := u.calls.pop })
  | failed (failure : Failure) (u : Session) :
      Constructed decl args addr (.failed failure u)
        (.failed failure { u with scopes := u.scopes.pop, calls := u.calls.pop })
  | outOfFuel : Constructed decl args addr .outOfFuel .outOfFuel

section Construct

variable {decl : ClassDecl} {args : List Value} {s : Session}

/-- Without the right number of arguments nothing is run. -/
theorem run_construct_of_mismatch (nested : Nested) (hlength : decl.params.length ≠ args.length) :
    (construct nested decl args).run s =
      .failed (.ofCause (.argumentsMismatched decl.name decl.params.length args.length)) s := by
  rw [construct, if_neg hlength]
  rfl

theorem run_construct_of_refused (nested : Nested) (hlength : decl.params.length = args.length)
    {cause : Cause} (hpush : s.calls.push decl.name = .error cause) :
    (construct nested decl args).run s =
      .failed (.ofCause cause) { s with heap := (s.heap.newObject decl).2 } := by
  rw [construct, if_pos hlength, Exec.run_bind]
  simp only [Exec.onHeap, Exec.run, Exec.inCall, bind, Exec.bind, hpush]

theorem Exec.run_inCall_of_push {α : Type} {x : Exec α} {name : String} {calls : CallStack}
    (hpush : s.calls.push name = .ok calls) :
    (Exec.inCall name x).run s =
      (x.afterwards fun t => { t with calls := t.calls.pop }).run { s with calls } := by
  simp only [Exec.inCall, Exec.run, hpush]

/-- The initializers run in a frame and in a call of their own. -/
theorem run_initializers (nested : Nested) {calls : CallStack}
    (hpush : s.calls.push decl.name = .ok calls) :
    (Exec.inCall decl.name (Exec.inFrame (some (.object s.heap.instances.size))
        (initProps nested s.heap.instances.size decl.properties))).run
      { s with heap := (s.heap.newObject decl).2 } =
      match (initProps nested s.heap.instances.size decl.properties).run
        (s.constructing decl calls) with
      | .done value u => .done value { u with scopes := u.scopes.pop, calls := u.calls.pop }
      | .failed failure u => .failed failure { u with scopes := u.scopes.pop, calls := u.calls.pop }
      | .outOfFuel => .outOfFuel := by
  -- the call and the frame are both taken back, in this order, however the initializers end
  rw [Exec.run_inCall_of_push (s := { s with heap := (s.heap.newObject decl).2 }) hpush]
  change (((initProps nested s.heap.instances.size decl.properties).afterwards
    fun u => { u with scopes := u.scopes.pop }).afterwards
    fun u => { u with calls := u.calls.pop }) (s.constructing decl calls) = _
  simp only [Exec.afterwards, Exec.run]
  cases initProps nested s.heap.instances.size decl.properties (s.constructing decl calls) <;> rfl

/-- A construction ends as the initializers do, with a complete instance or with none. -/
theorem constructed (fuel : ℕ) (hlength : decl.params.length = args.length) {calls : CallStack}
    (hpush : s.calls.push decl.name = .ok calls) :
    Constructed decl args s.heap.instances.size
      ((initProps (nestedWith fuel) s.heap.instances.size decl.properties).run
        (s.constructing decl calls))
      ((construct (nestedWith fuel) decl args).run s) := by
  -- the frame and the call around the initializers are opened up, and the rest follows in sequence
  rw [construct, if_pos hlength]
  change Constructed decl args _ _ ((Exec.inCall decl.name (Exec.inFrame _
    (initProps (nestedWith fuel) s.heap.instances.size decl.properties)) >>= fun _ =>
      setParamProps s.heap.instances.size decl.params args >>= fun _ =>
        pure (Value.object s.heap.instances.size)).run
      { s with heap := (s.heap.newObject decl).2 })
  rw [Exec.run_bind, run_initializers (nestedWith fuel) hpush]
  have hended := initializersEnd (nestedWith fuel) s.heap.instances.size (s.constructing decl calls)
    decl.properties
  generalize (initProps (nestedWith fuel) s.heap.instances.size decl.properties).run
    (s.constructing decl calls) = ended at hended ⊢
  cases hended with
  | @done u h =>
    -- from here on no code runs, so nothing fails any more
    dsimp only
    rw [Exec.run_bind, run_setParamProps]
    exact .complete (h.completeInstance hlength)
  | failed => exact .failed _ _
  | outOfFuel => exact .outOfFuel

end Construct

/-- **A construction yields a complete instance or none.** With another number of arguments than the
constructor has parameters it fails and changes nothing, whatever an evaluation of the initializers
would do, and so it fails where no further call is allowed. Otherwise the initializers are evaluated in
order. Whatever code they run, each is evaluated in a session in which the instance is the receiver,
is of its class and has the properties of those before. How they end is the same for all arguments. If
all of them give a value, the instance is complete, and if one fails, the construction fails with it. -/
theorem construct_complete_or_none (fuel : ℕ) (decl : ClassDecl) (s : Session) :
    (∀ args, decl.params.length ≠ args.length → ∀ nested, (construct nested decl args).run s =
      .failed (.ofCause (.argumentsMismatched decl.name decl.params.length args.length)) s) ∧
    (∀ cause, s.calls.push decl.name = .error cause →
      ∀ args, decl.params.length = args.length → ∀ nested, (construct nested decl args).run s =
        .failed (.ofCause cause) { s with heap := (s.heap.newObject decl).2 }) ∧
    ∀ calls, s.calls.push decl.name = .ok calls →
      (∀ before u, Initialized (nestedWith fuel) s.heap.instances.size (s.constructing decl calls)
          before u → UnderConstruction decl s.heap.instances.size before u) ∧
      ∃ ended, InitializersEnd (nestedWith fuel) s.heap.instances.size (s.constructing decl calls)
          decl.properties ended ∧
        ∀ args, decl.params.length = args.length →
          Constructed decl args s.heap.instances.size ended
            ((construct (nestedWith fuel) decl args).run s) := by
  refine ⟨fun args hlength nested => run_construct_of_mismatch nested hlength,
    fun cause hpush args hlength nested => run_construct_of_refused nested hlength hpush,
    fun calls hpush => ⟨fun before u h => h.underConstruction, ?_⟩⟩
  have hended := initializersEnd (nestedWith fuel) s.heap.instances.size (s.constructing decl calls)
    decl.properties
  exact ⟨_, hended, fun args hlength => constructed fuel hlength hpush⟩

/-- A class whose second initializer reads the property of the first and assigns to the one that both
parameters name. -/
def assigningClass : ClassDecl where
  name := "C"
  properties :=
    [⟨"a", .string "first"⟩, ⟨"b", .assign (.property .this "p") (.property .this "a") true⟩]
  params := [⟨"p", false⟩, ⟨"p", true⟩]
  getters := []
  methods := []

/-- The assignment is overridden by the last argument. Without arguments nothing is constructed, nor
where no call is allowed. -/
theorem assigned_property_overridden :
    let session := Session.fresh .empty .empty
    let refusing : Session := { session with calls := .ofLimit (some 0) }
    let calls : CallStack := { session.calls with names := ["C"] }
    let args := [.null, .bool true]
    (assigningClass.params.length ≠ ([] : List Value).length ∧
      (construct (nestedWith 4) assigningClass []).run session =
        .failed (.ofCause (.argumentsMismatched "C" 2 0)) session) ∧
    assigningClass.params.length = args.length ∧
    (refusing.calls.push "C" = .error (.callsTooDeep 0) ∧
      (construct (nestedWith 4) assigningClass args).run refusing =
        .failed (.ofCause (.callsTooDeep 0))
          { refusing with heap := (Heap.empty.newObject assigningClass).2 }) ∧
    session.calls.push "C" = .ok calls ∧
    (∃ u, Initialized (nestedWith 4) 0 (session.constructing assigningClass calls)
        [⟨"a", .string "first"⟩] u ∧
      UnderConstruction assigningClass 0 [⟨"a", .string "first"⟩] u) ∧
    ∃ u t : Session, (construct (nestedWith 4) assigningClass args).run session =
        .done (.object 0) t ∧
      CompleteInstance assigningClass args 0 u.heap t.heap ∧
      (t.heap.object 0).props.get? "p" = some (.bool true) := by
  intro session refusing calls args
  have hmismatch : assigningClass.params.length ≠ ([] : List Value).length := by decide
  have hlength : assigningClass.params.length = args.length := rfl
  have hrefused : refusing.calls.push "C" = .error (.callsTooDeep 0) := rfl
  have hpush : session.calls.push "C" = .ok calls := rfl
  have hfirst : Initialized (nestedWith 4) 0 (session.constructing assigningClass calls)
      [⟨"a", .string "first"⟩] _ := .next .none rfl
  obtain ⟨hbuilding, ended, -, hends⟩ :=
    (construct_complete_or_none 4 assigningClass session).2.2 calls hpush
  refine ⟨⟨hmismatch, ?_⟩, hlength, ⟨hrefused, ?_⟩, hpush, ⟨_, hfirst, hbuilding _ _ hfirst⟩, ?_⟩
  · exact (construct_complete_or_none 4 assigningClass session).1 [] hmismatch _
  · exact (construct_complete_or_none 4 assigningClass refusing).2.1 _ hrefused args hlength _
  · have hsome :
        ((construct (nestedWith 4) assigningClass args).run session).value?.isSome = true := by
      decide +kernel
    obtain ⟨value, hvalue⟩ := Option.isSome_iff_exists.1 hsome
    obtain ⟨t, hrun⟩ := Outcome.exists_of_value? hvalue
    have hend := hends args hlength
    rw [hrun] at hend
    cases hend with
    | @complete u _ hcomplete =>
      refine ⟨u, _, hrun, hcomplete, ?_⟩
      obtain ⟨v, hv, hhanded⟩ := hcomplete.parameters 1 ⟨"p", true⟩ (.bool true) rfl rfl
        fun other hother => nomatch hother
      cases hhanded
      exact hv

end DecimalScript
