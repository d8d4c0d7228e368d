import DecimalScript.Proofs.Eval.Constructs
import DecimalScript.Proofs.Eval.Course

/-!
# Relations between evaluations

To compare two evaluations of the same construct, it is enough to compare how its parts run. A
relation between evaluations is compatible with the constructs (`Exec.Compatible`) if it relates the
primitive steps of the evaluator (`Exec.IsStep`) to themselves, but for a break or a continue that no
loop has taken, relates declarations to themselves, and is kept by the combinators that leave a
failure as it is. Then it relates each construct over one way to run its parts to the same construct
over another, if the two ways are related (`Nested.Related`); this is what the lemmas of this module
say, one for each construct.

What is left out are the two places where a failure gets its location, the statement and the end of a
body. An `Exec.Congruence` relates all primitive steps and is kept by all combinators, and so it
relates statements, bodies and programs as well. What is left for a property of whole runs is the
induction on the fuel.

The least congruence is `Exec.Built`, that an evaluation is put together from primitive steps by the
combinators. Every construct is (`nestedWith_built`), so what every evaluation keeps is proved by
induction on `Exec.Built`, with one case for each combinator and no case for a construct.
-/

namespace DecimalScript

variable {α β : Type}

namespace Exec

/-- The evaluations that a construct is made of, beside those of its parts. -/
inductive IsStep : {α : Type} → Exec α → Prop where
  | pure {α : Type} (value : α) : IsStep (pure value : Exec α)
  | fail {α : Type} (cause : Cause) : IsStep (Exec.fail cause : Exec α)
  | outOfFuel {α : Type} : IsStep (Exec.outOfFuel : Exec α)
  /-- The call stack is not looked at. -/
  | read {α : Type} {f : Session → α} (hf : ∀ s calls, f { s with calls } = f s) :
      IsStep (Exec.read f)
  | onHeap {α : Type} (f : Heap → α × Heap) : IsStep (Exec.onHeap f)
  | tryHeap {α : Type} (f : Heap → Except Cause (α × Heap)) : IsStep (Exec.tryHeap f)
  | setHeap (f : Heap → Heap) : IsStep (Exec.modify fun s => { s with heap := f s.heap })
  | print (f : Heap → Sink → Sink) :
      IsStep (Exec.modify fun s => { s with sink := f s.heap s.sink })
  | probe (tag : String) (value : Value) :
      IsStep (Exec.modify fun s => { s with probes := s.probes.push (tag, value) })
  | setLine (line : Nat) : IsStep (Exec.setLine line)
  | bindName (name : String) (value : Value) (constant : Bool) :
      IsStep (Exec.tryScopes fun scopes => scopes.bind name value constant)
  | bindClass (decl : ClassDecl) : IsStep (Exec.tryScopes fun scopes => scopes.bindClass decl)
  | assign (name : String) (value : Value) :
      IsStep (Exec.tryScopes fun scopes => scopes.assign name value)
  | setTurn (index value : Value) :
      IsStep (Exec.modify fun s => { s with scopes := s.scopes.setTurn index value })
  | setResult (value : Value) :
      IsStep (Exec.modify fun s => { s with scopes := s.scopes.setResult value })
  | takeResult : IsStep DecimalScript.takeResult

theorem IsStep.ofExcept (result : Except Cause α) : (Exec.ofExcept result).IsStep := by
  cases result with
  | ok value => exact .pure value
  | error cause => exact .fail cause

/-- Drops the implicit result of the current frame if the step failed, as the body of a call
does. -/
def droppingResult (x : Exec α) : Exec α :=
  x.afterFailure fun session => { session with scopes := session.scopes.takeResult.2 }

/-- No break and no continue that no loop has taken makes the evaluation fail. -/
def NeverStrays (x : Exec α) : Prop :=
  ∀ (s t : Session) (failure : Failure), x.run s = .failed failure t →
    failure.cause.isStray = false

/-- What stays within the realm of everything never strays. -/
theorem NeverStrays.of_stays {x : Exec α} {p : α → Prop}
    (h : ∀ calls, x.Stays Realm.everything calls p) : x.NeverStrays := by
  intro s t failure hfailed
  have hends := h s.calls s rfl s.within_everything
  rw [hfailed] at hends
  exact hends.1

/-- A relation that is kept by the combinators of which the constructs inside a statement are made.
-/
structure Compatible (rel : (α : Type) → Exec α → Exec α → Prop) : Prop where
  step {α : Type} {x : Exec α} : x.IsStep → x.NeverStrays → rel α x x
  /-- What the session tells may be a cause to fail. -/
  readExcept {α : Type} {f : Session → Except Cause α}
    (hf : ∀ s calls, f { s with calls } = f s) (hresult : ∀ s, Realm.everything.Harmless (f s)) :
    rel α (Exec.read f >>= Exec.ofExcept) (Exec.read f >>= Exec.ofExcept)
  bind {α β : Type} {x y : Exec α} {f g : α → Exec β} :
    rel α x y → (∀ value, rel β (f value) (g value)) → rel β (x >>= f) (y >>= g)
  inFrame {α : Type} {x y : Exec α} (receiver : Option Value) :
    rel α x y → rel α (Exec.inFrame receiver x) (Exec.inFrame receiver y)
  inCall {α : Type} {x y : Exec α} (name : String) :
    rel α x y → rel α (Exec.inCall name x) (Exec.inCall name y)
  hoistStmt (stmt : Stmt) : rel Unit (hoistStmt stmt) (hoistStmt stmt)

/-- A relation that the steps of the evaluator keep. -/
structure Congruence (rel : (α : Type) → Exec α → Exec α → Prop) : Prop where
  step {α : Type} {x : Exec α} : x.IsStep → rel α x x
  bind {α β : Type} {x y : Exec α} {f g : α → Exec β} :
    rel α x y → (∀ value, rel β (f value) (g value)) → rel β (x >>= f) (y >>= g)
  located {α : Type} {x y : Exec α} : rel α x y → rel α x.located y.located
  droppingResult {α : Type} {x y : Exec α} : rel α x y → rel α x.droppingResult y.droppingResult
  atLine {α : Type} {x y : Exec α} (line : Nat) :
    rel α x y → rel α (Exec.atLine line x) (Exec.atLine line y)
  inFrame {α : Type} {x y : Exec α} (receiver : Option Value) :
    rel α x y → rel α (Exec.inFrame receiver x) (Exec.inFrame receiver y)
  inCall {α : Type} {x y : Exec α} (name : String) :
    rel α x y → rel α (Exec.inCall name x) (Exec.inCall name y)

end Exec

/-- What runs inside a construct is related, and so are the bodies of functions. -/
structure Nested.Related (rel : (α : Type) → Exec α → Exec α → Prop) (nested nested' : Nested) :
    Prop where
  eval : ∀ e, rel Value (nested.eval e) (nested'.eval e)
  exec : ∀ stmt, rel Flow (nested.exec stmt) (nested'.exec stmt)
  runBody : ∀ body, rel Value (runBody nested body) (runBody nested' body)

namespace Exec.Compatible

variable {rel : (α : Type) → Exec α → Exec α → Prop} (hrel : Exec.Compatible rel)
include hrel

/-! ### Primitive steps -/

/-- A step that never fails. -/
theorem quiet {x : Exec α} (hx : x.IsStep) (h : ∀ s, (x.run s).cause? = none) : rel α x x := by
  refine hrel.step hx fun s t failure hfailed => ?_
  have hcause := h s
  rw [hfailed] at hcause
  cases hcause

theorem pure (value : α) : rel α (Pure.pure value) (Pure.pure value) :=
  hrel.quiet (.pure value) fun _ => rfl

theorem fail {cause : Cause} (hcause : cause.isStray = false) :
    rel α (Exec.fail cause) (Exec.fail cause) :=
  hrel.step (.fail cause) (.of_stays (p := fun _ => True) fun _ => .fail hcause)

theorem ofExcept {result : Except Cause α} (hresult : Realm.everything.Harmless result) :
    rel α (Exec.ofExcept result) (Exec.ofExcept result) :=
  hrel.step (.ofExcept result) (.of_stays fun _ => .ofExcept hresult)

theorem readSession {f : Session → α} (hf : ∀ s calls, f { s with calls } = f s) :
    rel α (Exec.read f) (Exec.read f) :=
  hrel.quiet (.read hf) fun _ => rfl

/-- What the session tells may be a cause to fail, and otherwise the evaluation goes on with it. -/
theorem readThen {f : Session → Except Cause α} (hf : ∀ s calls, f { s with calls } = f s)
    (hresult : ∀ s, Realm.everything.Harmless (f s)) {g g' : α → Exec β}
    (hg : ∀ value, rel β (g value) (g' value)) :
    rel β (Exec.read f >>= fun result => Exec.ofExcept result >>= g)
      (Exec.read f >>= fun result => Exec.ofExcept result >>= g') := by
  have h := hrel.bind (hrel.readExcept hf hresult) hg
  rwa [bind_assoc, bind_assoc] at h

theorem onHeap (f : Heap → α × Heap) : rel α (Exec.onHeap f) (Exec.onHeap f) :=
  hrel.quiet (.onHeap f) fun _ => rfl

theorem tryHeap {f : Heap → Except Cause (α × Heap)}
    (hf : ∀ heap, Realm.everything.Harmless (f heap)) :
    rel α (Exec.tryHeap f) (Exec.tryHeap f) := by
  refine hrel.step (.tryHeap f) (.of_stays (p := fun _ => True) fun _ => ?_)
  refine .tryHeap fun heap _ => ?_
  exact (hf heap).mono fun result _ => ⟨trivial, result.2.within_everything⟩

theorem bindName (name : String) (value : Value) (constant : Bool) :
    rel Unit (Exec.tryScopes fun scopes => scopes.bind name value constant)
      (Exec.tryScopes fun scopes => scopes.bind name value constant) :=
  hrel.step (.bindName name value constant)
    (.of_stays fun _ => bindName_stays name constant value.hasValue_everything)

theorem assign (name : String) (value : Value) :
    rel Unit (Exec.tryScopes fun scopes => scopes.assign name value)
      (Exec.tryScopes fun scopes => scopes.assign name value) := by
  refine hrel.step (.assign name value) (.of_stays (p := fun _ => True) fun _ => ?_)
  refine .tryScopes trivial fun scopes hscopes => ?_
  exact hscopes.allows_assign name value.hasValue_everything

theorem setProp (addr : Nat) (name : String) (value : Value) :
    rel Unit
      (Exec.modify fun session => { session with heap := session.heap.setProp addr name value })
      (Exec.modify fun session => { session with heap := session.heap.setProp addr name value }) :=
  hrel.quiet (.setHeap (·.setProp addr name value)) fun _ => rfl

/-! ### Constructs without parts -/

theorem pass (byRef : Bool) (value : Value) :
    rel Value (pass byRef value) (pass byRef value) :=
  hrel.onHeap _

theorem bindEach (params : List Param) (args : List Value) :
    rel Unit (bindEach params args) (bindEach params args) := by
  -- on the parameters, for any arguments: what is left over of either list is not bound
  induction params generalizing args with
  | nil => exact hrel.pure ()
  | cons param params ih =>
    cases args with
    | nil => exact hrel.pure ()
    | cons arg args =>
      refine hrel.bind (hrel.pass param.byRef arg) fun value => ?_
      refine hrel.bind (hrel.bindName param.name value _) fun _ => ?_
      exact ih args

theorem bindParams (callee : String) (params : List Param) (args : List Value) :
    rel Unit (bindParams callee params args) (bindParams callee params args) := by
  unfold DecimalScript.bindParams
  split
  · exact hrel.bindEach params args
  · exact hrel.fail rfl

theorem nativeFold (fn : Native) (op : ArithOp) (args : List Value) :
    rel Value (nativeFold fn op args) (nativeFold fn op args) := by
  refine hrel.bind (hrel.ofExcept (foldDecimals_harmless _ _ _)) fun result => ?_
  exact hrel.pure _

theorem runNative (fn : Native) (args : List Value) :
    rel Value (runNative fn args) (runNative fn args) := by
  cases fn with
  | print =>
    -- printing adds to the output, which the relation does not look at
    have hprint := hrel.quiet (.print fun heap sink =>
      sink.println (" ".intercalate (args.map heap.display))) fun _ => rfl
    refine hrel.bind hprint fun _ => ?_
    exact hrel.pure _
  | add => exact hrel.nativeFold _ _ args
  | sub => exact hrel.nativeFold _ _ args
  | mul => exact hrel.nativeFold _ _ args
  | div => exact hrel.nativeFold _ _ args
  | probe =>
    -- the arguments alone decide whether the probe runs
    simp only [DecimalScript.runNative]
    split
    · refine hrel.bind (hrel.quiet (.probe _ _) fun _ => rfl) fun _ => ?_
      exact hrel.pure _
    · exact hrel.fail rfl
    · exact hrel.fail rfl

theorem hoist (block : Block) : rel Unit (hoist block) (hoist block) := by
  induction block with
  | nil => exact hrel.pure ()
  | cons stmt rest ih =>
    refine hrel.bind (hrel.hoistStmt stmt) fun _ => ?_
    exact ih

theorem setParamProps (addr : Nat) (params : List Param) (args : List Value) :
    rel Unit (setParamProps addr params args) (setParamProps addr params args) := by
  -- as for parameters of a function, with a property in the place of a name
  induction params generalizing args with
  | nil => exact hrel.pure ()
  | cons param params ih =>
    cases args with
    | nil => exact hrel.pure ()
    | cons arg args =>
      refine hrel.bind (hrel.pass param.byRef arg) fun value => ?_
      refine hrel.bind (hrel.setProp addr param.name value) fun _ => ?_
      exact ih args

theorem write (slot : Slot) (new : Value) : rel Unit (slot.write new) (slot.write new) := by
  unfold Slot.write
  -- in the realm of everything each write is allowed, so what fails does so with a harmless cause
  cases slot with
  | element addr index =>
    have haddr : Realm.everything.HasArray addr := trivial
    refine hrel.tryHeap fun heap => ?_
    have hwrite := heap.within_everything.allows_writeElement haddr index new.hasValue_everything
    exact hwrite.bind fun _ _ => .pure trivial
  | entry addr key => exact hrel.onHeap _
  | property root name =>
    refine hrel.tryHeap fun heap => ?_
    have hwrite := heap.setProperty_harmless root name new
    exact hwrite.bind fun _ _ => .pure trivial

theorem bindNames (value : Value) (constant byRef : Bool) (names : List String) :
    rel Unit (bindNames value constant byRef names) (bindNames value constant byRef names) := by
  -- the copy made for each name is made in the heap to which the last binding led
  induction names with
  | nil => exact hrel.pure ()
  | cons name rest ih =>
    refine hrel.bind (hrel.pass byRef value) fun bound => ?_
    refine hrel.bind (hrel.bindName name bound constant) fun _ => ?_
    exact ih

theorem runImport (name : String) (localName : Option String) :
    rel Unit (runImport name localName) (runImport name localName) := by
  refine hrel.bind (hrel.readSession fun _ _ => rfl) fun imported => ?_
  cases imported with
  | none => exact hrel.fail rfl
  | some value => exact hrel.bindName _ _ _

theorem bindTurn (names : TurnNames) (index value : Value) :
    rel Unit (bindTurn names index value) (bindTurn names index value) := by
  cases names with
  | none => exact hrel.pure ()
  | value name => exact hrel.bindName _ _ _
  | keyValue keyName valueName =>
    refine hrel.bind (hrel.bindName keyName index _) fun _ => ?_
    exact hrel.bindName valueName value _

/-! ### Blocks -/

section Blocks

variable {nested nested' : Nested} (hexec : ∀ stmt, rel Flow (nested.exec stmt) (nested'.exec stmt))
include hexec

theorem runStmts (block : Block) : rel Flow (runStmts nested block) (runStmts nested' block) := by
  induction block with
  | nil => exact hrel.pure _
  | cons stmt rest ih =>
    rw [DecimalScript.runStmts, DecimalScript.runStmts]
    split
    · exact ih
    · refine hrel.bind (hexec stmt) fun flow => ?_
      -- both go on after a normal end, and both end there after any other
      cases flow with
      | normal => exact ih
      | result value => exact hrel.pure _
      | breakLoop => exact hrel.pure _
      | continueLoop => exact hrel.pure _

theorem runBlock (block : Block) : rel Flow (runBlock nested block) (runBlock nested' block) := by
  refine hrel.bind (hrel.hoist block) fun _ => ?_
  exact hrel.runStmts hexec block

theorem runScoped (block : Block) : rel Flow (runScoped nested block) (runScoped nested' block) :=
  hrel.inFrame none (hrel.runBlock hexec block)

end Blocks

variable {nested nested' : Nested} (hnested : nested.Related rel nested')
include hnested

/-! ### Calls and construction -/

theorem invoke (routine : Routine) (receiver : Option Value) (args : List Value) :
    rel Value (invoke nested routine receiver args) (invoke nested' routine receiver args) := by
  -- the limit is asked before the call, whatever the routine is
  refine hrel.inCall _ ?_
  cases routine with
  | native fn => exact hrel.runNative fn args
  | declared decl =>
    refine hrel.inFrame receiver ?_
    refine hrel.bind (hrel.bindParams _ _ args) fun _ => ?_
    exact hnested.runBody decl.body

theorem initProps (addr : Nat) (decls : List PropertyDecl) :
    rel Unit (initProps nested addr decls) (initProps nested' addr decls) := by
  -- each initializer runs in the state that the last one left
  induction decls with
  | nil => exact hrel.pure ()
  | cons decl rest ih =>
    refine hrel.bind (hnested.eval decl.init) fun value => ?_
    refine hrel.bind (hrel.setProp addr decl.name value) fun _ => ?_
    exact ih

theorem construct (decl : ClassDecl) (args : List Value) :
    rel Value (construct nested decl args) (construct nested' decl args) := by
  unfold DecimalScript.construct
  split
  · refine hrel.bind (hrel.onHeap _) fun addr => ?_
    -- only the first values are evaluated; the parameters set what is there already
    have hinit := hrel.inCall decl.name
      (hrel.inFrame (some (.object addr)) (hrel.initProps hnested addr decl.properties))
    refine hrel.bind hinit fun _ => ?_
    refine hrel.bind (hrel.setParamProps addr decl.params args) fun _ => ?_
    exact hrel.pure _
  · exact hrel.fail rfl

theorem settle (reply : Reply) :
    rel Value (settle nested reply) (settle nested' reply) := by
  cases reply with
  | value value => exact hrel.pure value
  | call routine receiver args => exact hrel.invoke hnested routine receiver args

theorem getProperty (value : Value) (name : String) :
    rel Value (getProperty nested value name) (getProperty nested' value name) := by
  refine hrel.bind (hrel.tryHeap fun heap => heap.property_harmless value name) fun reply => ?_
  exact hrel.settle hnested reply

theorem callMethod (value : Value) (name : String) (args : List Value) :
    rel Value (callMethod nested value name args) (callMethod nested' value name args) := by
  refine hrel.bind (hrel.tryHeap fun heap => heap.method_harmless value name args) fun reply => ?_
  exact hrel.settle hnested reply

/-! ### Expressions -/

theorem evalArgs (args : List Expr) :
    rel (List Value) (evalArgs nested args) (evalArgs nested' args) := by
  -- on the arguments, from left to right
  induction args with
  | nil => exact hrel.pure []
  | cons e rest ih =>
    refine hrel.bind (hnested.eval e) fun value => ?_
    refine hrel.bind ih fun values => ?_
    exact hrel.pure (value :: values)

theorem evalEntries (entries : Entries Value) (pairs : List (Expr × Expr)) :
    rel (Entries Value) (evalEntries nested entries pairs) (evalEntries nested' entries pairs) := by
  -- the entries read so far are any, since a later key may replace an earlier one
  induction pairs generalizing entries with
  | nil => exact hrel.pure entries
  | cons pair rest ih =>
    refine hrel.bind (hnested.eval pair.1) fun keyValue => ?_
    refine hrel.bind (hrel.ofExcept (mapKey_harmless keyValue)) fun key => ?_
    refine hrel.bind (hnested.eval pair.2) fun value => ?_
    exact ih (entries.insert key value)

theorem evalCondition (e : Expr) :
    rel Bool (evalCondition nested e) (evalCondition nested' e) := by
  refine hrel.bind (hnested.eval e) fun value => ?_
  split
  · exact hrel.pure _
  · exact hrel.fail rfl

theorem evalIndexSlot (root index : Expr) :
    rel Slot (evalIndexSlot nested root index) (evalIndexSlot nested' root index) := by
  refine hrel.bind (hnested.eval root) fun container => ?_
  refine hrel.bind (hnested.eval index) fun i => ?_
  exact hrel.ofExcept (allows_atIndex container.hasValue_everything i).harmless

theorem evalPropertySlot (root : Expr) (name : String) :
    rel Slot (evalPropertySlot nested root name) (evalPropertySlot nested' root name) :=
  hrel.bind (hnested.eval root) fun _ => hrel.pure _

theorem read (slot : Slot) : rel Value (slot.read nested) (slot.read nested') := by
  unfold Slot.read
  cases slot with
  | element addr index =>
    have haddr : Realm.everything.HasArray addr := trivial
    refine hrel.tryHeap fun heap => ?_
    have hread := heap.within_everything.allows_readElement haddr index
    exact hread.bind fun _ _ => .pure trivial
  | entry addr key =>
    have haddr : Realm.everything.HasMap addr := trivial
    refine hrel.tryHeap fun heap => ?_
    have hread := heap.within_everything.allows_readEntry haddr key
    exact hread.bind fun _ _ => .pure trivial
  | property root name => exact hrel.getProperty hnested root name

theorem callName (name : String) (args : List Value) :
    rel Value (callName nested name args) (callName nested' name args) := by
  -- a method of the receiver comes before what the name is bound to
  refine hrel.bind (hrel.readSession fun _ _ => rfl) fun found => ?_
  cases found with
  | some found => exact hrel.invoke hnested _ _ args
  | none =>
    refine hrel.readThen (fun _ _ => rfl) (fun s => s.scopes.find_harmless name) fun callee => ?_
    cases callee with
    | func f => exact hrel.invoke hnested _ _ args
    | _ => exact hrel.fail rfl

theorem callValue (callee : Value) (args : List Value) :
    rel Value (callValue nested callee args) (callValue nested' callee args) := by
  cases callee with
  | func f => exact hrel.invoke hnested _ _ args
  | _ =>
    refine hrel.bind (hrel.readSession fun _ _ => rfl) fun text => ?_
    exact hrel.fail rfl

theorem evalCall (callee : Expr) (args : List Expr) :
    rel Value (evalCall nested callee args) (evalCall nested' callee args) := by
  refine hrel.bind (hrel.evalArgs hnested args) fun values => ?_
  -- the arguments are evaluated before the callee
  cases callee with
  | name name => exact hrel.callName hnested name values
  | _ =>
    refine hrel.bind (hnested.eval _) fun function => ?_
    exact hrel.callValue hnested function values

theorem evalConstruct (className : String) (args : List Expr) :
    rel Value (evalConstruct nested className args) (evalConstruct nested' className args) := by
  refine hrel.readThen (fun _ _ => rfl) (fun s => s.scopes.findClass_harmless className)
    fun decl => ?_
  refine hrel.bind (hrel.evalArgs hnested args) fun values => ?_
  exact hrel.construct hnested decl values

theorem evalAssign (target value : Expr) (byRef : Bool) :
    rel Value (evalAssign nested target value byRef) (evalAssign nested' target value byRef) := by
  refine hrel.bind (hnested.eval value) fun v => ?_
  refine hrel.bind (hrel.pass byRef v) fun passed => ?_
  cases target with
  | name name =>
    refine hrel.bind (hrel.assign name passed) fun _ => ?_
    exact hrel.pure passed
  | property root name =>
    refine hrel.bind (hrel.evalPropertySlot hnested root name) fun slot => ?_
    refine hrel.bind (hrel.write slot passed) fun _ => ?_
    exact hrel.pure passed
  | index root index =>
    refine hrel.bind (hrel.evalIndexSlot hnested root index) fun slot => ?_
    refine hrel.bind (hrel.write slot passed) fun _ => ?_
    exact hrel.pure passed
  | _ =>
    -- nothing else can be assigned to, though its value is evaluated all the same
    refine hrel.bind (hrel.fail rfl) fun _ => ?_
    exact hrel.pure passed

theorem evalLogic (op : LogicOp) (left right : Expr) :
    rel Value (evalLogic nested op left right) (evalLogic nested' op left right) := by
  have hleft := hrel.evalCondition hnested left
  have hright : rel Value (do return Value.bool (← DecimalScript.evalCondition nested right))
      (do return Value.bool (← DecimalScript.evalCondition nested' right)) :=
    hrel.bind (hrel.evalCondition hnested right) fun _ => hrel.pure _
  -- where the left operand decides, the right one runs in neither evaluation
  cases op with
  | and =>
    refine hrel.bind hleft fun b => ?_
    cases b with
    | true => exact hright
    | false => exact hrel.pure _
  | or =>
    refine hrel.bind hleft fun b => ?_
    cases b with
    | true => exact hrel.pure _
    | false => exact hright
  | _ =>
    refine hrel.bind (hnested.eval left) fun v => ?_
    refine hrel.bind (hnested.eval right) fun w => ?_
    refine hrel.readThen (fun _ _ => rfl) (fun s => compareValues_harmless _ v w s.heap)
      fun holds => ?_
    exact hrel.pure (Value.bool holds)

theorem evalExprWith (e : Expr) : rel Value (evalExprWith nested e) (evalExprWith nested' e) := by
  -- one case for each kind of expression: its parts are related, and so is what is done with them
  cases e with
  | number text =>
    refine hrel.bind (hrel.ofExcept (parse_harmless text)) fun d => ?_
    exact hrel.pure (Value.dec d)
  | string text => exact hrel.pure (Value.str text)
  | array items =>
    refine hrel.bind (hrel.evalArgs hnested items) fun values => ?_
    exact hrel.onHeap fun heap => heap.newArray values
  | map entries =>
    refine hrel.bind (hrel.evalEntries hnested .empty entries) fun result => ?_
    exact hrel.onHeap fun heap => heap.newMap result
  | name name =>
    -- the scopes are read and nothing else, so the call stack may be another one
    exact hrel.readExcept (fun _ _ => rfl) fun s => s.scopes.find_harmless name
  | this =>
    refine hrel.bind (hrel.readSession fun _ _ => rfl) fun receiver => ?_
    cases receiver with
    | some value => exact hrel.pure value
    | none => exact hrel.fail rfl
  | turn part =>
    refine hrel.bind (hrel.readSession fun _ _ => rfl) fun turn => ?_
    cases turn with
    | some turn =>
      cases part with
      | index => exact hrel.pure turn.1
      | value => exact hrel.pure turn.2
    | none => exact hrel.fail rfl
  | property root name =>
    refine hrel.bind (hrel.evalPropertySlot hnested root name) fun slot => ?_
    exact hrel.read hnested slot
  | index root index =>
    refine hrel.bind (hrel.evalIndexSlot hnested root index) fun slot => ?_
    exact hrel.read hnested slot
  | call callee args => exact hrel.evalCall hnested callee args
  | method root name args =>
    refine hrel.bind (hnested.eval root) fun value => ?_
    refine hrel.bind (hrel.evalArgs hnested args) fun values => ?_
    exact hrel.callMethod hnested value name values
  | construct className args => exact hrel.evalConstruct hnested className args
  | assign target value byRef => exact hrel.evalAssign hnested target value byRef
  | logic op left right => exact hrel.evalLogic hnested op left right
  | negate operand =>
    refine hrel.bind (hrel.evalCondition hnested operand) fun b => ?_
    exact hrel.pure (Value.bool !b)
  | arith op left right =>
    refine hrel.bind (hnested.eval left) fun v => ?_
    refine hrel.bind (hnested.eval right) fun w => ?_
    exact hrel.ofExcept (allows_applyArith op v w).harmless

/-! ### Statements -/

theorem evalInitializer (init : Initializer) :
    rel (Value × Bool) (evalInitializer nested init) (evalInitializer nested' init) := by
  -- what an initializer binds is mutable only in the first and the last case
  cases init with
  | mutable value =>
    refine hrel.bind (hnested.eval value) fun v => ?_
    exact hrel.pure (v, false)
  | constant value =>
    refine hrel.bind (hnested.eval value) fun v => ?_
    exact hrel.pure (v, true)
  | construct className args =>
    refine hrel.bind (hrel.evalConstruct hnested className args) fun v => ?_
    exact hrel.pure (v, false)

theorem runArms (otherwise : Option Block) (arms : List Arm) :
    rel Flow (runArms nested otherwise arms) (runArms nested' otherwise arms) := by
  -- on the arms, since the last of them goes over to the block without a condition
  induction arms with
  | nil =>
    cases otherwise with
    | some block => exact hrel.runScoped hnested.exec block
    | none => exact hrel.pure _
  | cons arm rest ih =>
    refine hrel.bind (hrel.evalCondition hnested arm.condition) fun b => ?_
    split
    · exact hrel.runScoped hnested.exec arm.block
    · exact ih

/-- Both loops may take as many turns, or the second one more if running out of turns is related to
everything. -/
theorem runLoop (condition : Expr) (body : Block) {turns turns' : Nat}
    (hturns : turns = turns' ∨ turns ≤ turns' ∧ ∀ y, rel Flow Exec.outOfFuel y) :
    rel Flow (runLoop nested condition body turns) (runLoop nested' condition body turns') := by
  -- on the number of turns that the first loop has left, which the second has at least
  induction turns generalizing turns' with
  | zero =>
    obtain rfl | ⟨-, hshort⟩ := hturns
    · exact hrel.quiet .outOfFuel fun _ => rfl
    · exact hshort _
  | succ turns ih =>
    obtain ⟨turns', rfl⟩ : ∃ n, turns' = n + 1 := ⟨turns' - 1, by omega⟩
    have hrest : turns = turns' ∨ turns ≤ turns' ∧ ∀ y, rel Flow Exec.outOfFuel y :=
      hturns.imp Nat.succ.inj fun h => ⟨Nat.le_of_succ_le_succ h.1, h.2⟩
    refine hrel.bind (hrel.evalCondition hnested condition) fun b => ?_
    split
    · refine hrel.bind (hrel.runScoped hnested.exec body) fun flow => ?_
      cases flow.endsLoop? with
      | some ended => exact hrel.pure _
      | none => exact ih hrest
    · exact hrel.pure _

theorem runTurns (names : TurnNames) (body : Block) (entries : List (Value × Value)) :
    rel Flow (runTurns nested names body entries) (runTurns nested' names body entries) := by
  -- on the entries that are left; a turn that ends the loop leaves them out
  induction entries with
  | nil => exact hrel.pure _
  | cons entry rest ih =>
    obtain ⟨index, value⟩ := entry
    refine hrel.bind (hrel.inFrame none ?_) fun flow => ?_
    · refine hrel.bind (hrel.quiet (.setTurn index value) fun _ => rfl) fun _ => ?_
      refine hrel.bind (hrel.bindTurn names index value) fun _ => ?_
      exact hrel.runBlock hnested.exec body
    cases flow.endsLoop? with
    | some ended => exact hrel.pure _
    | none => exact ih

theorem execKindWith {turns turns' : Nat}
    (hturns : turns = turns' ∨ turns ≤ turns' ∧ ∀ y, rel Flow Exec.outOfFuel y)
    (kind : StmtKind) :
    rel Flow (execKindWith nested turns kind) (execKindWith nested' turns' kind) := by
  -- one case for each kind of statement; only a loop makes use of the bound on the turns
  cases kind with
  | evaluate value =>
    refine hrel.bind (hnested.eval value) fun v => ?_
    refine hrel.bind (hrel.quiet (.setResult v) fun _ => rfl) fun _ => ?_
    exact hrel.pure Flow.normal
  | declare names init byRef =>
    refine hrel.bind (hrel.evalInitializer hnested init) fun bound => ?_
    refine hrel.bind (hrel.bindNames bound.1 bound.2 byRef names) fun _ => ?_
    exact hrel.pure Flow.normal
  | branch first others otherwise => exact hrel.runArms hnested otherwise _
  | loop condition body => exact hrel.runLoop hnested condition body hturns
  | iterate target names body =>
    refine hrel.bind (hnested.eval target) fun v => ?_
    refine hrel.readThen (fun _ _ => rfl) (fun s => s.heap.turnsOf_harmless v) fun entries => ?_
    exact hrel.runTurns hnested names body entries
  | function decl => exact hrel.pure _
  | classDecl decl => exact hrel.pure _
  | result value =>
    cases value with
    | none => exact hrel.pure _
    | some e =>
      refine hrel.bind (hnested.eval e) fun v => ?_
      exact hrel.pure (Flow.result v)
  | breakLoop => exact hrel.pure _
  | continueLoop => exact hrel.pure _
  | importName name localName =>
    refine hrel.bind (hrel.runImport name localName) fun _ => ?_
    exact hrel.pure Flow.normal

end Exec.Compatible

namespace Exec.Congruence

variable {rel : (α : Type) → Exec α → Exec α → Prop} (hrel : Exec.Congruence rel)
include hrel

/-! ### Where failures are located -/

theorem compatible : Exec.Compatible rel where
  step hx _ := hrel.step hx
  readExcept hf _ := hrel.bind (hrel.step (.read hf)) fun result => hrel.step (.ofExcept result)
  bind := hrel.bind
  inFrame := hrel.inFrame
  inCall := hrel.inCall
  -- to hoist a statement is to set the line and bind what it declares, and the line is not related
  hoistStmt stmt := by
    unfold DecimalScript.hoistStmt
    split
    · refine hrel.bind (hrel.step (.setLine _)) fun _ => ?_
      refine hrel.bind (hrel.step (.onHeap _)) fun f => ?_
      exact hrel.located (hrel.step (.bindName _ f _))
    · refine hrel.bind (hrel.step (.setLine _)) fun _ => ?_
      exact hrel.located (hrel.step (.bindClass _))
    · exact hrel.step (.pure ())

theorem finish (flow : Flow) (implicit : Option Value) :
    rel Value (finish flow implicit) (finish flow implicit) := by
  cases flow with
  | normal => exact hrel.step (.pure _)
  | result value => exact hrel.step (.pure _)
  | breakLoop => exact hrel.located (hrel.step (.fail _))
  | continueLoop => exact hrel.located (hrel.step (.fail _))

/-- The end of a body or a program. -/
theorem finishBody (flow : Flow) :
    rel Value (do DecimalScript.finish flow (← takeResult))
      (do DecimalScript.finish flow (← takeResult)) :=
  hrel.bind (hrel.step .takeResult) fun implicit => hrel.finish flow implicit

variable {nested nested' : Nested}

/-- The bodies of functions are related if their statements are. -/
theorem related (heval : ∀ e, rel Value (nested.eval e) (nested'.eval e))
    (hexec : ∀ stmt, rel Flow (nested.exec stmt) (nested'.exec stmt)) :
    nested.Related rel nested' where
  eval := heval
  exec := hexec
  runBody body := by
    have hblock := hrel.droppingResult (hrel.compatible.runBlock hexec body)
    refine hrel.bind hblock fun flow => ?_
    exact hrel.finishBody flow

variable (hnested : nested.Related rel nested')
include hnested

theorem runProgram (program : Block) :
    rel Value (runProgram nested program) (runProgram nested' program) := by
  refine hrel.bind (hrel.compatible.runBlock hnested.exec program) fun flow => ?_
  exact hrel.finishBody flow

theorem execStmtWith {turns turns' : Nat}
    (hturns : turns = turns' ∨ turns ≤ turns' ∧ ∀ y, rel Flow Exec.outOfFuel y) (stmt : Stmt) :
    rel Flow (execStmtWith nested turns stmt) (execStmtWith nested' turns' stmt) :=
  hrel.atLine stmt.line (hrel.compatible.execKindWith hnested hturns stmt.kind)

end Exec.Congruence

/-! ### Evaluations that are put together from steps -/

/-- The evaluation is put together from primitive steps by the combinators. -/
inductive Exec.Built : {α : Type} → Exec α → Prop where
  | step {α : Type} {x : Exec α} (hx : x.IsStep) : Built x
  | bind {α β : Type} {x : Exec α} {f : α → Exec β} (hx : Built x)
      (hf : ∀ value, Built (f value)) : Built (x >>= f)
  | located {α : Type} {x : Exec α} (hx : Built x) : Built x.located
  | droppingResult {α : Type} {x : Exec α} (hx : Built x) : Built x.droppingResult
  | atLine {α : Type} {x : Exec α} (line : Nat) (hx : Built x) : Built (Exec.atLine line x)
  | inFrame {α : Type} {x : Exec α} (receiver : Option Value) (hx : Built x) :
      Built (Exec.inFrame receiver x)
  | inCall {α : Type} {x : Exec α} (name : String) (hx : Built x) : Built (Exec.inCall name x)

theorem Exec.built_congruence : Exec.Congruence fun _ x _ => x.Built where
  step := .step
  bind := .bind
  located := .located
  droppingResult := .droppingResult
  atLine := .atLine
  inFrame := .inFrame
  inCall := .inCall

/-- What runs inside a construct is put together from primitive steps. -/
abbrev Nested.Built (nested : Nested) : Prop :=
  nested.Related (fun _ x _ => x.Built) nested

/-- **Every evaluation is put together from primitive steps**, by induction on the fuel. -/
theorem nestedWith_built (fuel : Nat) : (nestedWith fuel).Built := by
  -- on the fuel: without any there is one step, and with one more the nested evaluations are built
  induction fuel with
  | zero => exact Exec.built_congruence.related (fun _ => .step .outOfFuel) fun _ => .step .outOfFuel
  | succ fuel ih =>
    refine Exec.built_congruence.related (fun e => ?_) fun stmt => ?_
    · exact Exec.built_congruence.compatible.evalExprWith ih e
    · -- a loop may take as many turns in both, for both are the same evaluation
      exact Exec.built_congruence.execStmtWith ih (.inl rfl) stmt

end DecimalScript
