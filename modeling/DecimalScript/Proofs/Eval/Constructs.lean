import DecimalScript.Proofs.Eval.Realm

/-!
# The constructs within a realm

Each construct of the evaluator stays within the realm if its parts do. The parts of an expression or
of a statement run on the same call stack. The other code that it can get to, the bodies of functions
and the first values of properties, runs on a call stack with one more call (`Nested.Ready`), and this
is the only way to such code.

The rules leave open why the parts stay within the realm. An argument about all code that can be
reached chooses a realm and does the induction over these rules: on the fuel, say, or on how much of it
a part may need.
-/

namespace DecimalScript

namespace Realm

variable (realm : Realm)

/-- The ways in which the statements of a body may end, where no loop takes a break. -/
def HasEnd : Flow → Prop
  | .normal => True
  | .result value => realm.HasValue value
  | .breakLoop => realm.MayFail .strayBreak
  | .continueLoop => realm.MayFail .strayContinue

theorem hasValue_none : ∀ v ∈ (none : Option Value), realm.HasValue v :=
  fun _ h => nomatch h

/-- The realm has what the statement declares, if it declares a function or a class. -/
def Declares (stmt : Stmt) : Prop :=
  match stmt.kind with
  | .function decl => realm.HasFunction decl
  | .classDecl decl => realm.HasClass decl
  | _ => True

/-- The slots of the realm. -/
def HasSlot : Slot → Prop
  | .element addr _ => realm.HasArray addr
  | .entry addr _ => realm.HasMap addr
  | .property root _ => realm.HasValue root

end Realm

variable {realm : Realm} {calls : CallStack}

open Exec (Stays)

/-! ### Calls -/

theorem pass_stays (byRef : Bool) {value : Value} (hvalue : realm.HasValue value) :
    (pass byRef value).Stays realm calls realm.HasValue :=
  .onHeap fun _ hheap => hheap.pass byRef hvalue

theorem bindName_stays (name : String) {value : Value} (constant : Bool)
    (hvalue : realm.HasValue value) :
    (Exec.tryScopes fun scopes => scopes.bind name value constant).Stays realm calls
      fun _ => True :=
  .tryScopes trivial fun _ hscopes => hscopes.allows_bind name constant hvalue

theorem bindEach_stays (params : List Param) {args : List Value}
    (hargs : ∀ v ∈ args, realm.HasValue v) :
    (bindEach params args).Stays realm calls fun _ => True := by
  -- on the parameters, each of which takes an argument with it
  induction params generalizing args with
  | nil => exact .pure trivial
  | cons param params ih =>
    cases args with
    | nil => exact .pure trivial
    | cons arg args =>
      obtain ⟨harg, hrest⟩ := List.forall_mem_cons.1 hargs
      refine (pass_stays param.byRef harg).bind fun value hvalue => ?_
      refine (bindName_stays _ _ hvalue).bind fun _ _ => ?_
      exact ih hrest

theorem bindParams_stays (callee : String) (params : List Param) {args : List Value}
    (hargs : ∀ v ∈ args, realm.HasValue v) :
    (bindParams callee params args).Stays realm calls fun _ => True := by
  unfold bindParams
  split
  · exact bindEach_stays params hargs
  · exact .fail (realm.mayFail _ rfl)

theorem nativeFold_stays (fn : Native) (op : ArithOp) (args : List Value) :
    (nativeFold fn op args).Stays realm calls realm.HasValue := by
  refine .bind (.ofExcept (foldDecimals_harmless _ _ _)) fun result _ => ?_
  exact .pure trivial

theorem runNative_stays (fn : Native) {args : List Value} (hargs : ∀ v ∈ args, realm.HasValue v) :
    (runNative fn args).Stays realm calls realm.HasValue := by
  -- what is printed and what is probed is no part of the realm, so `hs` serves after it as before
  cases fn with
  | print =>
    refine .bind (.modify (p := fun _ => True) trivial (fun _ => rfl) fun s hs => { hs with }) ?_
    exact fun _ _ => .pure trivial
  | add => exact nativeFold_stays _ _ args
  | sub => exact nativeFold_stays _ _ args
  | mul => exact nativeFold_stays _ _ args
  | div => exact nativeFold_stays _ _ args
  | probe =>
    simp only [runNative]
    split
    · next value =>
      have hvalue : realm.HasValue value := hargs value (by simp)
      refine .bind (.modify (p := fun _ => True) trivial (fun _ => rfl) fun s hs => { hs with }) ?_
      exact fun _ _ => .pure hvalue
    · exact .fail (realm.mayFail _ rfl)
    · exact .fail (realm.mayFail _ rfl)

/-! ### Blocks -/

theorem hoistStmt_stays {stmt : Stmt} (hstmt : realm.Declares stmt) :
    (hoistStmt stmt).Stays realm calls fun _ => True := by
  unfold Realm.Declares at hstmt
  unfold hoistStmt
  -- functions and classes are declared before the block runs, other statements are not
  split
  · next decl hkind =>
    rw [hkind] at hstmt
    refine .bind (.setLine _) fun _ _ => ?_
    refine .bind (.onHeap fun heap hheap => hheap.newFunction hstmt) fun f hf => ?_
    exact .located (bindName_stays _ _ hf)
  · next decl hkind =>
    rw [hkind] at hstmt
    refine .bind (.setLine _) fun _ _ => ?_
    exact .located (.tryScopes trivial fun scopes hscopes => hscopes.allows_bindClass hstmt)
  · exact .pure trivial

theorem hoist_stays {block : Block} (hblock : ∀ stmt ∈ block, realm.Declares stmt) :
    (hoist block).Stays realm calls fun _ => True := by
  -- on the block, statement by statement
  induction block with
  | nil => exact .pure trivial
  | cons stmt rest ih =>
    obtain ⟨hstmt, hrest⟩ := List.forall_mem_cons.1 hblock
    refine (hoistStmt_stays hstmt).bind fun _ _ => ?_
    exact ih hrest

section Blocks

variable {nested : Nested} {post : Flow → Prop}

theorem runStmts_stays (hnormal : post .normal) {block : Block}
    (hexec : ∀ stmt ∈ block, stmt.isHoisted = false → (nested.exec stmt).Stays realm calls post) :
    (runStmts nested block).Stays realm calls post := by
  induction block with
  | nil => exact .pure hnormal
  | cons stmt rest ih =>
    obtain ⟨hstmt, hrest⟩ := List.forall_mem_cons.1 hexec
    unfold runStmts
    split
    · -- it was hoisted, so it is passed over here
      exact ih hrest
    · next hhoisted =>
      refine .bind (hstmt (Bool.eq_false_iff.2 hhoisted)) fun flow hflow => ?_
      -- only a normal end goes on to the rest of the block
      cases flow with
      | normal => exact ih hrest
      | result value => exact .pure hflow
      | breakLoop => exact .pure hflow
      | continueLoop => exact .pure hflow

theorem runBlock_stays (hnormal : post .normal) {block : Block}
    (hdeclares : ∀ stmt ∈ block, realm.Declares stmt)
    (hexec : ∀ stmt ∈ block, stmt.isHoisted = false → (nested.exec stmt).Stays realm calls post) :
    (runBlock nested block).Stays realm calls post := by
  refine (hoist_stays hdeclares).bind fun _ _ => ?_
  exact runStmts_stays hnormal hexec

theorem runScoped_stays {block : Block} (hblock : (runBlock nested block).Stays realm calls post) :
    (runScoped nested block).Stays realm calls post :=
  .inFrame realm.hasValue_none hblock

theorem takeResult_stays :
    takeResult.Stays realm calls fun implicit => ∀ v ∈ implicit, realm.HasValue v := by
  intro s hcalls hs
  obtain ⟨himplicit, hscopes⟩ := hs.scopes.takeResult
  exact ⟨himplicit, hcalls, { hs with scopes := hscopes }⟩

theorem finish_stays {flow : Flow} (hflow : realm.HasEnd flow) {implicit : Option Value}
    (himplicit : ∀ v ∈ implicit, realm.HasValue v) :
    (finish flow implicit).Stays realm calls realm.HasValue := by
  -- a body ends without a result, with one, or with an interrupt that no loop caught
  cases flow with
  | normal =>
    cases implicit with
    | none => exact .pure trivial
    | some value => exact .pure (himplicit value rfl)
  | result value => exact .pure hflow
  | breakLoop => exact .located (.fail hflow)
  | continueLoop => exact .located (.fail hflow)

variable {body : Block} (hbody : (runBlock nested body).Stays realm calls realm.HasEnd)
include hbody

theorem runBody_stays : (runBody nested body).Stays realm calls realm.HasValue := by
  -- a body that fails drops its implicit result, which takes no value into the realm
  have hdropping := hbody.afterFailure (f := fun t => { t with scopes := t.scopes.takeResult.2 })
    (fun _ => rfl) fun t ht => { ht with scopes := ht.scopes.takeResult.2 }
  refine hdropping.bind fun flow hflow => ?_
  refine takeResult_stays.bind fun implicit himplicit => ?_
  exact finish_stays hflow himplicit

theorem runProgram_stays : (runProgram nested body).Stays realm calls realm.HasValue := by
  refine hbody.bind fun flow hflow => ?_
  refine takeResult_stays.bind fun implicit himplicit => ?_
  exact finish_stays hflow himplicit

omit hbody in
/-- A program stays within the realm if its block does, for a start changes only what locations
say. -/
theorem program_within {session : Session} {input : Input} (hsession : session.Within realm)
    (hblock : (runBlock nested input.program).Stays realm session.calls realm.HasEnd) :
    ((runProgram nested input.program).located.run (session.start input)).Within realm session.calls
      realm.HasValue := by
  have hstart : (session.start input).Within realm :=
    ⟨hsession.heap, hsession.scopes, hsession.imports⟩
  exact (runProgram_stays hblock).located (session.start input) rfl hstart

end Blocks

/-! ### Code that a call gets to -/

/-- On the call stack with one more call the bodies of functions and the first values of properties
stay within the realm. -/
structure Nested.Ready (realm : Realm) (calls : CallStack) (nested : Nested) : Prop where
  body : ∀ name deeper, calls.push name = .ok deeper → ∀ decl, realm.HasFunction decl →
    (runBlock nested decl.body).Stays realm deeper realm.HasEnd
  initial : ∀ name deeper, calls.push name = .ok deeper → ∀ e, realm.HasInitial e →
    (nested.eval e).Stays realm deeper realm.HasValue

section Nested

variable {nested : Nested} (hready : nested.Ready realm calls)

section Calls

include hready

theorem invoke_stays {routine : Routine} (hroutine : realm.HasRoutine routine)
    {receiver : Option Value} (hreceiver : ∀ v ∈ receiver, realm.HasValue v) {args : List Value}
    (hargs : ∀ v ∈ args, realm.HasValue v) :
    (invoke nested routine receiver args).Stays realm calls realm.HasValue := by
  refine .inCall fun deeper hpush => ?_
  cases routine with
  | native fn => exact runNative_stays fn hargs
  | declared decl =>
    -- the body runs on the deeper call stack, and there the realm vouches for it
    have hbody := runBody_stays (hready.body _ deeper hpush decl hroutine)
    refine .inFrame hreceiver ?_
    refine (bindParams_stays _ _ hargs).bind fun _ _ => ?_
    exact hbody

omit hready in
theorem setProp_stays (addr : Nat) (name : String) {value : Value}
    (hvalue : realm.HasValue value) :
    (Exec.modify fun session =>
      { session with heap := session.heap.setProp addr name value }).Stays realm calls
      fun _ => True :=
  .modify trivial (fun _ => rfl) fun _ hs => { hs with heap := hs.heap.setProp addr name hvalue }

omit hready in
theorem initProps_stays (addr : Nat) {decls : List PropertyDecl}
    (hdecls : ∀ decl ∈ decls, (nested.eval decl.init).Stays realm calls realm.HasValue) :
    (initProps nested addr decls).Stays realm calls fun _ => True := by
  -- the value of each initializer is in the realm, and so is the heap in which it is set
  induction decls with
  | nil => exact .pure trivial
  | cons decl rest ih =>
    obtain ⟨hdecl, hrest⟩ := List.forall_mem_cons.1 hdecls
    refine hdecl.bind fun value hvalue => ?_
    refine (setProp_stays addr decl.name hvalue).bind fun _ _ => ?_
    exact ih hrest

omit hready in
theorem setParamProps_stays (addr : Nat) (params : List Param) {args : List Value}
    (hargs : ∀ v ∈ args, realm.HasValue v) :
    (setParamProps addr params args).Stays realm calls fun _ => True := by
  -- on the parameters, for any arguments
  induction params generalizing args with
  | nil => exact .pure trivial
  | cons param params ih =>
    cases args with
    | nil => exact .pure trivial
    | cons arg args =>
      obtain ⟨harg, hrest⟩ := List.forall_mem_cons.1 hargs
      refine (pass_stays param.byRef harg).bind fun value hvalue => ?_
      refine (setProp_stays addr param.name hvalue).bind fun _ _ => ?_
      exact ih hrest

theorem construct_stays {decl : ClassDecl} (hclass : realm.HasClass decl) {args : List Value}
    (hargs : ∀ v ∈ args, realm.HasValue v) :
    (construct nested decl args).Stays realm calls realm.HasValue := by
  unfold construct
  split
  · refine .bind (.onHeap fun _ hheap => hheap.newObject hclass) fun addr haddr => ?_
    have hreceiver : ∀ v ∈ some (Value.object addr), realm.HasValue v := by
      rintro _ ⟨⟩
      exact haddr
    -- the first values are evaluated in a call; the arguments are there already
    refine .bind (p := fun _ => True) (.inCall fun deeper hpush => ?_) fun _ _ => ?_
    · refine .inFrame hreceiver (initProps_stays addr fun property hproperty => ?_)
      exact hready.initial _ deeper hpush _ (hclass.properties property hproperty)
    · refine (setParamProps_stays addr _ hargs).bind fun _ _ => ?_
      exact .pure haddr
  · exact .fail (realm.mayFail _ rfl)

theorem settle_stays {reply : Reply} (hreply : realm.HasReply reply) :
    (settle nested reply).Stays realm calls realm.HasValue := by
  cases reply with
  | value value => exact .pure hreply
  | call routine receiver args =>
    obtain ⟨hroutine, hreceiver, hargs⟩ := hreply
    exact invoke_stays hready hroutine hreceiver hargs

theorem getProperty_stays {value : Value} (hvalue : realm.HasValue value) (name : String) :
    (getProperty nested value name).Stays realm calls realm.HasValue := by
  refine .bind (.tryHeap fun heap hheap => hheap.allows_property hvalue name) fun reply hreply => ?_
  exact settle_stays hready hreply

theorem callMethod_stays {value : Value} (hvalue : realm.HasValue value) (name : String)
    {args : List Value} (hargs : ∀ v ∈ args, realm.HasValue v) :
    (callMethod nested value name args).Stays realm calls realm.HasValue := by
  refine .bind (.tryHeap fun heap hheap => hheap.allows_method hvalue name hargs)
    fun reply hreply => ?_
  exact settle_stays hready hreply

/-- The receiver's method comes from the class of an instance of the realm. -/
theorem callName_stays (name : String) {args : List Value}
    (hargs : ∀ v ∈ args, realm.HasValue v) :
    (callName nested name args).Stays realm calls realm.HasValue := by
  refine .bind (p := fun found => ∀ method ∈ found,
    realm.HasValue method.1 ∧ realm.HasFunction method.2) (.read fun s hs => ?_) fun found hfound => ?_
  · -- a method of the receiver goes before what the name is bound to
    intro method hmethod
    unfold receiverMethod? at hmethod
    split at hmethod
    · next addr haddr =>
      obtain ⟨decl, hdecl, rfl⟩ := Option.map_eq_some_iff.1 hmethod
      have hobject : realm.HasObject addr := hs.scopes.receiver? _ haddr
      exact ⟨hobject, (hs.heap.classes addr hobject).method hdecl⟩
    · cases hmethod
  · cases found with
    | some method =>
      obtain ⟨hreceiver, hdecl⟩ := hfound method rfl
      have hroutine : realm.HasRoutine (.declared method.2) := hdecl
      refine invoke_stays hready hroutine ?_ hargs
      rintro _ ⟨⟩
      exact hreceiver
    | none =>
      refine .bind (.read fun s hs => hs.scopes.allows_find name) fun callee hcallee => ?_
      refine .bind (.ofExcept hcallee) fun value hvalue => ?_
      split
      · exact invoke_stays hready hvalue realm.hasValue_none hargs
      · exact .fail (realm.mayFail _ rfl)

theorem callValue_stays {callee : Value} (hcallee : realm.HasValue callee) {args : List Value}
    (hargs : ∀ v ∈ args, realm.HasValue v) :
    (callValue nested callee args).Stays realm calls realm.HasValue := by
  unfold callValue
  -- only a function can be called; anything else is shown in the message
  split
  · exact invoke_stays hready hcallee realm.hasValue_none hargs
  · refine .bind (.read (p := fun _ => True) fun _ _ => trivial) fun text _ => ?_
    exact .fail (realm.mayFail _ rfl)

end Calls

/-! ### Slots -/

theorem allows_atIndex {root : Value} (hroot : realm.HasValue root) (index : Value) :
    realm.Allows realm.HasSlot (Slot.atIndex root index) := by
  cases root with
  | array addr => exact hroot
  | map addr => exact .bind (mapKey_harmless index) fun _ _ => .pure hroot
  | _ => exact .error rfl

theorem Heap.Within.allows_readElement {heap : Heap} (h : heap.Within realm) {addr : Nat}
    (haddr : realm.HasArray addr) (index : Value) :
    realm.Allows realm.HasValue (Slot.readElement heap addr index) := by
  refine .bind (position_harmless _ _) fun i _ => ?_
  split
  · next value hvalue => exact h.items addr haddr value (List.mem_of_getElem? hvalue)
  · exact .error rfl

theorem Heap.Within.allows_writeElement {heap : Heap} (h : heap.Within realm) {addr : Nat}
    (haddr : realm.HasArray addr) (index : Value) {new : Value} (hnew : realm.HasValue new) :
    realm.Allows (Heap.Within realm) (Slot.writeElement heap addr index new) := by
  refine .bind (position_harmless _ _) fun i _ => ?_
  refine .pure (h.setItems addr fun v hv => ?_)
  -- an element is one of before, or it is the new value
  obtain hv | rfl := List.mem_or_eq_of_mem_set hv
  · exact h.items addr haddr v hv
  · exact hnew

theorem Heap.Within.allows_readEntry {heap : Heap} (h : heap.Within realm) {addr : Nat}
    (haddr : realm.HasMap addr) (key : String) :
    realm.Allows realm.HasValue (Slot.readEntry heap addr key) := by
  unfold Slot.readEntry
  split
  · next value hvalue => exact h.entries addr haddr key value hvalue
  · exact .error rfl

/-! ### Expressions -/

/-- The expression stays within the realm. -/
abbrev Nested.EvalStays (realm : Realm) (calls : CallStack) (nested : Nested) (e : Expr) : Prop :=
  (nested.eval e).Stays realm calls realm.HasValue

theorem evalArgs_stays {args : List Expr} (hargs : ∀ e ∈ args, nested.EvalStays realm calls e) :
    (evalArgs nested args).Stays realm calls fun values => ∀ v ∈ values, realm.HasValue v := by
  -- on the arguments, the values of which have to stay in the realm while the others are evaluated
  induction args with
  | nil => exact .pure fun v hv => nomatch hv
  | cons e rest ih =>
    obtain ⟨he, hrest⟩ := List.forall_mem_cons.1 hargs
    refine he.bind fun value hvalue => ?_
    refine (ih hrest).bind fun values hvalues => ?_
    exact .pure (List.forall_mem_cons.2 ⟨hvalue, hvalues⟩)

theorem evalEntries_stays {entries : Entries Value} (hentries : entries.All realm.HasValue)
    {pairs : List (Expr × Expr)} (hpairs : ∀ pair ∈ pairs,
      nested.EvalStays realm calls pair.1 ∧ nested.EvalStays realm calls pair.2) :
    (evalEntries nested entries pairs).Stays realm calls fun result =>
      result.All realm.HasValue := by
  -- on the pairs, over the entries that are there already
  induction pairs generalizing entries with
  | nil => exact .pure hentries
  | cons pair rest ih =>
    obtain ⟨⟨hkey, hvalue⟩, hrest⟩ := List.forall_mem_cons.1 hpairs
    refine hkey.bind fun keyValue _ => ?_
    refine .bind (.ofExcept (mapKey_harmless keyValue)) fun key _ => ?_
    refine hvalue.bind fun value hv => ?_
    exact ih (hentries.insert key hv) hrest

theorem evalCondition_stays {e : Expr} (he : nested.EvalStays realm calls e) :
    (evalCondition nested e).Stays realm calls fun _ => True := by
  refine .bind he fun value _ => ?_
  split
  · exact .pure trivial
  · exact .fail (realm.mayFail _ rfl)

theorem evalIndexSlot_stays {root index : Expr} (hroot : nested.EvalStays realm calls root)
    (hindex : nested.EvalStays realm calls index) :
    (evalIndexSlot nested root index).Stays realm calls realm.HasSlot := by
  refine hroot.bind fun container hcontainer => ?_
  refine hindex.bind fun i _ => ?_
  exact .ofExcept (allows_atIndex hcontainer i)

theorem evalPropertySlot_stays {root : Expr} (hroot : nested.EvalStays realm calls root)
    (name : String) : (evalPropertySlot nested root name).Stays realm calls realm.HasSlot :=
  hroot.bind fun _ hvalue => .pure hvalue

theorem Slot.write_stays (slot : Slot) {new : Value} (hnew : realm.HasValue new)
    (hslot : realm.HasSlot slot) : (slot.write new).Stays realm calls fun _ => True := by
  unfold Slot.write
  -- an element and an entry are written where they are; a property looks for the object that has it
  cases slot with
  | element addr index =>
    refine .tryHeap fun heap hheap => ?_
    refine .bind (hheap.allows_writeElement hslot index hnew) fun later hwithin => ?_
    exact .pure ⟨trivial, hwithin⟩
  | entry addr key =>
    refine .onHeap fun heap hheap => ⟨trivial, ?_⟩
    exact hheap.setEntries addr ((hheap.entries addr hslot).insert key hnew)
  | property root name =>
    refine .tryHeap fun heap hheap => ?_
    refine .bind (hheap.allows_setProperty root name hnew) fun later hwithin => ?_
    exact .pure ⟨trivial, hwithin⟩

include hready

theorem Slot.read_stays {slot : Slot} (hslot : realm.HasSlot slot) :
    (slot.read nested).Stays realm calls realm.HasValue := by
  unfold Slot.read
  -- the same three places, of which only a property may run code
  cases slot with
  | element addr index =>
    refine .tryHeap fun heap hheap => ?_
    refine .bind (hheap.allows_readElement hslot index) fun value hvalue => ?_
    exact .pure ⟨hvalue, hheap⟩
  | entry addr key =>
    refine .tryHeap fun heap hheap => ?_
    refine .bind (hheap.allows_readEntry hslot key) fun value hvalue => ?_
    exact .pure ⟨hvalue, hheap⟩
  | property root name => exact getProperty_stays hready hslot name

theorem evalCall_stays {callee : Expr} (hcallee : nested.EvalStays realm calls callee)
    {args : List Expr} (hargs : ∀ e ∈ args, nested.EvalStays realm calls e) :
    (evalCall nested callee args).Stays realm calls realm.HasValue := by
  -- the arguments first, and then the callee
  refine (evalArgs_stays hargs).bind fun values hvalues => ?_
  split
  · exact callName_stays hready _ hvalues
  · refine hcallee.bind fun value hvalue => ?_
    exact callValue_stays hready hvalue hvalues

theorem evalConstruct_stays (className : String) {args : List Expr}
    (hargs : ∀ e ∈ args, nested.EvalStays realm calls e) :
    (evalConstruct nested className args).Stays realm calls realm.HasValue := by
  -- the class is found before the arguments are evaluated
  refine .bind (.read fun s hs => hs.scopes.allows_findClass className) fun found hfound => ?_
  refine .bind (.ofExcept hfound) fun decl hclass => ?_
  refine (evalArgs_stays hargs).bind fun values hvalues => ?_
  exact construct_stays hready hclass hvalues

omit hready in
/-- The places that can be assigned to have expressions of their own. -/
theorem evalAssign_stays {target value : Expr} (hvalue : nested.EvalStays realm calls value)
    (htarget : ∀ e, sizeOf e < sizeOf target → nested.EvalStays realm calls e) (byRef : Bool) :
    (evalAssign nested target value byRef).Stays realm calls realm.HasValue := by
  refine hvalue.bind fun v hv => ?_
  refine (pass_stays byRef hv).bind fun passed hpassed => ?_
  -- a name, a property, an element or entry, and what cannot be assigned to
  split
  · refine .bind (.tryScopes (p := fun _ => True) trivial fun scopes hscopes => ?_) fun _ _ => ?_
    · exact hscopes.allows_assign _ hpassed
    · exact .pure hpassed
  · next root name =>
    simp only [Expr.property.sizeOf_spec] at htarget
    have hroot := htarget root (by omega)
    refine (evalPropertySlot_stays hroot name).bind fun slot hslot => ?_
    refine (slot.write_stays hpassed hslot).bind fun _ _ => ?_
    exact .pure hpassed
  · next root index =>
    simp only [Expr.index.sizeOf_spec] at htarget
    have hroot := htarget root (by omega)
    have hindex := htarget index (by omega)
    refine (evalIndexSlot_stays hroot hindex).bind fun slot hslot => ?_
    refine (slot.write_stays hpassed hslot).bind fun _ _ => ?_
    exact .pure hpassed
  · refine .bind (.fail (p := fun _ => True) (realm.mayFail _ rfl)) fun _ _ => ?_
    exact .pure hpassed

omit hready in
theorem compareValues_harmless (op : LogicOp) (v w : Value) (heap : Heap) :
    realm.Harmless (compareValues op v w heap) := by
  -- the two orders fail in the same way, and the four comparisons come from them
  have hless : realm.Harmless (Heap.less v w) := by
    unfold Heap.less
    split
    · trivial
    · exact .error rfl
  have hgreater : realm.Harmless (Heap.greater v w) := by
    unfold Heap.greater
    split
    · trivial
    · exact .error rfl
  cases op with
  | lt => exact hless
  | gt => exact hgreater
  | ltEq => exact .bind hgreater fun _ _ => .pure trivial
  | gtEq => exact .bind hless fun _ _ => .pure trivial
  | _ => trivial

omit hready in
theorem evalLogic_stays (op : LogicOp) {left right : Expr}
    (hleft : nested.EvalStays realm calls left) (hright : nested.EvalStays realm calls right) :
    (evalLogic nested op left right).Stays realm calls realm.HasValue := by
  unfold evalLogic
  have hlast : (do return Value.bool (← evalCondition nested right)).Stays realm calls
      realm.HasValue :=
    (evalCondition_stays hright).bind fun _ _ => .pure trivial
  -- conjunction and disjunction may leave their right operand out
  split
  · refine (evalCondition_stays hleft).bind fun b _ => ?_
    split
    · exact hlast
    · exact .pure trivial
  · refine (evalCondition_stays hleft).bind fun b _ => ?_
    split
    · exact .pure trivial
    · exact hlast
  · refine hleft.bind fun v _ => ?_
    refine hright.bind fun w _ => ?_
    refine .bind (p := realm.Harmless)
      (.read fun s _ => compareValues_harmless op v w s.heap) fun result hresult => ?_
    refine .bind (.ofExcept hresult) fun holds _ => ?_
    exact .pure trivial

omit hready in
theorem allows_applyArith (op : ArithOp) (v w : Value) :
    realm.Allows realm.HasValue (applyArith op v w) := by
  unfold applyArith
  split
  · exact .bind (apply_harmless op _ _) fun _ _ => .pure trivial
  · exact .error rfl
  · exact .error rfl

/-- An expression stays within the realm if the expressions in it do. -/
theorem evalExprWith_stays (e : Expr)
    (heval : ∀ part, sizeOf part < sizeOf e → nested.EvalStays realm calls part) :
    (evalExprWith nested e).Stays realm calls realm.HasValue := by
  -- the expressions in a list are smaller than the list, and so than the expression it stands in
  have hlist : ∀ args : List Expr, sizeOf args < sizeOf e →
      ∀ part ∈ args, nested.EvalStays realm calls part := by
    intro args hsize part hpart
    have hpart := List.sizeOf_lt_of_mem hpart
    exact heval part (Nat.lt_trans hpart hsize)
  -- one case for each kind of expression, with the parts that the evaluator evaluates there
  cases e with
  | number text =>
    refine .bind (.ofExcept (parse_harmless text)) fun d _ => ?_
    exact .pure trivial
  | string text => exact .pure trivial
  | array items =>
    simp only [Expr.array.sizeOf_spec] at heval hlist
    have hitems := evalArgs_stays (hlist items (by omega))
    -- an array is newly made from values of the realm
    refine hitems.bind fun values hvalues => ?_
    exact .onHeap fun heap hheap => hheap.newArray hvalues
  | map entries =>
    simp only [Expr.map.sizeOf_spec] at heval hlist
    -- the parts of an entry are smaller than the entry
    have hpairs : ∀ pair ∈ entries,
        nested.EvalStays realm calls pair.1 ∧ nested.EvalStays realm calls pair.2 := by
      rintro ⟨key, value⟩ hpair
      have hsize := List.sizeOf_lt_of_mem hpair
      simp only [Prod.mk.sizeOf_spec] at hsize
      exact ⟨heval key (by omega), heval value (by omega)⟩
    refine (evalEntries_stays .empty hpairs).bind fun result hresult => ?_
    exact .onHeap fun heap hheap => hheap.newMap hresult
  | name n =>
    refine .bind (.read fun s hs => hs.scopes.allows_find n) fun found hfound => ?_
    exact .ofExcept hfound
  | this =>
    refine .bind (p := fun found => ∀ v ∈ found, realm.HasValue v)
      (.read fun _ hs => hs.scopes.receiver?) fun found hfound => ?_
    cases found with
    | none => exact .fail (realm.mayFail _ rfl)
    | some value => exact .pure (hfound value rfl)
  | turn part =>
    refine .bind (p := fun found => ∀ t ∈ found, realm.HasValue t.1 ∧ realm.HasValue t.2)
      (.read fun _ hs => hs.scopes.turn?) fun found hfound => ?_
    cases found with
    | none => exact .fail (realm.mayFail _ rfl)
    | some t =>
      obtain ⟨hindex, hvalue⟩ := hfound t rfl
      cases part with
      | index => exact .pure hindex
      | value => exact .pure hvalue
  | property root name =>
    simp only [Expr.property.sizeOf_spec] at heval hlist
    have hroot := heval root (by omega)
    refine (evalPropertySlot_stays hroot name).bind fun slot hslot => ?_
    exact Slot.read_stays hready hslot
  | index root index =>
    simp only [Expr.index.sizeOf_spec] at heval hlist
    have hroot := heval root (by omega)
    have hindex := heval index (by omega)
    refine (evalIndexSlot_stays hroot hindex).bind fun slot hslot => ?_
    exact Slot.read_stays hready hslot
  | call callee args =>
    simp only [Expr.call.sizeOf_spec] at heval hlist
    exact evalCall_stays hready (heval callee (by omega)) (hlist args (by omega))
  | method root name args =>
    simp only [Expr.method.sizeOf_spec] at heval hlist
    have hroot := heval root (by omega)
    have hargs := evalArgs_stays (hlist args (by omega))
    refine hroot.bind fun value hvalue => ?_
    refine hargs.bind fun values hvalues => ?_
    exact callMethod_stays hready hvalue name hvalues
  | construct className args =>
    simp only [Expr.construct.sizeOf_spec] at heval hlist
    exact evalConstruct_stays hready className (hlist args (by omega))
  | assign target value byRef =>
    simp only [Expr.assign.sizeOf_spec] at heval hlist
    have hvalue := heval value (by omega)
    exact evalAssign_stays hvalue (fun part hpart => heval part (by omega)) byRef
  | logic op left right =>
    simp only [Expr.logic.sizeOf_spec] at heval hlist
    exact evalLogic_stays op (heval left (by omega)) (heval right (by omega))
  | negate operand =>
    simp only [Expr.negate.sizeOf_spec] at heval hlist
    have hoperand := evalCondition_stays (heval operand (by omega))
    refine hoperand.bind fun b _ => ?_
    exact .pure trivial
  | arith op left right =>
    simp only [Expr.arith.sizeOf_spec] at heval hlist
    have hleft := heval left (by omega)
    have hright := heval right (by omega)
    refine hleft.bind fun v _ => ?_
    refine hright.bind fun w _ => ?_
    exact .ofExcept (allows_applyArith op v w)

/-! ### Statements -/

theorem evalInitializer_stays (init : Initializer)
    (heval : ∀ part, sizeOf part < sizeOf init → nested.EvalStays realm calls part) :
    (evalInitializer nested init).Stays realm calls fun bound => realm.HasValue bound.1 := by
  -- each kind of initializer evaluates one expression or the arguments of a constructor
  cases init with
  | mutable value =>
    simp only [Initializer.mutable.sizeOf_spec] at heval
    have hvalue := heval value (by omega)
    exact hvalue.bind fun v hv => .pure hv
  | constant value =>
    simp only [Initializer.constant.sizeOf_spec] at heval
    have hvalue := heval value (by omega)
    exact hvalue.bind fun v hv => .pure hv
  | construct className args =>
    simp only [Initializer.construct.sizeOf_spec] at heval
    have hargs : ∀ part ∈ args, nested.EvalStays realm calls part := by
      intro part hpart
      have hsize := List.sizeOf_lt_of_mem hpart
      exact heval part (by omega)
    exact (evalConstruct_stays hready className hargs).bind fun instanceValue hv => .pure hv

omit hready

theorem bindNames_stays {value : Value} (hvalue : realm.HasValue value) (constant byRef : Bool)
    (names : List String) :
    (bindNames value constant byRef names).Stays realm calls fun _ => True := by
  -- a copy is made for each name
  induction names with
  | nil => exact .pure trivial
  | cons name rest ih =>
    refine (pass_stays byRef hvalue).bind fun bound hbound => ?_
    refine (bindName_stays name constant hbound).bind fun _ _ => ?_
    exact ih

theorem runImport_stays (name : String) (localName : Option String) :
    (runImport name localName).Stays realm calls fun _ => True := by
  -- what is imported is in the realm, for the session says so of each import
  refine .bind (p := fun found => ∀ v ∈ found, realm.HasValue v) (.read fun s hs => ?_)
    fun found hfound => ?_
  · exact fun v hv => hs.imports name v hv
  · cases found with
    | none => exact .fail (realm.mayFail _ rfl)
    | some value => exact bindName_stays _ _ (hfound value rfl)

theorem bindTurn_stays (names : TurnNames) {index value : Value} (hindex : realm.HasValue index)
    (hvalue : realm.HasValue value) :
    (bindTurn names index value).Stays realm calls fun _ => True := by
  cases names with
  | none => exact .pure trivial
  | value name => exact bindName_stays name _ hvalue
  | keyValue keyName valueName =>
    refine (bindName_stays keyName false hindex).bind fun _ _ => ?_
    exact bindName_stays valueName _ hvalue

/-- The turns of an iteration over a container of the realm are of the realm. -/
theorem Heap.Within.allows_turnsOf {heap : Heap} (h : heap.Within realm) {target : Value}
    (htarget : realm.HasValue target) :
    realm.Allows (fun turns => ∀ turn ∈ turns, realm.HasValue turn.1 ∧ realm.HasValue turn.2)
      (turnsOf heap target) := by
  -- the turns are read off an array or a map, and there are none of anything else
  cases target with
  | array addr =>
    intro turn hturn
    obtain ⟨⟨value, i⟩, hitem, rfl⟩ := List.mem_map.1 hturn
    obtain ⟨-, -, hvalue⟩ := List.mem_zipIdx hitem
    refine ⟨trivial, h.items addr htarget value ?_⟩
    rw [hvalue]
    exact List.getElem_mem _
  | map addr =>
    intro turn hturn
    obtain ⟨entry, hentry, rfl⟩ := List.mem_map.1 hturn
    exact ⟨trivial, (h.entries addr htarget).of_mem hentry⟩
  | _ => exact .error rfl

theorem Heap.turnsOf_harmless (heap : Heap) (target : Value) :
    Realm.everything.Harmless (turnsOf heap target) :=
  (heap.within_everything.allows_turnsOf target.hasValue_everything).harmless

section Flow

variable {inner post : Flow → Prop}

theorem runArms_stays (hnormal : post .normal) {otherwise : Option Block}
    (hotherwise : ∀ block ∈ otherwise, (runBlock nested block).Stays realm calls post)
    {arms : List Arm} (harms : ∀ arm ∈ arms, nested.EvalStays realm calls arm.condition ∧
      (runBlock nested arm.block).Stays realm calls post) :
    (runArms nested otherwise arms).Stays realm calls post := by
  -- on the arms that are left, of which the first whose condition holds is run
  induction arms with
  | nil =>
    cases otherwise with
    | none => exact .pure hnormal
    | some block => exact runScoped_stays (hotherwise block rfl)
  | cons arm rest ih =>
    obtain ⟨⟨hcondition, hblock⟩, hrest⟩ := List.forall_mem_cons.1 harms
    refine (evalCondition_stays hcondition).bind fun b _ => ?_
    split
    · exact runScoped_stays hblock
    · exact ih hrest

variable (hnormal : post .normal) (hresult : ∀ v, inner (.result v) → post (.result v))
include hnormal hresult

/-- A loop takes a break, and a result passes through it. -/
theorem post_of_endsLoop? {flow ended : Flow} (hflow : inner flow)
    (h : flow.endsLoop? = some ended) : post ended := by
  -- a result and a break end a loop, but for the loop a break is a normal end
  cases flow with
  | normal => cases h
  | result value =>
    cases h
    exact hresult value hflow
  | breakLoop =>
    cases h
    exact hnormal
  | continueLoop => cases h

theorem runLoop_stays (hstop : realm.MayStop) {condition : Expr}
    (hcondition : nested.EvalStays realm calls condition) {body : Block}
    (hbody : (runBlock nested body).Stays realm calls inner) (turns : Nat) :
    (runLoop nested condition body turns).Stays realm calls post := by
  -- on the turns that the fuel has left; a loop that has none left has run out of it
  induction turns with
  | zero => exact .outOfFuel hstop
  | succ turns ih =>
    refine (evalCondition_stays hcondition).bind fun b _ => ?_
    split
    · refine (runScoped_stays hbody).bind fun flow hflow => ?_
      split
      · next ended hended => exact .pure (post_of_endsLoop? hnormal hresult hflow hended)
      · exact ih
    · exact .pure hnormal

/-- An iteration takes the turns that it read off at its start, and so it needs no fuel for them. -/
theorem runTurns_stays (names : TurnNames) {body : Block}
    (hbody : (runBlock nested body).Stays realm calls inner) {entries : List (Value × Value)}
    (hentries : ∀ turn ∈ entries, realm.HasValue turn.1 ∧ realm.HasValue turn.2) :
    (runTurns nested names body entries).Stays realm calls post := by
  -- on the entries that are left
  induction entries with
  | nil => exact .pure hnormal
  | cons turn rest ih =>
    obtain ⟨⟨hindex, hvalue⟩, hrest⟩ := List.forall_mem_cons.1 hentries
    -- the turn's index and value are put into the frame before its names are bound
    have hturn : (Exec.modify fun session =>
        { session with scopes := session.scopes.setTurn turn.1 turn.2 }).Stays realm calls
        fun _ => True :=
      .modify trivial (fun _ => rfl) fun _ hs =>
        { hs with scopes := hs.scopes.setTurn hindex hvalue }
    have hframe : (Exec.inFrame none (do
        Exec.modify fun session =>
          { session with scopes := session.scopes.setTurn turn.1 turn.2 }
        bindTurn names turn.1 turn.2
        runBlock nested body)).Stays realm calls inner := by
      refine .inFrame realm.hasValue_none ?_
      refine hturn.bind fun _ _ => ?_
      refine (bindTurn_stays names hindex hvalue).bind fun _ _ => ?_
      exact hbody
    refine hframe.bind fun flow hflow => ?_
    split
    · next ended hended => exact .pure (post_of_endsLoop? hnormal hresult hflow hended)
    · exact ih hrest

end Flow

/-- What a statement needs of the blocks in it. Those of a branch may end as the statement itself
may, and those of a loop as `inner` says. -/
def Nested.RunsBlocks (realm : Realm) (calls : CallStack) (nested : Nested)
    (inner post : Flow → Prop) : StmtKind → Prop
  | .branch first others otherwise =>
    (∀ arm ∈ first :: others, (runBlock nested arm.block).Stays realm calls post) ∧
      ∀ block ∈ otherwise, (runBlock nested block).Stays realm calls post
  | .loop _ body => realm.MayStop ∧ (runBlock nested body).Stays realm calls inner
  | .iterate _ _ body => (runBlock nested body).Stays realm calls inner
  | .breakLoop => post .breakLoop
  | .continueLoop => post .continueLoop
  | _ => True

theorem Arm.sizeOf_condition_lt (arm : Arm) : sizeOf arm.condition < sizeOf arm := by
  cases arm
  simp only [Arm.mk.sizeOf_spec]
  omega

include hready in
/-- A statement stays within the realm if the expressions and the blocks in it do. -/
theorem execKindWith_stays {inner post : Flow → Prop} (hnormal : post .normal)
    (hresult : ∀ v, realm.HasValue v → post (.result v))
    (hinner : ∀ v, inner (.result v) → post (.result v)) (turns : Nat) (kind : StmtKind)
    (heval : ∀ part : Expr, sizeOf part < sizeOf kind → nested.EvalStays realm calls part)
    (hblocks : nested.RunsBlocks realm calls inner post kind) :
    (execKindWith nested turns kind).Stays realm calls post := by
  -- one case for each kind of statement; blocks stay in the realm by hypothesis
  cases kind with
  | evaluate e =>
    simp only [StmtKind.evaluate.sizeOf_spec] at heval
    have hvalue := heval e (by omega)
    refine hvalue.bind fun value hvalue => ?_
    have hset : (Exec.modify fun session =>
        { session with scopes := session.scopes.setResult value }).Stays realm calls
        fun _ => True :=
      .modify trivial (fun _ => rfl) fun _ hs => { hs with scopes := hs.scopes.setResult hvalue }
    refine hset.bind fun _ _ => ?_
    exact .pure hnormal
  | declare names init byRef =>
    simp only [StmtKind.declare.sizeOf_spec] at heval
    have hinit := evalInitializer_stays hready init fun part hpart => heval part (by omega)
    refine hinit.bind fun bound hbound => ?_
    refine (bindNames_stays hbound _ _ _).bind fun _ _ => ?_
    exact .pure hnormal
  | branch first others otherwise =>
    obtain ⟨harms, hotherwise⟩ := hblocks
    simp only [StmtKind.branch.sizeOf_spec] at heval
    refine runArms_stays hnormal hotherwise fun arm harm => ⟨?_, harms arm harm⟩
    have hsize := List.sizeOf_lt_of_mem harm
    -- the condition of an arm is smaller than the statement
    have hcondition := arm.sizeOf_condition_lt
    simp only [List.cons.sizeOf_spec] at hsize
    exact heval arm.condition (by omega)
  | loop condition body =>
    obtain ⟨hstop, hbody⟩ := hblocks
    simp only [StmtKind.loop.sizeOf_spec] at heval
    exact runLoop_stays hnormal hinner hstop (heval condition (by omega)) hbody turns
  | iterate target names body =>
    simp only [StmtKind.iterate.sizeOf_spec] at heval
    have htarget := heval target (by omega)
    refine htarget.bind fun container hcontainer => ?_
    -- the turns are read off before the first of them runs
    refine .bind (.read fun s hs => hs.heap.allows_turnsOf hcontainer) fun turns hturns => ?_
    refine .bind (.ofExcept hturns) fun entries hentries => ?_
    exact runTurns_stays hnormal hinner names hblocks hentries
  | function decl => exact .pure hnormal
  | classDecl decl => exact .pure hnormal
  | result value =>
    cases value with
    | none => exact .pure (hresult .null trivial)
    | some e =>
      simp only [StmtKind.result.sizeOf_spec, Option.some.sizeOf_spec] at heval
      have hvalue := heval e (by omega)
      exact hvalue.bind fun v hv => .pure (hresult v hv)
  | breakLoop => exact .pure hblocks
  | continueLoop => exact .pure hblocks
  | importName name localName =>
    refine (runImport_stays name localName).bind fun _ _ => ?_
    exact .pure hnormal

end Nested

end DecimalScript
