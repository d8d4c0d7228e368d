import DecimalScript.Eval.Run

/-!
# The course of an evaluation

`Session.Course` says by which changes of the scopes and of the call stack an evaluation comes from
the session it starts with to the session it ends with, be it with a value or with a failure. It is
told by role, that is, by what runs in the current frame: an expression, the whole body of a call,
or a statement. The roles are nested: what an expression may do, a body may do, and what a body may
do, a statement may do.

* An expression assigns to names, and it makes calls: each pushes a name on the call stack and pops
  it, and runs a body in a frame of its own.
* A body also binds names and classes in the current frame; it may run statements there, but then
  the implicit result is taken out at the end.
* A statement also sets the implicit result and runs blocks in frames of their own.

The main statements are `nestedWith_follows`, for expressions and statements, and
`runBlock_follows`, for blocks: every evaluation follows such a course. What a property needs of an
evaluator of many constructs is then that each of the changes keeps it, by induction on
`Session.Course`.
-/

namespace DecimalScript

/-- What runs in the current frame. -/
inductive Role where
  | expression
  | body
  | statement

/-- How the scopes and the call stack may change in an evaluation. -/
inductive Session.Course : Role → Session → Session → Prop where
  | trans {role : Role} {s t u : Session} : Course role s t → Course role t u → Course role s u
  | body_of_expression {s t : Session} : Course .expression s t → Course .body s t
  | statement_of_body {s t : Session} : Course .body s t → Course .statement s t
  /-- A change of anything else, or none at all. -/
  | elsewhere {s t : Session} (hscopes : t.scopes = s.scopes) (hcalls : t.calls = s.calls) :
      Course .expression s t
  | assign {s : Session} {name : String} {value : Value} {scopes : Scopes}
      (h : s.scopes.assign name value = .ok scopes) : Course .expression s { s with scopes }
  | bind {s : Session} {name : String} {value : Value} {constant : Bool} {scopes : Scopes}
      (h : s.scopes.bind name value constant = .ok scopes) : Course .body s { s with scopes }
  | bindClass {s : Session} {decl : ClassDecl} {scopes : Scopes}
      (h : s.scopes.bindClass decl = .ok scopes) : Course .body s { s with scopes }
  | setResult (s : Session) (value : Value) :
      Course .statement s { s with scopes := s.scopes.setResult value }
  /-- Statements that make up a body. -/
  | takeResult {s t : Session} : Course .statement s t →
      Course .body s { t with scopes := t.scopes.takeResult.2 }
  /-- A call stands on the call stack while it runs. -/
  | call {s t : Session} {name : String} {calls : CallStack} (h : s.calls.push name = .ok calls) :
      Course .expression { s with calls } t →
      Course .expression s { t with calls := t.calls.pop }
  /-- A body in a frame of its own. -/
  | callFrame {s t : Session} {receiver : Option Value} :
      Course .body { s with scopes := s.scopes.push receiver } t →
      Course .expression s { t with scopes := t.scopes.pop }
  /-- A block in a frame of its own. -/
  | block {s t : Session} :
      Course .statement { s with scopes := s.scopes.push none } t →
      Course .statement s { t with scopes := t.scopes.pop }
  /-- A turn of an iteration, the frame of which holds the index and the value. -/
  | turn {s t : Session} {index value : Value} :
      Course .statement { s with scopes := (s.scopes.push none).setTurn index value } t →
      Course .statement s { t with scopes := t.scopes.pop }

/-- The session with which an evaluation ended, unless it ran out of fuel. -/
def Outcome.session? {α : Type} : Outcome α → Option Session
  | done _ session => some session
  | failed _ session => some session
  | outOfFuel => none

/-- The cause for which an evaluation failed, if it did. -/
def Outcome.cause? {α : Type} : Outcome α → Option Cause
  | failed failure _ => some failure.cause
  | _ => none

open Session (Course)

/-- Every expression has the course of any role. -/
theorem Session.Course.ofExpression {role : Role} {s t : Session} (h : Course .expression s t) :
    Course role s t := by
  -- the roles are a chain, so the only question is how far to climb
  cases role with
  | expression => exact h
  | body => exact .body_of_expression h
  | statement => exact .statement_of_body (.body_of_expression h)

theorem Session.Course.refl {role : Role} (s : Session) : Course role s s :=
  .ofExpression (.elsewhere rfl rfl)

namespace Exec

variable {α β : Type} {role : Role} {x : Exec α}

/-- Whether it ends with a value or with a failure, the evaluation follows a course of the role. -/
def Follows (role : Role) (x : Exec α) : Prop :=
  ∀ s t, (x.run s).session? = some t → Course role s t

/-! ### Primitive evaluations -/

/-- An evaluation that touches neither the scopes nor the call stack. -/
theorem follows_of_elsewhere
    (h : ∀ s t, (x.run s).session? = some t → t.scopes = s.scopes ∧ t.calls = s.calls) :
    x.Follows role :=
  fun s t hrun => .ofExpression (.elsewhere (h s t hrun).1 (h s t hrun).2)

theorem Follows.pure (value : α) : (pure value : Exec α).Follows role := by
  rintro s t ⟨⟩
  exact .refl s

theorem Follows.read (f : Session → α) : (Exec.read f).Follows role := by
  rintro s t ⟨⟩
  exact .refl s

theorem Follows.fail (cause : Cause) : (Exec.fail cause : Exec α).Follows role := by
  rintro s t ⟨⟩
  exact .refl s

theorem Follows.outOfFuel : (Exec.outOfFuel : Exec α).Follows role := by
  rintro s t ⟨⟩

theorem Follows.ofExcept (result : Except Cause α) : (Exec.ofExcept result).Follows role := by
  cases result with
  | ok value => exact .pure value
  | error cause => exact .fail cause

theorem Follows.modify {f : Session → Session} (hscopes : ∀ s, (f s).scopes = s.scopes)
    (hcalls : ∀ s, (f s).calls = s.calls) : (Exec.modify f).Follows role := by
  rintro s t ⟨⟩
  exact .ofExpression (.elsewhere (hscopes s) (hcalls s))

theorem Follows.onHeap (f : Heap → α × Heap) : (Exec.onHeap f).Follows role := by
  rintro s t ⟨⟩
  exact .ofExpression (.elsewhere rfl rfl)

theorem Follows.tryHeap (f : Heap → Except Cause (α × Heap)) : (Exec.tryHeap f).Follows role := by
  refine follows_of_elsewhere fun s t h => ?_
  simp only [Exec.tryHeap, Exec.run] at h
  split at h <;> cases h <;> exact ⟨rfl, rfl⟩

theorem Follows.tryScopes {f : Scopes → Except Cause Scopes}
    (hf : ∀ (s : Session) (scopes : Scopes), f s.scopes = .ok scopes →
      Course role s { s with scopes }) : (Exec.tryScopes f).Follows role := by
  intro s t h
  -- the operation gives new scopes or the state is left as it was
  simp only [Exec.tryScopes, Exec.run] at h
  split at h
  · next scopes hok =>
    cases h
    exact hf s scopes hok
  · cases h
    exact .refl s

/-! ### Combinators -/

theorem Follows.ofExpression (h : x.Follows .expression) : x.Follows role :=
  fun s t hrun => .ofExpression (h s t hrun)

theorem Follows.statement_of_body (h : x.Follows .body) : x.Follows .statement :=
  fun s t hrun => .statement_of_body (h s t hrun)

theorem Follows.bind {f : α → Exec β} (hx : x.Follows role) (hf : ∀ value, (f value).Follows role) :
    (x >>= f).Follows role := by
  intro s u h
  rw [run_bind] at h
  cases hrun : x.run s with
  | done value t =>
    rw [hrun] at h
    exact .trans (hx s t (by rw [hrun]; rfl)) (hf value t u h)
  | failed failure t =>
    -- the second part never runs, so the course of the first is the whole one
    rw [hrun] at h
    exact hx s u (by rw [hrun]; exact h)
  | outOfFuel =>
    rw [hrun] at h
    cases h

theorem session?_located (x : Exec α) (s : Session) :
    (x.located.run s).session? = (x.run s).session? := by
  simp only [Exec.located, Exec.run]
  cases x s <;> rfl

theorem session?_afterwards (x : Exec α) (f : Session → Session) (s : Session) :
    ((x.afterwards f).run s).session? = ((x.run s).session?).map f := by
  simp only [Exec.afterwards, Exec.run]
  cases x s <;> rfl

/-- Neither a location nor a change of the session is part of the cause. -/
theorem cause?_located (x : Exec α) (s : Session) :
    (x.located.run s).cause? = (x.run s).cause? := by
  simp only [Exec.located, Exec.run]
  cases x s with
  | failed failure t => exact congrArg some (Session.cause_locate t failure)
  | _ => rfl

theorem cause?_afterwards (x : Exec α) (f : Session → Session) (s : Session) :
    ((x.afterwards f).run s).cause? = (x.run s).cause? := by
  simp only [Exec.afterwards, Exec.run]
  cases x s <;> rfl

theorem cause?_afterFailure (x : Exec α) (f : Session → Session) (s : Session) :
    ((x.afterFailure f).run s).cause? = (x.run s).cause? := by
  simp only [Exec.afterFailure, Exec.run]
  cases x s <;> rfl

/-- The first of two evaluations fails, or it ends and the second one fails. -/
theorem cause?_bind_of_cause {f : α → Exec β} {s : Session} {cause : Cause}
    (hx : (x.run s).cause? = some cause) : ((x >>= f).run s).cause? = some cause := by
  rw [run_bind]
  -- only a failure has a cause, and it ends the whole sequence
  cases hrun : x.run s with
  | failed failure t =>
    rw [hrun] at hx
    exact hx
  | _ =>
    rw [hrun] at hx
    cases hx

theorem cause?_bind_of_done {f : α → Exec β} {s t : Session} {value : α}
    (hx : x.run s = .done value t) : ((x >>= f).run s).cause? = ((f value).run t).cause? := by
  rw [run_bind, hx]

/-- A change upon failure is made or it is not. -/
theorem session?_afterFailure {f : Session → Session} {s t : Session}
    (h : ((x.afterFailure f).run s).session? = some t) :
    (∃ value, x.run s = .done value t) ∨ ∃ u, (x.run s).session? = some u ∧ t = f u := by
  simp only [Exec.afterFailure, Exec.run] at h
  -- on the outcome: what is done on a failure is not done when it succeeds
  cases hrun : x s with
  | done value u =>
    rw [hrun] at h
    cases h
    exact .inl ⟨value, hrun⟩
  | failed failure u =>
    rw [hrun] at h
    cases h
    exact .inr ⟨u, by rw [Exec.run, hrun]; rfl, rfl⟩
  | outOfFuel =>
    rw [hrun] at h
    cases h

theorem Follows.located (hx : x.Follows role) : x.located.Follows role :=
  fun s t h => hx s t (by rwa [session?_located] at h)

theorem Follows.atLine (line : Nat) (hx : x.Follows role) : (Exec.atLine line x).Follows role := by
  refine .bind (.modify (fun _ => rfl) fun _ => rfl) fun _ => .located fun s t h => ?_
  obtain ⟨value, hdone⟩ | ⟨u, hu, rfl⟩ := session?_afterFailure h
  · exact hx s t (by rw [hdone]; rfl)
  · -- upon failure the line is put back, which is neither a frame nor a call
    exact .trans (hx s u hu) (.ofExpression (.elsewhere rfl rfl))

theorem Follows.inCall (name : String) (hx : x.Follows .expression) :
    (Exec.inCall name x).Follows role := by
  refine .ofExpression fun s t h => ?_
  simp only [Exec.inCall, Exec.run] at h
  split at h
  · -- a call that the limit refuses is not pushed
    cases h
    exact .refl s
  · next calls hpush =>
    obtain ⟨u, hu, rfl⟩ := Option.map_eq_some_iff.1 ((session?_afterwards _ _ _).symm.trans h)
    exact .call hpush (hx _ u hu)

/-- What holds of the session in which a frame is entered and of the one in which it is dropped. -/
theorem session?_inFrame {receiver : Option Value} {s t : Session}
    (h : ((Exec.inFrame receiver x).run s).session? = some t) :
    ∃ u, (x.run { s with scopes := s.scopes.push receiver }).session? = some u ∧
      t = { u with scopes := u.scopes.pop } := by
  obtain ⟨u, hu, rfl⟩ := Option.map_eq_some_iff.1 ((session?_afterwards _ _ _).symm.trans h)
  exact ⟨u, hu, rfl⟩

theorem Follows.callFrame (receiver : Option Value) (hx : x.Follows .body) :
    (Exec.inFrame receiver x).Follows .expression := by
  intro s t h
  obtain ⟨u, hu, rfl⟩ := session?_inFrame h
  exact .callFrame (hx _ u hu)

theorem Follows.block (hx : x.Follows .statement) :
    (Exec.inFrame none x).Follows .statement := by
  intro s t h
  obtain ⟨u, hu, rfl⟩ := session?_inFrame h
  exact .block (hx _ u hu)

theorem Follows.turn (index value : Value) (hx : x.Follows .statement) :
    (Exec.inFrame none do
      Exec.modify fun session => { session with scopes := session.scopes.setTurn index value }
      x).Follows .statement := by
  intro s t h
  obtain ⟨u, hu, rfl⟩ := session?_inFrame h
  exact .turn (hx _ u hu)

theorem Follows.bindName (name : String) (value : Value) (constant : Bool) :
    (Exec.tryScopes fun scopes => scopes.bind name value constant).Follows .body :=
  .tryScopes fun _ _ h => .bind h

end Exec

/-! ### Calls -/

open Exec (Follows)

theorem pass_follows {role : Role} (byRef : Bool) (value : Value) :
    (pass byRef value).Follows role :=
  .onHeap _

theorem bindEach_follows (params : List Param) (args : List Value) :
    (bindEach params args).Follows .body := by
  -- on the parameters, for any arguments
  induction params generalizing args with
  | nil => exact .pure ()
  | cons param params ih =>
    cases args with
    | nil => exact .pure ()
    | cons arg args =>
      refine .bind (pass_follows param.byRef arg) fun value => ?_
      refine .bind (.bindName param.name value _) fun _ => ?_
      exact ih args

theorem bindParams_follows (callee : String) (params : List Param) (args : List Value) :
    (bindParams callee params args).Follows .body := by
  unfold bindParams
  split
  · exact bindEach_follows params args
  · exact .fail _

theorem nativeFold_follows {role : Role} (fn : Native) (op : ArithOp) (args : List Value) :
    (nativeFold fn op args).Follows role :=
  .bind (.ofExcept _) fun _ => .pure _

theorem runNative_follows {role : Role} (fn : Native) (args : List Value) :
    (runNative fn args).Follows role := by
  cases fn with
  | print =>
    -- printing touches neither the scopes nor the call stack, and probing does not either
    refine .bind (.modify (fun _ => rfl) fun _ => rfl) fun _ => ?_
    exact .pure _
  | add => exact nativeFold_follows _ _ args
  | sub => exact nativeFold_follows _ _ args
  | mul => exact nativeFold_follows _ _ args
  | div => exact nativeFold_follows _ _ args
  | probe =>
    simp only [runNative]
    split
    · exact .bind (.modify (fun _ => rfl) fun _ => rfl) fun _ => .pure _
    · exact .fail _
    · exact .fail _

/-- What runs inside a construct follows courses of its role. -/
structure Nested.Follows (nested : Nested) : Prop where
  eval : ∀ e, (nested.eval e).Follows .expression
  exec : ∀ stmt, (nested.exec stmt).Follows .statement

section Nested

variable {nested : Nested} (hnested : nested.Follows)

/-! ### Blocks -/

theorem hoistStmt_follows (stmt : Stmt) : (hoistStmt stmt).Follows .body := by
  -- what is hoisted is bound under its line, which is no part of a course
  unfold hoistStmt
  split
  · refine .bind (.modify (fun _ => rfl) fun _ => rfl) fun _ => ?_
    refine .bind (.onHeap _) fun f => ?_
    exact .located (.bindName _ f _)
  · refine .bind (.modify (fun _ => rfl) fun _ => rfl) fun _ => ?_
    exact .located (.tryScopes fun s scopes h => .bindClass h)
  · exact .pure ()

theorem hoist_follows (block : Block) : (hoist block).Follows .body := by
  -- on the block, statement by statement
  induction block with
  | nil => exact .pure ()
  | cons stmt rest ih =>
    refine .bind (hoistStmt_follows stmt) fun _ => ?_
    exact ih

include hnested

theorem runStmts_follows (block : Block) : (runStmts nested block).Follows .statement := by
  -- on the block; a statement that does not end normally leaves the others out
  induction block with
  | nil => exact .pure _
  | cons stmt rest ih =>
    unfold runStmts
    split
    · exact ih
    · refine .bind (hnested.exec stmt) fun flow => ?_
      cases flow with
      | normal => exact ih
      | result value => exact .pure _
      | breakLoop => exact .pure _
      | continueLoop => exact .pure _

theorem runBlock_follows (block : Block) : (runBlock nested block).Follows .statement := by
  refine .bind (hoist_follows block).statement_of_body fun _ => ?_
  exact runStmts_follows hnested block

theorem runScoped_follows (block : Block) : (runScoped nested block).Follows .statement :=
  .block (runBlock_follows hnested block)

omit hnested in
theorem finish_follows {role : Role} (flow : Flow) (implicit : Option Value) :
    (finish flow implicit).Follows role := by
  -- the interrupts fail here, and a failure changes nothing
  cases flow with
  | normal => exact .pure _
  | result value => exact .pure _
  | breakLoop => exact .located (.fail _)
  | continueLoop => exact .located (.fail _)

omit hnested in
theorem takeResult_follows : takeResult.Follows .statement := by
  rintro s t ⟨⟩
  exact .statement_of_body (.takeResult (.refl s))

omit hnested in
/-- The implicit result is taken out at the end of a body, whether or not it fails. -/
theorem run_runBody (body : Block) (s : Session) :
    (runBody nested body).run s =
      match (runBlock nested body).run s with
      | .done flow t =>
        (finish flow t.scopes.takeResult.1).run { t with scopes := t.scopes.takeResult.2 }
      | .failed failure t => .failed failure { t with scopes := t.scopes.takeResult.2 }
      | .outOfFuel => .outOfFuel := by
  -- the outcome of the block decides, and in two of the three the implicit result is taken
  unfold runBody
  rw [Exec.run_bind]
  simp only [Exec.afterFailure, Exec.run]
  cases runBlock nested body s <;> rfl

theorem runBody_follows (body : Block) : (runBody nested body).Follows .body := by
  have hblock := runBlock_follows hnested body
  intro s t h
  rw [run_runBody] at h
  -- the statements of the block are a body only with the implicit result taken out behind them
  cases hrun : (runBlock nested body).run s with
  | done flow u =>
    rw [hrun] at h
    exact .trans (.takeResult (hblock s u (by rw [hrun]; rfl))) (finish_follows flow _ _ t h)
  | failed failure u =>
    rw [hrun] at h
    cases h
    exact .takeResult (hblock s u (by rw [hrun]; rfl))
  | outOfFuel =>
    rw [hrun] at h
    cases h

theorem runProgram_follows (program : Block) : (runProgram nested program).Follows .statement := by
  refine .bind (runBlock_follows hnested program) fun flow => ?_
  refine .bind takeResult_follows fun implicit => ?_
  exact finish_follows flow implicit

/-! ### Calls and construction -/

theorem invoke_follows (routine : Routine) (receiver : Option Value) (args : List Value) :
    (invoke nested routine receiver args).Follows .expression := by
  refine .inCall _ ?_
  cases routine with
  | native fn =>
    -- a native function has no frame
    exact runNative_follows fn args
  | declared decl =>
    refine .callFrame receiver ?_
    refine .bind (bindParams_follows _ _ args) fun _ => ?_
    exact runBody_follows hnested decl.body

theorem initProps_follows (addr : Nat) (decls : List PropertyDecl) :
    (initProps nested addr decls).Follows .expression := by
  -- on the properties, each of which is set as soon as its value is there
  induction decls with
  | nil => exact .pure ()
  | cons decl rest ih =>
    refine .bind (hnested.eval decl.init) fun value => ?_
    refine .bind (.modify (fun _ => rfl) fun _ => rfl) fun _ => ?_
    exact ih

omit hnested in
theorem setParamProps_follows {role : Role} (addr : Nat) (params : List Param)
    (args : List Value) : (setParamProps addr params args).Follows role := by
  induction params generalizing args with
  | nil => exact .pure ()
  | cons param params ih =>
    cases args with
    | nil => exact .pure ()
    | cons arg args =>
      refine .bind (pass_follows param.byRef arg) fun value => ?_
      refine .bind (.modify (fun _ => rfl) fun _ => rfl) fun _ => ?_
      exact ih args

theorem construct_follows (decl : ClassDecl) (args : List Value) :
    (construct nested decl args).Follows .expression := by
  unfold construct
  split
  · refine .bind (.onHeap _) fun addr => ?_
    -- the first values run in a call with a frame, as a body would, but they bind nothing there
    have hinit : (Exec.inFrame (some (.object addr)) (initProps nested addr decl.properties)).Follows
        .expression := .callFrame _ (initProps_follows hnested addr _).ofExpression
    refine .bind (.inCall _ hinit) fun _ => ?_
    refine .bind (setParamProps_follows addr _ args) fun _ => ?_
    exact .pure _
  · exact .fail _

theorem settle_follows (reply : Reply) : (settle nested reply).Follows .expression := by
  cases reply with
  | value value => exact .pure value
  | call routine receiver args => exact invoke_follows hnested routine receiver args

theorem getProperty_follows (value : Value) (name : String) :
    (getProperty nested value name).Follows .expression :=
  .bind (.tryHeap _) fun reply => settle_follows hnested reply

theorem callMethod_follows (value : Value) (name : String) (args : List Value) :
    (callMethod nested value name args).Follows .expression :=
  .bind (.tryHeap _) fun reply => settle_follows hnested reply

/-! ### Expressions -/

theorem evalArgs_follows (args : List Expr) : (evalArgs nested args).Follows .expression := by
  induction args with
  | nil => exact .pure []
  | cons e rest ih =>
    refine .bind (hnested.eval e) fun value => ?_
    refine .bind ih fun values => ?_
    exact .pure (value :: values)

theorem evalEntries_follows (entries : Entries Value) (pairs : List (Expr × Expr)) :
    (evalEntries nested entries pairs).Follows .expression := by
  -- on the pairs, from left to right
  induction pairs generalizing entries with
  | nil => exact .pure entries
  | cons pair rest ih =>
    refine .bind (hnested.eval pair.1) fun keyValue => ?_
    refine .bind (.ofExcept (mapKey keyValue)) fun key => ?_
    refine .bind (hnested.eval pair.2) fun value => ?_
    exact ih (entries.insert key value)

theorem evalCondition_follows (e : Expr) : (evalCondition nested e).Follows .expression := by
  refine .bind (hnested.eval e) fun value => ?_
  split
  · exact .pure _
  · exact .fail _

theorem evalIndexSlot_follows (root index : Expr) :
    (evalIndexSlot nested root index).Follows .expression := by
  refine .bind (hnested.eval root) fun container => ?_
  refine .bind (hnested.eval index) fun i => ?_
  exact .ofExcept (Slot.atIndex container i)

theorem evalPropertySlot_follows (root : Expr) (name : String) :
    (evalPropertySlot nested root name).Follows .expression :=
  .bind (hnested.eval root) fun _ => .pure _

theorem Slot.read_follows (slot : Slot) : (slot.read nested).Follows .expression := by
  unfold Slot.read
  -- only a property can have a getter, and with it code of its own
  cases slot with
  | element addr index => exact .tryHeap _
  | entry addr key => exact .tryHeap _
  | property root name => exact getProperty_follows hnested root name

omit hnested in
theorem Slot.write_follows {role : Role} (slot : Slot) (new : Value) :
    (slot.write new).Follows role := by
  unfold Slot.write
  cases slot with
  | element addr index => exact .tryHeap _
  | entry addr key => exact .onHeap _
  | property root name => exact .tryHeap _

theorem callName_follows (name : String) (args : List Value) :
    (callName nested name args).Follows .expression := by
  -- a method of the receiver, or else what the name is bound to
  refine .bind (.read _) fun found => ?_
  split
  · exact invoke_follows hnested _ _ args
  · refine .bind (.read _) fun found => ?_
    refine .bind (.ofExcept found) fun callee => ?_
    split
    · exact invoke_follows hnested _ _ args
    · exact .fail _

theorem callValue_follows (callee : Value) (args : List Value) :
    (callValue nested callee args).Follows .expression := by
  unfold callValue
  split
  · exact invoke_follows hnested _ _ args
  · exact .bind (.read _) fun _ => .fail _

theorem evalCall_follows (callee : Expr) (args : List Expr) :
    (evalCall nested callee args).Follows .expression := by
  refine .bind (evalArgs_follows hnested args) fun values => ?_
  split
  · exact callName_follows hnested _ values
  · refine .bind (hnested.eval _) fun function => ?_
    exact callValue_follows hnested function values

theorem evalConstruct_follows (className : String) (args : List Expr) :
    (evalConstruct nested className args).Follows .expression := by
  refine .bind (.read _) fun found => ?_
  refine .bind (.ofExcept found) fun decl => ?_
  refine .bind (evalArgs_follows hnested args) fun values => ?_
  exact construct_follows hnested decl values

theorem evalAssign_follows (target value : Expr) (byRef : Bool) :
    (evalAssign nested target value byRef).Follows .expression := by
  refine .bind (hnested.eval value) fun v => ?_
  refine .bind (pass_follows byRef v) fun passed => ?_
  -- to assign to a name is the one thing here that changes the scopes
  split
  · refine .bind (.tryScopes fun s scopes h => .assign h) fun _ => ?_
    exact .pure passed
  · next root name =>
    refine .bind (evalPropertySlot_follows hnested root name) fun slot => ?_
    refine .bind (slot.write_follows passed) fun _ => ?_
    exact .pure passed
  · next root index =>
    refine .bind (evalIndexSlot_follows hnested root index) fun slot => ?_
    refine .bind (slot.write_follows passed) fun _ => ?_
    exact .pure passed
  · refine .bind (.fail _) fun _ => ?_
    exact .pure passed

theorem evalLogic_follows (op : LogicOp) (left right : Expr) :
    (evalLogic nested op left right).Follows .expression := by
  have hleft := evalCondition_follows hnested left
  have hright := evalCondition_follows hnested right
  -- conjunction and disjunction may leave the right operand out
  unfold evalLogic
  split
  · refine .bind hleft fun b => ?_
    split
    · exact .bind hright fun _ => .pure _
    · exact .pure _
  · refine .bind hleft fun b => ?_
    split
    · exact .pure _
    · exact .bind hright fun _ => .pure _
  · refine .bind (hnested.eval left) fun v => ?_
    refine .bind (hnested.eval right) fun w => ?_
    refine .bind (.read _) fun result => ?_
    refine .bind (.ofExcept result) fun holds => ?_
    exact .pure (Value.bool holds)

theorem evalExprWith_follows (e : Expr) : (evalExprWith nested e).Follows .expression := by
  -- one case for each kind of expression, all of them in the course of an expression
  cases e with
  | number text =>
    refine .bind (.ofExcept (Decimal.parse text)) fun d => ?_
    exact .pure (Value.dec d)
  | string text => exact .pure (Value.str text)
  | array items =>
    refine .bind (evalArgs_follows hnested items) fun values => ?_
    exact .onHeap _
  | map entries =>
    refine .bind (evalEntries_follows hnested .empty entries) fun result => ?_
    exact .onHeap _
  | name name =>
    refine .bind (.read _) fun found => ?_
    exact .ofExcept found
  | this =>
    refine .bind (.read _) fun receiver => ?_
    split
    · exact .pure _
    · exact .fail _
  | turn part =>
    refine .bind (.read _) fun turn => ?_
    split
    · cases part with
      | index => exact .pure _
      | value => exact .pure _
    · exact .fail _
  | property root name =>
    refine .bind (evalPropertySlot_follows hnested root name) fun slot => ?_
    exact slot.read_follows hnested
  | index root index =>
    refine .bind (evalIndexSlot_follows hnested root index) fun slot => ?_
    exact slot.read_follows hnested
  | call callee args => exact evalCall_follows hnested callee args
  | method root name args =>
    refine .bind (hnested.eval root) fun value => ?_
    refine .bind (evalArgs_follows hnested args) fun values => ?_
    exact callMethod_follows hnested value name values
  | construct className args => exact evalConstruct_follows hnested className args
  | assign target value byRef => exact evalAssign_follows hnested target value byRef
  | logic op left right => exact evalLogic_follows hnested op left right
  | negate operand =>
    refine .bind (evalCondition_follows hnested operand) fun b => ?_
    exact .pure (Value.bool !b)
  | arith op left right =>
    refine .bind (hnested.eval left) fun v => ?_
    refine .bind (hnested.eval right) fun w => ?_
    exact .ofExcept (applyArith op v w)

/-! ### Statements -/

theorem evalInitializer_follows (init : Initializer) :
    (evalInitializer nested init).Follows .expression := by
  cases init with
  | mutable value => exact .bind (hnested.eval value) fun _ => .pure _
  | constant value => exact .bind (hnested.eval value) fun _ => .pure _
  | construct className args =>
    exact .bind (evalConstruct_follows hnested className args) fun _ => .pure _

omit hnested in
theorem bindNames_follows (value : Value) (constant byRef : Bool) (names : List String) :
    (bindNames value constant byRef names).Follows .body := by
  -- on the names; each has its own copy
  induction names with
  | nil => exact .pure ()
  | cons name rest ih =>
    refine .bind (pass_follows byRef value) fun bound => ?_
    refine .bind (.bindName name bound constant) fun _ => ?_
    exact ih

omit hnested in
theorem runImport_follows (name : String) (localName : Option String) :
    (runImport name localName).Follows .body := by
  refine .bind (.read _) fun imported => ?_
  split
  · exact .fail _
  · exact .bindName _ _ _

theorem runArms_follows (otherwise : Option Block) (arms : List Arm) :
    (runArms nested otherwise arms).Follows .statement := by
  -- on the arms, and from the last to the block without a condition
  induction arms with
  | nil =>
    cases otherwise with
    | some block => exact runScoped_follows hnested block
    | none => exact .pure _
  | cons arm rest ih =>
    refine .bind (evalCondition_follows hnested arm.condition).ofExpression fun b => ?_
    split
    · exact runScoped_follows hnested arm.block
    · exact ih

theorem runLoop_follows (condition : Expr) (body : Block) (turns : Nat) :
    (runLoop nested condition body turns).Follows .statement := by
  -- on the number of turns that are left, as the loop itself recurs
  induction turns with
  | zero => exact .outOfFuel
  | succ turns ih =>
    refine .bind (evalCondition_follows hnested condition).ofExpression fun b => ?_
    split
    · refine .bind (runScoped_follows hnested body) fun flow => ?_
      split
      · exact .pure _
      · exact ih
    · exact .pure _

omit hnested in
theorem bindTurn_follows (names : TurnNames) (index value : Value) :
    (bindTurn names index value).Follows .body := by
  cases names with
  | none => exact .pure ()
  | value name => exact .bindName _ _ _
  | keyValue keyName valueName =>
    refine .bind (.bindName keyName index _) fun _ => ?_
    exact .bindName valueName value _

theorem runTurns_follows (names : TurnNames) (body : Block) (entries : List (Value × Value)) :
    (runTurns nested names body entries).Follows .statement := by
  induction entries with
  | nil => exact .pure _
  | cons entry rest ih =>
    obtain ⟨index, value⟩ := entry
    -- the names of the turn are bound as a body binds them, and then the block runs
    have hturn : (bindTurn names index value >>= fun _ => runBlock nested body).Follows
        .statement :=
      .bind (bindTurn_follows names index value).statement_of_body fun _ =>
        runBlock_follows hnested body
    refine .bind (.turn index value hturn) fun flow => ?_
    split
    · exact .pure _
    · exact ih

theorem execKindWith_follows (turns : Nat) (kind : StmtKind) :
    (execKindWith nested turns kind).Follows .statement := by
  -- one case for each kind of statement; expressions and bodies within it are parts of its course
  cases kind with
  | evaluate value =>
    refine .bind (hnested.eval value).ofExpression fun v => ?_
    refine .bind ?_ fun _ => .pure Flow.normal
    -- a value is noted as the result of the frame, which only a statement does
    rintro s t ⟨⟩
    exact .setResult s v
  | declare names init byRef =>
    refine .bind (evalInitializer_follows hnested init).ofExpression fun bound => ?_
    refine .bind (bindNames_follows bound.1 bound.2 byRef names).statement_of_body fun _ => ?_
    exact .pure Flow.normal
  | branch first others otherwise => exact runArms_follows hnested otherwise _
  | loop condition body => exact runLoop_follows hnested condition body turns
  | iterate target names body =>
    refine .bind (hnested.eval target).ofExpression fun v => ?_
    refine .bind (.read _) fun result => ?_
    refine .bind (.ofExcept result) fun entries => ?_
    exact runTurns_follows hnested names body entries
  | function decl => exact .pure _
  | classDecl decl => exact .pure _
  | result value =>
    cases value with
    | none => exact .pure _
    | some e =>
      refine .bind (hnested.eval e).ofExpression fun v => ?_
      exact .pure (Flow.result v)
  | breakLoop => exact .pure _
  | continueLoop => exact .pure _
  | importName name localName =>
    refine .bind (runImport_follows name localName).statement_of_body fun _ => ?_
    exact .pure Flow.normal

theorem execStmtWith_follows (turns : Nat) (stmt : Stmt) :
    (execStmtWith nested turns stmt).Follows .statement :=
  .atLine stmt.line (execKindWith_follows hnested turns stmt.kind)

end Nested

/-! ### With fuel -/

/-- **Evaluation follows courses**, by induction on the fuel: the rule for a construct is used with
less fuel for its parts. -/
theorem nestedWith_follows (fuel : Nat) : (nestedWith fuel).Follows := by
  induction fuel with
  | zero => exact ⟨fun _ => .outOfFuel, fun _ => .outOfFuel⟩
  | succ fuel ih =>
    exact ⟨fun e => evalExprWith_follows ih e, fun stmt => execStmtWith_follows ih fuel stmt⟩

end DecimalScript
