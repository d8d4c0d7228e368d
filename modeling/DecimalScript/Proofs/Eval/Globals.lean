import DecimalScript.Proofs.Eval.Passage
import DecimalScript.Proofs.Eval.Program
import DecimalScript.Proofs.Scope.Uncaptured

/-!
# Global names are never captured

The table of global names stays as it is while programs run, and no frame ever binds one of its
names (`Session.HasGlobals`). This is a property of the scopes that no operation on them ends, so it
holds between the programs of a host, of every session that a program passes through, and after it.

Where a construct gets as far as binding a global name, it fails (`Session.RefusesGlobal`). There
are eight places at which a construct binds a name. All of them go through `Scopes.bind` or
`Scopes.bindClass`, and what is to be shown for each is that it gets there and that the failure is
the failure of the construct.
-/

namespace DecimalScript

variable {α β : Type}

/-! ### The table of global names -/

/-- The table of global names is this one, no frame binds any of its names, and whichever frame is
current, looking up such a name gives the value in the table. -/
structure Session.HasGlobals (globals : Entries Value) (session : Session) : Prop where
  table : session.scopes.globals = globals
  uncaptured : session.scopes.Uncaptured
  find : ∀ (name : String) (value : Value) (current : Nat), globals.get? name = some value →
    ({ session.scopes with current } : Scopes).find name = .ok value

namespace Session

theorem hasGlobals_iff {globals : Entries Value} {s : Session} :
    s.HasGlobals globals ↔ s.scopes.globals = globals ∧ s.scopes.Uncaptured := by
  refine ⟨fun h => ⟨h.table, h.uncaptured⟩, fun ⟨htable, huncaptured⟩ => ⟨htable, huncaptured, ?_⟩⟩
  intro name value current hvalue
  -- the table is asked first, so it does not matter where the search would start
  rw [← htable] at hvalue
  exact Scopes.find_of_global hvalue

theorem hasGlobals_step {globals : Entries Value} {s : Scopes} (op : ScopeOp)
    (h : s.globals = globals ∧ s.Uncaptured) :
    (s.step op).2.globals = globals ∧ (s.step op).2.Uncaptured :=
  ⟨(Scopes.globals_step s op).trans h.1, h.2.step op⟩

theorem hasGlobals_invariant (globals : Entries Value) :
    Session.Invariant (HasGlobals globals) where
  elsewhere hs t hscopes _ _ := by
    rw [hasGlobals_iff] at hs ⊢
    rwa [hscopes]
  scopes op hs := hasGlobals_iff.2 (hasGlobals_step op (hasGlobals_iff.1 hs))

/-! ### The sessions of a host -/

/-- What every operation on the scopes keeps, a course keeps. -/
theorem Course.scopes_induction {p : Scopes → Prop}
    (hstep : ∀ (scopes : Scopes) (op : ScopeOp), p scopes → p (scopes.step op).2)
    {role : Role} {s t : Session} (h : Course role s t) (hs : p s.scopes) : p t.scopes := by
  -- on the course: each part of it that concerns the scopes is one of the operations
  induction h with
  | trans _ _ ihst ihtu => exact ihtu (ihst hs)
  | body_of_expression _ ih => exact ih hs
  | statement_of_body _ ih => exact ih hs
  | elsewhere hscopes _ => rwa [hscopes]
  | @assign s name value scopes h =>
    have hafter := hstep s.scopes (.assign name value) hs
    simp only [Scopes.step, h] at hafter
    exact hafter
  | @bind s name value constant scopes h =>
    have hafter := hstep s.scopes (.bind name value constant) hs
    simp only [Scopes.step, h] at hafter
    exact hafter
  | @bindClass s decl scopes h =>
    have hafter := hstep s.scopes (.bindClass decl) hs
    simp only [Scopes.step, h] at hafter
    exact hafter
  | setResult s value => exact hstep s.scopes (.setResult value) hs
  | takeResult _ ih => exact hstep _ .takeResult (ih hs)
  | call _ _ ih => exact ih hs
  | callFrame _ ih => exact hstep _ .pop (ih (hstep _ (.push _) hs))
  | block _ ih => exact hstep _ .pop (ih (hstep _ (.push none) hs))
  | turn _ ih => exact hstep _ .pop (ih (hstep _ (.setTurn _ _) (hstep _ (.push none) hs)))

variable {globals : Entries Value} {s t : Session} {fuel : Nat} {input : Input}

theorem HasGlobals.start (h : s.HasGlobals globals) (input : Input) :
    (s.start input).HasGlobals globals := by
  rw [hasGlobals_iff] at h ⊢
  exact h

theorem HasGlobals.of_passesThrough (h : s.HasGlobals globals)
    (hpasses : s.PassesThrough fuel input t) : t.HasGlobals globals :=
  (hasGlobals_invariant globals).of_passesThrough hpasses (h.start input)

theorem HasGlobals.execute (h : s.HasGlobals globals)
    (hends : (s.execute fuel input).session? = some t) : t.HasGlobals globals := by
  -- one evaluation is built of steps, each of which keeps the table of globals
  have hkeeps : ∀ u, ((input.evaluation fuel).run (s.start input)).session? = some u →
      u.HasGlobals globals := fun u hu =>
    (hasGlobals_invariant globals).of_built (input.evaluation_built fuel) (h.start input) hu
  obtain ⟨value, hdone⟩ | ⟨u, hu, rfl⟩ := Exec.session?_afterFailure hends
  · exact hkeeps t (by rw [Input.evaluation, hdone]; rfl)
  · -- after a failure the frames are unwound, which is an operation on the scopes as well
    exact hasGlobals_iff.2 (hasGlobals_step .unwind (hasGlobals_iff.1 (hkeeps u hu)))

/-- Between the programs of a host the frames bind no global name. -/
theorem Hosted.hasGlobals (h : s.Hosted) : s.HasGlobals s.scopes.globals := by
  -- on how the session was made; the table is found on the way and not known beforehand
  have hinit : ∃ globals, s.HasGlobals globals := by
    induction h with
    | @fresh s globals hscopes =>
      refine ⟨globals, hasGlobals_iff.2 ?_⟩
      rw [hscopes]
      exact ⟨rfl, Scopes.uncaptured_ofGlobals globals⟩
    | between _ hcourse ih =>
      obtain ⟨globals, hs⟩ := ih
      refine ⟨globals, hasGlobals_iff.2 ?_⟩
      exact hcourse.scopes_induction
        (p := fun scopes => scopes.globals = globals ∧ scopes.Uncaptured)
        (fun _ op => hasGlobals_step op) (hasGlobals_iff.1 hs)
    | execute _ hends ih =>
      obtain ⟨globals, hs⟩ := ih
      exact ⟨globals, hs.execute hends⟩
  obtain ⟨globals, hs⟩ := hinit
  rw [hs.table]
  exact hs

end Session

/-! ### Constructs that bind a global name -/

/-- Whatever binds the global name from this session fails for that, and so does an assignment to
it. The parts of a construct are run as `nested` says. -/
structure Session.RefusesGlobal (s : Session) (nested : Nested) (name : String) : Prop where
  /-- A declaration whose value has been found and whose names before this one are bound. -/
  declare : ∀ init byRef before after turns value constant t u,
    (evalInitializer nested init).run s = .done (value, constant) t →
    (bindNames value constant byRef before).run t = .done () u →
    ((execKindWith nested turns (.declare (before ++ name :: after) init byRef)).run s).cause? =
      some (.redeclaredName name)
  /-- An import under this name, be it its own or another one. -/
  importName : ∀ imported localName value turns, s.imports.get? imported = some value →
    localName.getD imported = name →
    ((execKindWith nested turns (.importName imported localName)).run s).cause? =
      some (.redeclaredName name)
  /-- A block that has bound what it declares before the function of this name. -/
  function : ∀ before (decl : FunctionDecl) line after t, (hoist before).run s = .done () t →
    decl.name = name →
    ((runBlock nested (before ++ ⟨.function decl, line⟩ :: after)).run s).cause? =
      some (.redeclaredName name)
  /-- A block that has bound what it declares before the class of this name. -/
  classDecl : ∀ before (decl : ClassDecl) line after t, (hoist before).run s = .done () t →
    decl.name = name →
    ((runBlock nested (before ++ ⟨.classDecl decl, line⟩ :: after)).run s).cause? =
      some (.redeclaredName name)
  /-- A call that is not refused, with as many arguments as parameters, that has bound the
  parameters before this one. -/
  param : ∀ (decl : FunctionDecl) before (param : Param) after receiver args calls t,
    decl.params = before ++ param :: after → param.name = name →
    decl.params.length = args.length → s.calls.push decl.name = .ok calls →
    (bindEach before args).run { s with calls, scopes := s.scopes.push receiver } = .done () t →
    ((invoke nested (.declared decl) receiver args).run s).cause? = some (.redeclaredName name)
  /-- A turn of an iteration that binds its value to this name. -/
  turnValue : ∀ body index value rest,
    ((runTurns nested (.value name) body ((index, value) :: rest)).run s).cause? =
      some (.redeclaredName name)
  /-- A turn of an iteration that binds its index or key to this name. -/
  turnKey : ∀ valueName body index value rest,
    ((runTurns nested (.keyValue name valueName) body ((index, value) :: rest)).run s).cause? =
      some (.redeclaredName name)
  /-- A turn of an iteration that has bound its index or key to another name. -/
  turnKeyValue : ∀ keyName body index value rest, s.scopes.globals.contains keyName = false →
    ((runTurns nested (.keyValue keyName name) body ((index, value) :: rest)).run s).cause? =
      some (.redeclaredName name)
  /-- An assignment whose right-hand side has been evaluated; it changes no frame and no table. -/
  assign : ∀ value byRef v t, (nested.eval value).run s = .done v t →
    ∃ after, (evalAssign nested (.name name) value byRef).run s =
      .failed (.ofCause (.assignedConstant name)) after ∧ after.scopes = t.scopes

section Refuses

variable {nested : Nested} {name : String} {s t : Session}

theorem run_bindName_of_global (h : s.scopes.globals.contains name = true) (value : Value)
    (constant : Bool) :
    (Exec.tryScopes fun scopes => scopes.bind name value constant).run s =
      .failed (.ofCause (.redeclaredName name)) s := by
  simp only [Exec.tryScopes, Exec.run, Scopes.bind_of_global h]

theorem cause?_bindName_of_global (h : s.scopes.globals.contains name = true) (value : Value)
    (constant : Bool) :
    ((Exec.tryScopes fun scopes => scopes.bind name value constant).run s).cause? =
      some (.redeclaredName name) := by
  rw [run_bindName_of_global h]
  rfl

theorem bindNames_append (value : Value) (constant byRef : Bool) (before after : List String) :
    bindNames value constant byRef (before ++ after) = (do
      bindNames value constant byRef before
      bindNames value constant byRef after) := by
  -- on the names before
  induction before with
  | nil => rfl
  | cons name before ih =>
    rw [List.cons_append, bindNames, bindNames, ih]
    simp only [bind_assoc]

theorem hoist_append (before after : Block) :
    hoist (before ++ after) = (do hoist before; hoist after) := by
  induction before with
  | nil => rfl
  | cons stmt before ih =>
    rw [List.cons_append, hoist, hoist, ih, bind_assoc]

/-- The first parameters take the first arguments. -/
theorem bindEach_append (before after : List Param) (args : List Value) :
    bindEach (before ++ after) args = (do
      bindEach before args
      bindEach after (args.drop before.length)) := by
  induction before generalizing args with
  | nil => rfl
  | cons param before ih =>
    cases args with
    | nil =>
      -- no argument is left, so nothing is bound on either side
      cases after <;> rfl
    | cons arg args =>
      rw [List.cons_append, bindEach, bindEach, ih]
      simp only [bind_assoc]
      rfl

/-- The table of global names stays as it is. -/
theorem contains_invariant (name : String) :
    Session.Invariant fun s => s.scopes.globals.contains name = true where
  elsewhere hs t hscopes _ _ := by rwa [hscopes]
  scopes op hs := by rwa [Scopes.globals_step]

theorem contains_of_done (h : s.scopes.globals.contains name = true) {x : Exec α} (hx : x.Built)
    {value : α} (hdone : x.run s = .done value t) : t.scopes.globals.contains name = true :=
  (contains_invariant name).of_built hx h (by rw [hdone]; rfl)

theorem cause?_inFrame {x : Exec α} (receiver : Option Value) (s : Session) :
    ((Exec.inFrame receiver x).run s).cause? =
      (x.run { s with scopes := s.scopes.push receiver }).cause? :=
  Exec.cause?_afterwards x _ { s with scopes := s.scopes.push receiver }

theorem cause?_inCall {x : Exec α} {called : String} {calls : CallStack}
    (hpush : s.calls.push called = .ok calls) :
    ((Exec.inCall called x).run s).cause? = (x.run { s with calls }).cause? := by
  simp only [Exec.inCall, Exec.run, hpush]
  exact Exec.cause?_afterwards x _ { s with calls }

open Exec (cause?_bind_of_cause cause?_bind_of_done)

theorem cause?_bindNames_of_global (h : s.scopes.globals.contains name = true) (value : Value)
    (constant byRef : Bool) (after : List String) :
    ((bindNames value constant byRef (name :: after)).run s).cause? =
      some (.redeclaredName name) := by
  rw [bindNames, cause?_bind_of_done (show (pass byRef value).run s = .done _ _ from rfl)]
  -- to copy the value changes the heap only
  refine cause?_bind_of_cause (cause?_bindName_of_global ?_ _ _)
  exact h

theorem cause?_hoistStmt_of_global (stmt : Stmt)
    (hdeclares : (∃ decl, stmt.kind = .function decl ∧ decl.name = name) ∨
      ∃ decl, stmt.kind = .classDecl decl ∧ decl.name = name)
    (h : s.scopes.globals.contains name = true) :
    ((hoistStmt stmt).run s).cause? = some (.redeclaredName name) := by
  unfold hoistStmt
  -- functions and classes are bound in different tables, and both look at the globals first
  obtain ⟨decl, hkind, rfl⟩ | ⟨decl, hkind, rfl⟩ := hdeclares
  · simp only [hkind]
    rw [cause?_bind_of_done (show (Exec.setLine stmt.line).run s = .done () _ from rfl),
      cause?_bind_of_done (show Exec.run (Exec.onHeap _) _ = .done _ _ from rfl),
      Exec.cause?_located]
    refine cause?_bindName_of_global ?_ _ _
    exact h
  · simp only [hkind]
    rw [cause?_bind_of_done (show (Exec.setLine stmt.line).run s = .done () _ from rfl),
      Exec.cause?_located]
    simp only [Exec.tryScopes, Exec.run, Scopes.bindClass_of_global h]
    rfl

theorem cause?_runBlock_of_global {nested : Nested} {before after : Block} {stmt : Stmt}
    (hdeclares : (∃ decl, stmt.kind = .function decl ∧ decl.name = name) ∨
      ∃ decl, stmt.kind = .classDecl decl ∧ decl.name = name)
    (h : s.scopes.globals.contains name = true) (hbefore : (hoist before).run s = .done () t) :
    ((runBlock nested (before ++ stmt :: after)).run s).cause? = some (.redeclaredName name) := by
  -- what is hoisted before leaves the table as it is
  have ht := contains_of_done h (Exec.built_congruence.compatible.hoist before) hbefore
  refine cause?_bind_of_cause ?_
  rw [hoist_append, cause?_bind_of_done hbefore]
  exact cause?_bind_of_cause (cause?_hoistStmt_of_global stmt hdeclares ht)

theorem cause?_runTurns_of_bindTurn {nested : Nested} {names : TurnNames} {body : Block}
    {index value : Value} {rest : List (Value × Value)} {cause : Cause}
    (hbind : ((bindTurn names index value).run
      { s with scopes := (s.scopes.push none).setTurn index value }).cause? = some cause) :
    ((runTurns nested names body ((index, value) :: rest)).run s).cause? = some cause := by
  -- the first turn fails, so no other one begins
  refine cause?_bind_of_cause ?_
  rw [cause?_inFrame, cause?_bind_of_done (Exec.run_modify _ _)]
  exact cause?_bind_of_cause hbind

/-- In the frame of a turn no name is bound yet. -/
theorem bind_turn_ne_error (scopes : Scopes) (index value : Value) {keyName : String}
    (hkey : scopes.globals.contains keyName = false) (cause : Cause) :
    ((scopes.push none).setTurn index value).bind keyName index false ≠ .error cause := by
  -- the frame of a turn is new, so it holds no name yet
  have hframe : ((scopes.push none).setTurn index value).frames[scopes.depth]? =
      some { Frame.fresh (some scopes.current) none with turn := some (index, value) } := by
    rw [Scopes.setTurn_push]
    simp [Scopes.enter, Scopes.depth]
  have hglobal : ¬((scopes.push none).setTurn index value).globals.contains keyName = true := by
    change ¬scopes.globals.contains keyName = true
    rw [hkey]
    exact Bool.false_ne_true
  intro herror
  unfold Scopes.bind at herror
  rw [if_neg hglobal] at herror
  change (if ((((scopes.push none).setTurn index value).frames[scopes.depth]?).any
    (·.bindings.contains keyName)) then _ else _) = _ at herror
  rw [hframe] at herror
  cases herror

theorem refusesGlobal (hnested : nested.Built) (h : s.scopes.globals.contains name = true) :
    s.RefusesGlobal nested name where
  -- in each place the code before may run, and it leaves the table of globals as it is
  declare init byRef before after turns value constant t u hinit hbefore := by
    have ht := contains_of_done h (Exec.built_congruence.compatible.evalInitializer hnested init) hinit
    have hu := contains_of_done ht
      (Exec.built_congruence.compatible.bindNames value constant byRef before) hbefore
    have hbind : ((bindNames value constant byRef (before ++ name :: after)).run t).cause? =
        some (.redeclaredName name) := by
      rw [bindNames_append, cause?_bind_of_done hbefore]
      exact cause?_bindNames_of_global hu value constant byRef after
    rw [execKindWith, cause?_bind_of_done hinit]
    exact cause?_bind_of_cause hbind
  importName imported localName value turns himport hname := by
    subst hname
    refine cause?_bind_of_cause ?_
    rw [runImport, cause?_bind_of_done (Exec.run_read _ _), himport]
    exact cause?_bindName_of_global h value true
  function before decl line after t hbefore hname :=
    cause?_runBlock_of_global (.inl ⟨decl, rfl, hname⟩) h hbefore
  classDecl before decl line after t hbefore hname :=
    cause?_runBlock_of_global (.inr ⟨decl, rfl, hname⟩) h hbefore
  param decl before param after receiver args calls t hparams hname hlength hpush hbefore := by
    subst hname
    let entered : Session := { s with calls, scopes := s.scopes.push receiver }
    have hentered : entered.scopes.globals.contains param.name = true := h
    have ht := contains_of_done hentered (Exec.built_congruence.compatible.bindEach before args) hbefore
    -- as many arguments as parameters stand behind the first ones, so there is one for this
    -- parameter
    obtain ⟨arg, rest, hargs⟩ : ∃ arg rest, args.drop before.length = arg :: rest := by
      refine List.exists_cons_of_length_pos ?_
      rw [hparams, List.length_append, List.length_cons] at hlength
      rw [List.length_drop]
      omega
    have hbind : ((bindParams decl.name decl.params args).run entered).cause? =
        some (.redeclaredName param.name) := by
      rw [bindParams, if_pos hlength, hparams, bindEach_append, cause?_bind_of_done hbefore, hargs,
        bindEach, cause?_bind_of_done (show (pass param.byRef arg).run t = .done _ _ from rfl)]
      refine cause?_bind_of_cause (cause?_bindName_of_global ?_ _ _)
      exact ht
    have hpush' : s.calls.push (Routine.declared decl).name = .ok calls := hpush
    rw [invoke, cause?_inCall hpush', cause?_inFrame]
    exact cause?_bind_of_cause hbind
  turnValue body index value rest := by
    refine cause?_runTurns_of_bindTurn (cause?_bindName_of_global ?_ value false)
    exact h
  turnKey valueName body index value rest := by
    refine cause?_runTurns_of_bindTurn
      (cause?_bind_of_cause (cause?_bindName_of_global ?_ index false))
    exact h
  turnKeyValue keyName body index value rest hkey := by
    let turn : Session := { s with scopes := (s.scopes.push none).setTurn index value }
    have hturn : turn.scopes.globals.contains name = true := h
    -- the key is no global, and in the new frame it clashes with nothing
    have hdone : ∃ t, (Exec.tryScopes fun scopes => scopes.bind keyName index false).run turn =
        .done () t := by
      cases hbind : turn.scopes.bind keyName index false with
      | ok scopes => exact ⟨{ turn with scopes }, by simp only [Exec.tryScopes, Exec.run, hbind]⟩
      | error cause => exact absurd hbind (bind_turn_ne_error s.scopes index value hkey cause)
    obtain ⟨t, hdone⟩ := hdone
    have ht := contains_of_done hturn (.step (.bindName keyName index false)) hdone
    refine cause?_runTurns_of_bindTurn ?_
    change ((Exec.tryScopes _ >>= fun _ => Exec.tryScopes _).run turn).cause? = _
    rw [cause?_bind_of_done hdone]
    exact cause?_bindName_of_global ht value false
  assign value byRef v t heval := by
    have ht := contains_of_done h (hnested.eval value) heval
    -- the value is copied before the assignment is refused, so the heap is not the same
    let passed := (t.heap.pass byRef v)
    refine ⟨{ t with heap := passed.2 }, ?_, rfl⟩
    have hassign : (Exec.tryScopes fun scopes => scopes.assign name passed.1).run
        { t with heap := passed.2 } =
        .failed (.ofCause (.assignedConstant name)) { t with heap := passed.2 } := by
      simp only [Exec.tryScopes, Exec.run, Scopes.assign_of_global ht]
    rw [evalAssign, Exec.run_bind, heval]
    change ((Exec.tryScopes fun scopes => scopes.assign name passed.1) >>= fun _ => _).run
      { t with heap := passed.2 } = _
    rw [Exec.run_bind, hassign]

end Refuses

/-- **Global names are never captured.** Whatever a host has run in a session, and in every session
that the next program passes through, whether or not it ends, as well as in the one that it leaves
behind, the table of global names is the same and no frame binds any of its names, so such a name is
always found to be what the table says. And from every session on the way each construct that gets as
far as binding such a name, or as assigning to it, fails for that. -/
theorem globals_never_captured {session : Session} (hosted : session.Hosted) :
    session.HasGlobals session.scopes.globals ∧
    ∀ fuel input,
      (∀ reached, session.PassesThrough fuel input reached →
        reached.HasGlobals session.scopes.globals ∧
        ∀ name, session.scopes.globals.contains name = true →
          ∀ parts, reached.RefusesGlobal (nestedWith parts) name) ∧
      ∀ after, (session.execute fuel input).session? = some after →
        after.HasGlobals session.scopes.globals := by
  have hsession := hosted.hasGlobals
  refine ⟨hsession, fun fuel input => ⟨fun reached hpasses => ?_, fun after hends => ?_⟩⟩
  · -- what the session passes through has the same table, so these are the globals that are meant
    have hreached := hsession.of_passesThrough hpasses
    refine ⟨hreached, fun name hname parts => refusesGlobal (nestedWith_built parts) ?_⟩
    rw [hreached.table]
    exact hname
  · exact hsession.execute hends

/-- A declaration of two names, of which the second one is global. -/
def capturing : Input where
  program := [⟨.declare ["x", "g"] (.mutable (.string "a")) false, 1⟩]
  file := none
  source := none

/-- The first name is bound, and the declaration fails at the second one. -/
theorem capturing_refused :
    let session := Session.fresh .empty (.ofList [("g", .null)])
    session.Hosted ∧
    (session.execute 9 capturing).cause? = some (.redeclaredName "g") ∧
    ∃ after, (session.execute 9 capturing).session? = some after ∧
      (after.scopes.find "x").toOption.isSome = true ∧
      after.HasGlobals session.scopes.globals ∧
      session.PassesThrough 9 capturing (session.start capturing) ∧
      (session.start capturing).RefusesGlobal (nestedWith 9) "g" := by
  intro session
  have hosted : session.Hosted := .fresh rfl
  have hends : (session.execute 9 capturing).session?.isSome = true := by decide +kernel
  obtain ⟨after, hafter⟩ := Option.isSome_iff_exists.1 hends
  have hpasses : session.PassesThrough 9 capturing (session.start capturing) :=
    ⟨Value, _, _, .self (capturing.evaluation_built 9), .inl rfl⟩
  have hruns := (globals_never_captured hosted).2 9 capturing
  refine ⟨hosted, by decide +kernel, after, hafter, ?_, hruns.2 after hafter, hpasses,
    (hruns.1 _ hpasses).2 "g" (by decide +kernel) 9⟩
  have hbound : ((session.execute 9 capturing).session?.map fun t =>
      (t.scopes.find "x").toOption.isSome) = some true := by decide +kernel
  rw [hafter] at hbound
  exact Option.some.inj hbound

end DecimalScript
