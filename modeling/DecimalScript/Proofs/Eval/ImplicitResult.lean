import DecimalScript.Proofs.Eval.Log
import DecimalScript.Proofs.Eval.Program

/-!
# The implicit result is the last expression statement executed

What the current frame holds as its implicit result follows the log of the activation: after any
statements it is the last value of the log, or what it was before if the log is empty
(`Logged.Tells`). Expressions, calls in them included, and declarations leave it alone
(`Exec.Quiet`), and what a block's frame hands on to the frame around it is the last value that the
block executed. So a body or a program that starts with no implicit result ends with the last value
of its own log (`implicit_result_is_last_executed`).

A body starts so because its frame is new. A program starts so because the session is at rest, whatever
ran in it before (`Session.Hosted.atRest`).
-/

namespace DecimalScript

variable {α β : Type}

/-! ### What leaves the implicit result alone -/

namespace Exec

/-- Where the evaluation ends with a value, the implicit result of the current frame is what it
was. -/
def Quiet (x : Exec α) : Prop :=
  ∀ s value t, s.scopes.Live → x.run s = .done value t →
    t.scopes.Live ∧ t.scopes.implicit? = s.scopes.implicit?

variable {x : Exec α}

/-- An expression leaves every frame its implicit result, whatever it calls. -/
theorem Quiet.ofFollows (hx : x.Follows .expression) : x.Quiet := by
  intro s value t hlive h
  have hkept := ((hx s t (by rw [h]; rfl)).kept hlive.depth_pos).scopes
  exact ⟨hlive.of_kept hkept, hkept.implicit? hlive⟩

theorem Quiet.bind {f : α → Exec β} (hx : x.Quiet) (hf : ∀ value, (f value).Quiet) :
    (x >>= f).Quiet := by
  intro s value t hlive h
  obtain ⟨first, u, hfirst, hsecond⟩ := run_bind_eq_done_iff.1 h
  obtain ⟨hlive', himplicit⟩ := hx s first u hlive hfirst
  obtain ⟨hlive'', himplicit'⟩ := hf first u value t hlive' hsecond
  exact ⟨hlive'', himplicit'.trans himplicit⟩

theorem Quiet.located (hx : x.Quiet) : x.located.Quiet :=
  fun s value t hlive h => hx s value t hlive (run_located_eq_done_iff.1 h)

/-- A binding is added to the current frame, and nothing else changes there. -/
theorem Quiet.tryScopes {f : Scopes → Except Cause Scopes} {change : Frame → Frame → Prop}
    (hkept : ∀ s t, f s = .ok t → s.Kept change t)
    (himplicit : ∀ s t, f s = .ok t → t.implicit? = s.implicit?) : (Exec.tryScopes f).Quiet := by
  intro s value t hlive h
  simp only [Exec.tryScopes, Exec.run] at h
  -- a failed operation gives no value, so nothing is asked of it
  split at h
  · next scopes hok =>
    cases h
    exact ⟨hlive.of_kept (hkept _ _ hok), himplicit _ _ hok⟩
  · cases h

theorem Quiet.bindName (name : String) (value : Value) (constant : Bool) :
    (Exec.tryScopes fun scopes => scopes.bind name value constant).Quiet :=
  .tryScopes (fun _ _ => Scopes.kept_bind) fun _ _ => Scopes.implicit?_bind

end Exec

open Exec (Quiet)

theorem hoistStmt_quiet (stmt : Stmt) : (hoistStmt stmt).Quiet := by
  have hline : (Exec.setLine stmt.line).Quiet :=
    .ofFollows (.modify (fun _ => rfl) fun _ => rfl)
  -- neither the line nor a new function is part of a frame
  unfold hoistStmt
  split
  · refine .bind hline fun _ => ?_
    refine .bind (.ofFollows (.onHeap _)) fun f => ?_
    exact .located (.bindName _ f _)
  · refine .bind hline fun _ => .located ?_
    exact .tryScopes (fun _ _ => Scopes.kept_bindClass) fun _ _ => Scopes.implicit?_bindClass
  · exact .ofFollows (.pure ())

theorem hoist_quiet (block : Block) : (hoist block).Quiet := by
  induction block with
  | nil => exact .ofFollows (.pure ())
  | cons stmt rest ih =>
    refine .bind (hoistStmt_quiet stmt) fun _ => ?_
    exact ih

theorem bindNames_quiet (value : Value) (constant byRef : Bool) (names : List String) :
    (bindNames value constant byRef names).Quiet := by
  -- on the names; what is bound is no result
  induction names with
  | nil => exact .ofFollows (.pure ())
  | cons name rest ih =>
    refine .bind (.ofFollows (pass_follows byRef value)) fun bound => ?_
    refine .bind (.bindName name bound constant) fun _ => ?_
    exact ih

theorem runImport_quiet (name : String) (localName : Option String) :
    (runImport name localName).Quiet := by
  refine .bind (.ofFollows (.read _)) fun imported => ?_
  cases imported with
  | none => exact .ofFollows (.fail _)
  | some value => exact .bindName _ _ _

theorem bindTurn_quiet (names : TurnNames) (index value : Value) :
    (bindTurn names index value).Quiet := by
  cases names with
  | none => exact .ofFollows (.pure ())
  | value name => exact .bindName _ _ _
  | keyValue keyName valueName =>
    refine .bind (.bindName keyName index _) fun _ => ?_
    exact .bindName valueName value _

/-! ### The implicit result follows the log -/

namespace Logged

/-- Where the evaluation ends with a value, the implicit result of the current frame is the last
value of the log, or what it was if the log is empty. -/
def Tells (x : Logged) : Prop :=
  ∀ s flow values t, s.scopes.Live → Exec.run x s = .done (flow, values) t →
    t.scopes.Live ∧ t.scopes.implicit? = values.getLast?.or s.scopes.implicit?

variable {x : Logged} {y : Exec Flow}

theorem Erases.follows {role : Role} (h : x.Erases y) (hy : y.Follows role) :
    Exec.Follows role x := by
  intro s t hx
  refine hy s t ?_
  -- without the log the outcome is the same, and it leads to the same state
  rw [← h, run_fst]
  cases hrun : x.run s with
  | done told u => rwa [hrun] at hx
  | failed failure u => rwa [hrun] at hx
  | outOfFuel => rwa [hrun] at hx

theorem Tells.pure (flow : Flow) : Tells (Pure.pure (flow, [])) := by
  rintro s _ _ t hlive ⟨⟩
  exact ⟨hlive, rfl⟩

theorem Tells.outOfFuel : Tells Exec.outOfFuel := by
  rintro s flow values t hlive ⟨⟩

theorem Tells.bind_quiet {z : Exec α} {f : α → Logged} (hz : z.Quiet)
    (hf : ∀ value, (f value).Tells) : Tells (z >>= f) := by
  intro s flow values t hlive h
  obtain ⟨first, u, hfirst, hsecond⟩ := Exec.run_bind_eq_done_iff.1 h
  obtain ⟨hlive', himplicit⟩ := hz s first u hlive hfirst
  rw [← himplicit]
  exact hf first u flow values t hlive' hsecond

theorem Tells.ofQuiet (hy : y.Quiet) : Tells (do return (← y, [])) :=
  .bind_quiet hy fun flow => .pure flow

/-- After the first part either nothing more is executed, or a second part whose log comes after. -/
theorem Tells.bind {f : Flow × List Value → Logged} (hx : x.Tells)
    (hf : ∀ flow values, (∃ ended, f (flow, values) = Pure.pure (ended, values)) ∨
      ∃ rest : Logged, rest.Tells ∧ f (flow, values) = rest.after values) :
    Tells (x >>= f) := by
  intro s flow values t hlive h
  obtain ⟨⟨first, before⟩, u, hfirst, hsecond⟩ := Exec.run_bind_eq_done_iff.1 h
  obtain ⟨hlive', himplicit⟩ := hx s first before u hlive hfirst
  obtain ⟨ended, hended⟩ | ⟨rest, hrest, hafter⟩ := hf first before
  · rw [hended] at hsecond
    cases hsecond
    exact ⟨hlive', himplicit⟩
  · rw [hafter] at hsecond
    obtain ⟨⟨second, more⟩, v, hmore, heq⟩ := Exec.run_bind_eq_done_iff.1 hsecond
    cases heq
    obtain ⟨hlive'', himplicit'⟩ := hrest u _ more _ hlive' hmore
    refine ⟨hlive'', ?_⟩
    -- the last value of two logs is that of the second one, if it has any
    rw [himplicit', himplicit, List.getLast?_append, Option.or_assoc]

theorem Tells.atLine (line : Nat) (hx : x.Tells) : Tells (Exec.atLine line x) := by
  refine .bind_quiet (.ofFollows (.modify (fun _ => rfl) fun _ => rfl)) fun _ => ?_
  intro s flow values t hlive h
  rw [Exec.run_located_eq_done_iff, Exec.run_afterFailure_eq_done_iff] at h
  exact hx s flow values t hlive h

/-- The evaluation runs in a frame that was entered for it and that its parent takes over from. -/
theorem implicit?_of_enter (hx : x.Tells) (hfollows : Exec.Follows .statement x) {s u : Session}
    {frame : Frame} {flow : Flow} {values : List Value} (hlive : s.scopes.Live)
    (hparent : frame.parent = some s.scopes.current) (hresult : frame.result = none)
    (h : Exec.run x { s with scopes := s.scopes.enter frame } = .done (flow, values) u) :
    u.scopes.pop.Live ∧ u.scopes.pop.implicit? = values.getLast?.or s.scopes.implicit? := by
  -- the frame that was entered stays the current one until it is left
  have hentered := Scopes.live_enter s.scopes frame
  have hkept := ((hfollows _ u (by rw [h]; rfl)).kept hentered.depth_pos).scopes
  obtain ⟨-, himplicit⟩ := hx _ flow values u hentered h
  refine ⟨hlive.of_kept (hkept.pop_block hlive.depth_pos hparent), ?_⟩
  rw [Scopes.implicit?_pop hlive hparent hkept, himplicit, Scopes.implicit?_enter, hresult,
    Option.or_none]

theorem Tells.scoped (hx : x.Tells) (hfollows : Exec.Follows .statement x) :
    Tells (Exec.inFrame none x) := by
  intro s flow values t hlive h
  obtain ⟨u, hu, rfl⟩ := Exec.run_inFrame_eq_done_iff.1 h
  exact implicit?_of_enter hx hfollows hlive rfl rfl hu

theorem Tells.turn (index value : Value) (hx : x.Tells) (hfollows : Exec.Follows .statement x) :
    Tells (Exec.inFrame none do
      Exec.modify fun session => { session with scopes := session.scopes.setTurn index value }
      x) := by
  intro s flow values t hlive h
  -- the turn runs in a frame of its own, and what it leaves as result goes to the frame around it
  obtain ⟨u, hu, rfl⟩ := Exec.run_inFrame_eq_done_iff.1 h
  rw [Exec.run_bind, Exec.run_modify, Scopes.setTurn_push] at hu
  exact implicit?_of_enter hx hfollows hlive rfl rfl hu

end Logged

section Constructs

open Logged (Tells)

variable {fuel : Nat} (hexec : ∀ stmt, (logStmt fuel stmt).Tells)
include hexec

theorem logStmts_tells (block : Block) : (logStmts (logStmt fuel) block).Tells := by
  -- on the block, each statement of which adds its values at the end of the log
  induction block with
  | nil => exact .pure _
  | cons stmt rest ih =>
    rw [logStmts]
    split
    · exact ih
    · refine .bind (hexec stmt) fun flow values => ?_
      cases flow with
      | normal => exact .inr ⟨_, ih, rfl⟩
      | result value => exact .inl ⟨_, rfl⟩
      | breakLoop => exact .inl ⟨_, rfl⟩
      | continueLoop => exact .inl ⟨_, rfl⟩

theorem logBlock_tells (block : Block) : (logBlock (logStmt fuel) block).Tells :=
  .bind_quiet (hoist_quiet block) fun _ => logStmts_tells hexec block

omit hexec in
theorem logBlock_follows (fuel : Nat) (block : Block) :
    Exec.Follows .statement (logBlock (logStmt fuel) block) :=
  (erases_logBlock (erases_logStmt fuel) block).follows
    (runBlock_follows (nestedWith_follows fuel) block)

theorem logScoped_tells (block : Block) : (logScoped (logStmt fuel) block).Tells :=
  .scoped (logBlock_tells hexec block) (logBlock_follows fuel block)

omit hexec in
theorem evalCondition_quiet (fuel : Nat) (e : Expr) : (evalCondition (nestedWith fuel) e).Quiet :=
  .ofFollows (evalCondition_follows (nestedWith_follows fuel) e)

theorem logArms_tells (otherwise : Option Block) (arms : List Arm) :
    (logArms (nestedWith fuel) (logStmt fuel) otherwise arms).Tells := by
  -- on the arms; a condition tells nothing
  induction arms with
  | nil =>
    cases otherwise with
    | some block => exact logScoped_tells hexec block
    | none => exact .pure _
  | cons arm rest ih =>
    refine .bind_quiet (evalCondition_quiet fuel arm.condition) fun b => ?_
    split
    · exact logScoped_tells hexec arm.block
    · exact ih

theorem logLoop_tells (condition : Expr) (body : Block) (turns : Nat) :
    (logLoop (nestedWith fuel) (logStmt fuel) condition body turns).Tells := by
  -- on the number of turns that are left
  induction turns with
  | zero => exact .outOfFuel
  | succ turns ih =>
    refine .bind_quiet (evalCondition_quiet fuel condition) fun b => ?_
    split
    · -- a turn that ends the loop has its values in the log as any other
      refine .bind (logScoped_tells hexec body) fun flow values => ?_
      dsimp only
      cases flow.endsLoop? with
      | some ended => exact .inl ⟨_, rfl⟩
      | none => exact .inr ⟨_, ih, rfl⟩
    · exact .pure _

theorem logTurns_tells (names : TurnNames) (body : Block) (entries : List (Value × Value)) :
    (logTurns (logStmt fuel) names body entries).Tells := by
  induction entries with
  | nil => exact .pure _
  | cons entry rest ih =>
    obtain ⟨index, value⟩ := entry
    -- the names of the turn are bound without a result, so what the block tells is what the turn does
    have htells := Logged.Tells.bind_quiet (bindTurn_quiet names index value) fun _ =>
      logBlock_tells hexec body
    have hfollows := Exec.Follows.bind (bindTurn_follows names index value).statement_of_body
      fun _ => logBlock_follows fuel body
    refine .bind (.turn index value htells hfollows) fun flow values => ?_
    dsimp only
    cases flow.endsLoop? with
    | some ended => exact .inl ⟨_, rfl⟩
    | none => exact .inr ⟨_, ih, rfl⟩

/-- An expression statement is where a value comes into the log and becomes the implicit result. -/
theorem logKind_tells (kind : StmtKind) :
    (logKind (nestedWith fuel) (logStmt fuel) fuel kind).Tells := by
  have hnested := nestedWith_follows fuel
  -- only the evaluation of an expression tells a value by itself; what holds blocks tells what they
  -- tell
  cases kind with
  | evaluate e =>
    refine .bind_quiet (.ofFollows (hnested.eval e)) fun value => ?_
    rintro s _ _ t hlive ⟨⟩
    have hkept := Scopes.kept_setResult s.scopes value
    exact ⟨hlive.of_kept hkept, Scopes.implicit?_setResult hlive value⟩
  | declare names init byRef =>
    refine .ofQuiet ?_
    refine .bind (.ofFollows (evalInitializer_follows hnested init)) fun bound => ?_
    refine .bind (bindNames_quiet bound.1 bound.2 byRef names) fun _ => ?_
    exact .ofFollows (.pure _)
  | branch first others otherwise => exact logArms_tells hexec otherwise _
  | loop condition body => exact logLoop_tells hexec condition body fuel
  | iterate target names body =>
    refine .bind_quiet (.ofFollows (hnested.eval target)) fun container => ?_
    refine .bind_quiet (.ofFollows (.read _)) fun turns => ?_
    refine .bind_quiet (.ofFollows (.ofExcept turns)) fun entries => ?_
    exact logTurns_tells hexec names body entries
  | function decl => exact .ofQuiet (.ofFollows (.pure _))
  | classDecl decl => exact .ofQuiet (.ofFollows (.pure _))
  | result value =>
    cases value with
    | none => exact .ofQuiet (.ofFollows (.pure _))
    | some e =>
      refine .ofQuiet (.bind (.ofFollows (hnested.eval e)) fun value => ?_)
      exact .ofFollows (.pure _)
  | breakLoop => exact .ofQuiet (.ofFollows (.pure _))
  | continueLoop => exact .ofQuiet (.ofFollows (.pure _))
  | importName name localName =>
    refine .ofQuiet (.bind (runImport_quiet name localName) fun _ => ?_)
    exact .ofFollows (.pure _)

end Constructs

theorem logStmt_tells (fuel : Nat) (stmt : Stmt) : (logStmt fuel stmt).Tells := by
  induction fuel generalizing stmt with
  | zero => exact .outOfFuel
  | succ fuel ih => exact .atLine stmt.line (logKind_tells ih stmt.kind)

/-! ### The result of an activation -/

/-- An activation without an implicit result at its start has the last value of its log at its
end. -/
theorem resultOf?_iff_log {fuel : Nat} {block : Block} {s t : Session} {value : Value}
    (hlive : s.scopes.Live) (hnone : s.scopes.implicit? = none) :
    (∃ flow u, (runBlock (nestedWith fuel) block).run s = .done flow u ∧
        flow.resultOf? u.scopes.implicit? = some value ∧ t = u.withoutResult) ↔
      ∃ flow values u, Exec.run (logBlock (logStmt fuel) block) s = .done (flow, values) u ∧
        flow.resultOf? values.getLast? = some value ∧ t = u.withoutResult := by
  have htells := logBlock_tells (logStmt_tells fuel) block s
  have herased := Logged.run_fst (logBlock (logStmt fuel) block) s
  rw [fst_logBlock] at herased
  rw [herased]
  -- the log is an annotation: without it the run is the same, so both sides speak of one outcome
  cases hlog : Exec.run (logBlock (logStmt fuel) block) s with
  | done told u =>
    have himplicit := (htells told.1 told.2 u hlive hlog).2
    rw [hnone, Option.or_none] at himplicit
    constructor
    · rintro ⟨_, _, ⟨⟩, hresult, rfl⟩
      rw [himplicit] at hresult
      exact ⟨told.1, told.2, u, rfl, hresult, rfl⟩
    · rintro ⟨_, _, _, ⟨⟩, hresult, rfl⟩
      rw [← himplicit] at hresult
      exact ⟨_, _, rfl, hresult, rfl⟩
  | failed failure u => simp
  | outOfFuel => simp

/-! ### Bodies start in a new frame -/

theorem bindEach_quiet (params : List Param) (args : List Value) : (bindEach params args).Quiet := by
  -- on the parameters, for any arguments
  induction params generalizing args with
  | nil => exact .ofFollows (.pure ())
  | cons param params ih =>
    cases args with
    | nil => exact .ofFollows (.pure ())
    | cons arg args =>
      refine .bind (.ofFollows (pass_follows param.byRef arg)) fun value => ?_
      refine .bind (.bindName param.name value _) fun _ => ?_
      exact ih args

theorem bindParams_quiet (callee : String) (params : List Param) (args : List Value) :
    (bindParams callee params args).Quiet := by
  unfold bindParams
  split
  · exact bindEach_quiet params args
  · exact .ofFollows (.fail _)

/-- When the arguments are bound, the frame of the call holds no implicit result. -/
theorem implicit?_of_bindParams {callee : String} {params : List Param} {args : List Value}
    {receiver : Option Value} {s t : Session}
    (h : (bindParams callee params args).run { s with scopes := s.scopes.push receiver } =
      .done () t) : t.scopes.Live ∧ t.scopes.implicit? = none := by
  -- the frame of the call is new, and a new frame has no result
  have hlive := Scopes.live_enter s.scopes (.fresh (some s.scopes.current) receiver)
  have himplicit := Scopes.implicit?_enter s.scopes (.fresh (some s.scopes.current) receiver)
  obtain ⟨hlive', himplicit'⟩ := bindParams_quiet callee params args _ () t hlive h
  exact ⟨hlive', himplicit'.trans himplicit⟩

theorem run_inCall_eq_done {α : Type} {name : String} {x : Exec α} {s t : Session} {value : α}
    (h : (Exec.inCall name x).run s = .done value t) :
    ∃ calls u, s.calls.push name = .ok calls ∧ x.run { s with calls } = .done value u := by
  -- the call was pushed, else there would be no value
  simp only [Exec.inCall, Exec.afterwards, Exec.run] at h ⊢
  split at h
  · cases h
  · next calls hpush =>
    refine ⟨calls, ?_⟩
    cases hx : x { s with calls } with
    | done first u =>
      rw [hx] at h
      cases h
      exact ⟨u, hpush, rfl⟩
    | failed failure u =>
      rw [hx] at h
      cases h
    | outOfFuel =>
      rw [hx] at h
      cases h

/-! ### No activation contributes to another one -/

/-- The implicit results that the frames hold. -/
def Scopes.results (s : Scopes) : Array (Option Value) :=
  s.frames.map Frame.result

theorem Scopes.Kept.results {s t : Scopes} (h : s.Kept Frame.Kept t) : t.results = s.results := by
  apply Array.ext_getElem?
  intro id
  rw [Scopes.results, Scopes.results, Array.getElem?_map, Array.getElem?_map]
  cases hf : s.frames[id]? with
  | none =>
    have hsize : t.frames.size = s.frames.size := h.depth
    rw [Array.getElem?_eq_none_iff] at hf
    rw [Array.getElem?_eq_none (by omega)]
  | some f =>
    -- the current frame is kept as any other
    have hkept : ∃ g, t.frames[id]? = some g ∧ f.Kept g := by
      by_cases hid : id = s.current
      · subst hid
        exact h.inner f hf
      · exact h.outer id f hid hf
    obtain ⟨g, hg, hfg⟩ := hkept
    rw [hg, Option.map_some, Option.map_some, hfg.result]

theorem results_of_follows {α : Type} {x : Exec α} (hx : x.Follows .expression) {s t : Session}
    (hroot : 0 < s.scopes.depth) (h : (x.run s).session? = some t) :
    t.scopes.results = s.scopes.results :=
  ((hx s t h).kept hroot).scopes.results

/-- **The implicit result is the last expression statement executed.** The log of an activation
changes nothing, and by it

* a body that is run in a frame without an implicit result ends with the value of a return, or else
  with the last value of its log, or else with null;
* so does the body of every call, for its frame is new when its arguments are bound;
* so does every program, whatever the host ran before it in the session and however that ended;
* no expression and no call, whether it ends with a value or with a failure, changes an implicit
  result of a frame that is there when it begins. -/
theorem implicit_result_is_last_executed (fuel : Nat) :
    (∀ block, Prod.fst <$> logBlock (logStmt fuel) block = runBlock (nestedWith fuel) block) ∧
    (∀ (s : Session), s.scopes.Live → s.scopes.implicit? = none → ∀ body value t,
      (runBody (nestedWith fuel) body).run s = .done value t ↔
        ∃ flow values u, Exec.run (logBlock (logStmt fuel) body) s = .done (flow, values) u ∧
          flow.resultOf? values.getLast? = some value ∧ t = u.withoutResult) ∧
    (∀ decl receiver args s value t,
      (invoke (nestedWith fuel) (.declared decl) receiver args).run s = .done value t →
        ∃ calls bound flow values u, s.calls.push decl.name = .ok calls ∧
          (bindParams decl.name decl.params args).run
            { s with calls, scopes := s.scopes.push receiver } = .done () bound ∧
          Exec.run (logBlock (logStmt fuel) decl.body) bound = .done (flow, values) u ∧
          flow.resultOf? values.getLast? = some value) ∧
    (∀ s : Session, s.Hosted → ∀ input value t,
      s.execute fuel input = .done value t ↔
        ∃ flow values u,
          Exec.run (logBlock (logStmt fuel) input.program) (s.start input) =
            .done (flow, values) u ∧
          flow.resultOf? values.getLast? = some value ∧ t = u.withoutResult) ∧
    (∀ s : Session, 0 < s.scopes.depth → ∀ t,
      (∀ e, ((evalExpr fuel e).run s).session? = some t → t.scopes.results = s.scopes.results) ∧
      ∀ routine receiver args,
        ((invoke (nestedWith fuel) routine receiver args).run s).session? = some t →
          t.scopes.results = s.scopes.results) := by
  -- the five parts: the log itself, bodies, calls, programs, and what calls leave of the results
  -- around
  have hnested := nestedWith_follows fuel
  refine ⟨fst_logBlock fuel, fun s hlive hnone body value t => ?_,
    fun decl receiver args s value t h => ?_, fun s hs input value t => ?_,
    fun s hroot t => ⟨fun e h => ?_, fun routine receiver args h => ?_⟩⟩
  · -- a body
    rw [run_runBody_eq_done_iff]
    exact resultOf?_iff_log hlive hnone
  · -- a call, whose frame has no implicit result when its body begins
    obtain ⟨calls, u, hpush, hframe⟩ := run_inCall_eq_done h
    obtain ⟨v, hbody, -⟩ := Exec.run_inFrame_eq_done_iff.1 hframe
    obtain ⟨⟨⟩, bound, hbound, hrun⟩ := Exec.run_bind_eq_done_iff.1 hbody
    obtain ⟨hlive, hnone⟩ := implicit?_of_bindParams hbound
    rw [run_runBody_eq_done_iff] at hrun
    obtain ⟨flow, values, w, hlog, hresult, -⟩ := (resultOf?_iff_log hlive hnone).1 hrun
    exact ⟨calls, bound, flow, values, w, hpush, hbound, hlog, hresult⟩
  · -- a program, which begins in a session at rest
    have hstart : (s.start input).AtRest :=
      ⟨hs.atRest.depth, hs.atRest.current, hs.atRest.bare⟩
    show ((runProgram (nestedWith fuel) input.program).located.afterFailure Session.recover).run
      (s.start input) = .done value t ↔ _
    rw [Exec.run_afterFailure_eq_done_iff, Exec.run_located_eq_done_iff,
      run_runProgram_eq_done_iff]
    exact resultOf?_iff_log hstart.live hstart.implicit
  · exact results_of_follows (hnested.eval e) hroot h
  · exact results_of_follows (invoke_follows hnested routine receiver args) hroot h

/-- A turn that a break leaves from inside a branch, and after it a call that has an implicit result
of its own. -/
def turnThenCall : Input where
  program :=
    [⟨.function { name := "f", params := [], body := [⟨.evaluate (.string "callee"), 1⟩] }, 1⟩,
      ⟨.iterate (.array [.string "x", .string "y"]) .none
        [⟨.branch ⟨.logic .eq (.string "a") (.string "a"),
          [⟨.evaluate (.string "turn"), 3⟩, ⟨.breakLoop, 4⟩]⟩ [] none, 3⟩], 2⟩,
      ⟨.declare ["z"] (.mutable (.call (.name "f") [])) false, 5⟩]
  file := none
  source := none

/-- The value with which an evaluation ended, if it did. -/
def Outcome.value? {α : Type} : Outcome α → Option α
  | done value _ => some value
  | failed _ _ => none
  | outOfFuel => none

theorem Outcome.exists_of_value? {α : Type} {outcome : Outcome α} {value : α}
    (h : outcome.value? = some value) : ∃ session, outcome = .done value session := by
  cases outcome with
  | done other session =>
    cases h
    exact ⟨session, rfl⟩
  | failed failure session => cases h
  | outOfFuel => cases h

/-- The text that a value is, if it is one. -/
def Value.text? : Value → Option String
  | str text => some text
  | _ => none

theorem Value.eq_str_of_text? {value : Value} {text : String} (h : value.text? = some text) :
    value = .str text := by
  cases value with
  | str other =>
    cases h
    rfl
  | _ => cases h

/-- The program's own last expression statement is the one in the turn. -/
theorem turnThenCall_result :
    (Session.fresh .empty .empty).Hosted ∧
      ∃ flow values u t, Exec.run (logBlock (logStmt 9) turnThenCall.program)
          ((Session.fresh .empty .empty).start turnThenCall) = .done (flow, values) u ∧
        values.map Value.text? = [some "turn"] ∧
        (Session.fresh .empty .empty).execute 9 turnThenCall = .done (.str "turn") t := by
  have hhosted : (Session.fresh .empty .empty).Hosted := .fresh rfl
  have hlog : (Exec.run (logBlock (logStmt 9) turnThenCall.program)
      ((Session.fresh .empty .empty).start turnThenCall)).value?.map (fun told =>
        (told.2.map Value.text?, (told.1.resultOf? told.2.getLast?).bind Value.text?)) =
      some ([some "turn"], some "turn") := by decide +kernel
  obtain ⟨told, htold, heq⟩ := Option.map_eq_some_iff.1 hlog
  obtain ⟨htexts, htext⟩ := Prod.mk.inj heq
  obtain ⟨u, hrun⟩ := Outcome.exists_of_value? htold
  obtain ⟨value, hresult, hvalue⟩ := Option.bind_eq_some_iff.1 htext
  obtain rfl := Value.eq_str_of_text? hvalue
  have hprograms := (implicit_result_is_last_executed 9).2.2.2.1
  exact ⟨hhosted, told.1, told.2, u, u.withoutResult, hrun, htexts,
    (hprograms _ hhosted turnThenCall _ _).2 ⟨told.1, told.2, u, hrun, hresult, rfl⟩⟩

end DecimalScript
