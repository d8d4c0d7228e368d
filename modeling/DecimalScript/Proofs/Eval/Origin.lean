import DecimalScript.Proofs.Eval.Interrupts
import DecimalScript.Proofs.Eval.Location

/-!
# The statement that raises a failure

The line of a session moves with every statement, also with those of a call that has come to its end
long before the failure is raised, and on the way out of a failed statement it is set back. To say
that a failure is located all the same at the statement that raised it, what raises a failure is told
without regard to lines and locations: `x.Raises cause s origin` follows the evaluation `x` from the
session `s` to the step that fails, and `origin` is the innermost statement around this step, if there
is one within `x`. For a break or a continue that no loop has taken the failure is raised at the end
of the body, but its origin is the interrupt itself; `x.LeftBy offender flow s` follows the evaluation
to it.

What is raised is what the evaluation fails with, and it is located at the line of its origin
(`Exec.Raises.run_eq_failed`, by induction on the way to the step). Conversely there is such a way for
every failure (`nestedWith_traces`, by induction on the fuel; the constructs have it from their parts,
which is what a compatible relation is for).

Main result: `failure_at_raising_statement`.
-/

namespace DecimalScript

variable {α β : Type}

/-! ### Interrupts -/

/-- How a break or a continue statement ends. -/
def StmtKind.interrupt? : StmtKind → Option Flow
  | .breakLoop => some .breakLoop
  | .continueLoop => some .continueLoop
  | _ => none

/-- The failure of a body that an interrupt has left. -/
def Flow.stray? : Flow → Option Cause
  | .breakLoop => some .strayBreak
  | .continueLoop => some .strayContinue
  | _ => none

theorem Flow.stray?_inj {flow other : Flow} {cause : Cause} (h : flow.stray? = some cause)
    (h' : other.stray? = some cause) : flow = other := by
  cases flow <;> cases h <;> cases other <;> cases h' <;> rfl

theorem Flow.isStray_of_stray? {flow : Flow} {cause : Cause} (h : flow.stray? = some cause) :
    cause.isStray = true := by
  cases flow <;> cases h <;> rfl

/-! ### Where an interrupt comes from -/

/-- The evaluation `x`, started in `s`, ends with the flow because of the interrupt `offender`. -/
inductive Exec.LeftBy (offender : Stmt) (flow : Flow) : Exec Flow → Session → Prop where
  | self {nested : Nested} {turns : Nat} {s : Session}
      (hkind : offender.kind.interrupt? = some flow) :
      LeftBy offender flow (execStmtWith nested turns offender) s
  | within {nested : Nested} {turns : Nat} {stmt : Stmt} {s : Session}
      (h : LeftBy offender flow (execKindWith nested turns stmt.kind) { s with line := stmt.line }) :
      LeftBy offender flow (execStmtWith nested turns stmt) s
  /-- What comes next passes the flow on. -/
  | inFirst {x : Exec Flow} {f : Flow → Exec Flow} {s : Session} (h : LeftBy offender flow x s)
      (hpass : f flow = pure flow) : LeftBy offender flow (x >>= f) s
  | inSecond {α : Type} {x : Exec α} {f : α → Exec Flow} {s t : Session} {value : α}
      (hdone : x.run s = .done value t) (h : LeftBy offender flow (f value) t) :
      LeftBy offender flow (x >>= f) s
  | droppingResult {x : Exec Flow} {s : Session} (h : LeftBy offender flow x s) :
      LeftBy offender flow x.droppingResult s
  | inFrame {x : Exec Flow} {s : Session} {receiver : Option Value}
      (h : LeftBy offender flow x { s with scopes := s.scopes.push receiver }) :
      LeftBy offender flow (Exec.inFrame receiver x) s

namespace Exec

variable {x : Exec α} {s t : Session} {offender : Stmt} {flow : Flow}

theorem run_atLine_eq_done_iff {line : Nat} {value : α} :
    (Exec.atLine line x).run s = .done value t ↔ x.run { s with line } = .done value t := by
  change (x.afterFailure fun session => { session with line }).located.run { s with line } = _ ↔ _
  rw [run_located_eq_done_iff, run_afterFailure_eq_done_iff]

theorem LeftBy.interrupt?_eq {x : Exec Flow} (h : x.LeftBy offender flow s) :
    offender.kind.interrupt? = some flow := by
  induction h with
  | self hkind => exact hkind
  | _ => assumption

/-- The line of the session is still the one of the interrupt. -/
theorem LeftBy.run_eq_done {x : Exec Flow} (h : x.LeftBy offender flow s) :
    ∃ t, x.run s = .done flow t ∧ t.line = offender.line := by
  -- on the way from the statement that was left, each step of which passes the interrupt on under
  -- its line
  induction h with
  | @self nested turns s hkind =>
    refine ⟨{ s with line := offender.line }, run_atLine_eq_done_iff.2 ?_, rfl⟩
    generalize offender.kind = kind at hkind
    cases kind <;> cases hkind <;> rfl
  | within _ ih =>
    obtain ⟨t, ht, hline⟩ := ih
    exact ⟨t, run_atLine_eq_done_iff.2 ht, hline⟩
  | @inFirst x f s _ hpass ih =>
    obtain ⟨t, ht, hline⟩ := ih
    refine ⟨t, run_bind_eq_done_iff.2 ⟨flow, t, ht, ?_⟩, hline⟩
    rw [hpass]
    rfl
  | inSecond hdone _ ih =>
    obtain ⟨t, ht, hline⟩ := ih
    exact ⟨t, run_bind_eq_done_iff.2 ⟨_, _, hdone, ht⟩, hline⟩
  | droppingResult _ ih =>
    obtain ⟨t, ht, hline⟩ := ih
    exact ⟨t, run_afterFailure_eq_done_iff.2 ht, hline⟩
  | inFrame _ ih =>
    obtain ⟨t, ht, hline⟩ := ih
    exact ⟨_, run_inFrame_eq_done_iff.2 ⟨t, ht, rfl⟩, hline⟩

/-- Whenever the evaluation ends with an interrupt, it was left by one. -/
def TellsInterrupt (x : Exec Flow) : Prop :=
  ∀ s t flow, x.run s = .done flow t → flow.isInterrupt = true →
    ∃ offender, x.LeftBy offender flow s

theorem TellsInterrupt.of_no_interrupt {x : Exec Flow}
    (h : ∀ s t flow, x.run s = .done flow t → flow.isInterrupt = false) : x.TellsInterrupt := by
  intro s t flow hdone hflow
  rw [h s t flow hdone] at hflow
  cases hflow

theorem TellsInterrupt.pure {flow : Flow} (h : flow.isInterrupt = false) :
    (Pure.pure flow : Exec Flow).TellsInterrupt :=
  .of_no_interrupt fun _ _ _ hdone => by
    cases hdone
    exact h

theorem TellsInterrupt.bind {f : α → Exec Flow} (hf : ∀ value, (f value).TellsInterrupt) :
    (x >>= f).TellsInterrupt := by
  intro s t flow hdone hflow
  obtain ⟨value, u, hfirst, hsecond⟩ := run_bind_eq_done_iff.1 hdone
  obtain ⟨offender, h⟩ := hf value u t flow hsecond hflow
  exact ⟨offender, .inSecond hfirst h⟩

theorem TellsInterrupt.inFrame {x : Exec Flow} (hx : x.TellsInterrupt)
    (receiver : Option Value) : (Exec.inFrame receiver x).TellsInterrupt := by
  intro s t flow hdone hflow
  obtain ⟨u, hu, -⟩ := run_inFrame_eq_done_iff.1 hdone
  obtain ⟨offender, h⟩ := hx _ u flow hu hflow
  exact ⟨offender, .inFrame h⟩

theorem TellsInterrupt.droppingResult {x : Exec Flow} (hx : x.TellsInterrupt) :
    x.droppingResult.TellsInterrupt := by
  intro s t flow hdone hflow
  obtain ⟨offender, h⟩ := hx s t flow (run_afterFailure_eq_done_iff.1 hdone) hflow
  exact ⟨offender, .droppingResult h⟩

end Exec

section Interrupts

variable {nested : Nested} (hexec : ∀ stmt, (nested.exec stmt).TellsInterrupt)
include hexec

theorem runStmts_tellsInterrupt (block : Block) : (runStmts nested block).TellsInterrupt := by
  -- on the block: the interrupt comes from the first statement that does not end normally
  induction block with
  | nil => exact .pure rfl
  | cons stmt rest ih =>
    rw [runStmts]
    split
    · exact ih
    · intro s t flow hdone hflow
      obtain ⟨first, u, hfirst, hrest⟩ := Exec.run_bind_eq_done_iff.1 hdone
      cases first with
      | normal =>
        obtain ⟨offender, h⟩ := ih u t flow hrest hflow
        exact ⟨offender, .inSecond hfirst h⟩
      | result value =>
        cases hrest
        cases hflow
      | breakLoop =>
        cases hrest
        obtain ⟨offender, h⟩ := hexec stmt s _ _ hfirst hflow
        exact ⟨offender, .inFirst h rfl⟩
      | continueLoop =>
        cases hrest
        obtain ⟨offender, h⟩ := hexec stmt s _ _ hfirst hflow
        exact ⟨offender, .inFirst h rfl⟩

theorem runBlock_tellsInterrupt (block : Block) : (runBlock nested block).TellsInterrupt :=
  .bind fun _ => runStmts_tellsInterrupt hexec block

theorem runArms_tellsInterrupt (otherwise : Option Block) (arms : List Arm) :
    (runArms nested otherwise arms).TellsInterrupt := by
  -- on the arms, of which one block at most runs
  induction arms with
  | nil =>
    cases otherwise with
    | some block => exact (runBlock_tellsInterrupt hexec block).inFrame none
    | none => exact .pure rfl
  | cons arm rest ih =>
    refine .bind fun holds => ?_
    split
    · exact (runBlock_tellsInterrupt hexec arm.block).inFrame none
    · exact ih

/-- Of the statements around an interrupt only branches let it pass. -/
theorem execKindWith_tellsInterrupt (turns : Nat) {kind : StmtKind}
    (hkind : kind.interrupt? = none) : (execKindWith nested turns kind).TellsInterrupt := by
  -- the two interrupts have no other origin, loops pass none on, and the rest has none of its own
  cases kind with
  | evaluate value =>
    refine .bind fun v => ?_
    refine .bind fun _ => ?_
    exact .pure rfl
  | declare names init byRef =>
    refine .bind fun bound => ?_
    refine .bind fun _ => ?_
    exact .pure rfl
  | branch first others otherwise => exact runArms_tellsInterrupt hexec otherwise _
  | loop condition body => exact .of_no_interrupt fun _ _ _ h => isInterrupt_runLoop h
  | iterate target names body =>
    refine .bind fun container => ?_
    refine .bind fun turns => ?_
    refine .bind fun entries => ?_
    exact .of_no_interrupt fun _ _ _ h => isInterrupt_runTurns h
  | function decl => exact .pure rfl
  | classDecl decl => exact .pure rfl
  | result value =>
    cases value with
    | none => exact .pure rfl
    | some e => exact .bind fun v => .pure rfl
  | breakLoop => cases hkind
  | continueLoop => cases hkind
  | importName name localName => exact .bind fun _ => .pure rfl

theorem execStmtWith_tellsInterrupt (turns : Nat) (stmt : Stmt) :
    (execStmtWith nested turns stmt).TellsInterrupt := by
  intro s t flow hdone hflow
  have hkind := Exec.run_atLine_eq_done_iff.1 hdone
  -- either the statement is the interrupt or it holds it
  cases hinterrupt : stmt.kind.interrupt? with
  | none =>
    obtain ⟨offender, h⟩ := execKindWith_tellsInterrupt hexec turns hinterrupt _ t flow hkind hflow
    exact ⟨offender, .within h⟩
  | some own =>
    have hown : own = flow := by
      generalize stmt.kind = kind at hkind hinterrupt
      cases kind <;> cases hinterrupt <;> cases hkind <;> rfl
    subst hown
    exact ⟨stmt, .self hinterrupt⟩

end Interrupts

theorem execStmt_tellsInterrupt (fuel : Nat) (stmt : Stmt) :
    (execStmt fuel stmt).TellsInterrupt := by
  induction fuel generalizing stmt with
  | zero => exact .of_no_interrupt fun _ _ _ h => nomatch h
  | succ fuel ih => exact execStmtWith_tellsInterrupt ih fuel stmt

/-! ### What raises a failure -/

/-- The evaluation `x`, started in `s`, raises a failure for this cause. The origin is the innermost
of the statements of `x` that are running then, and nothing if none is. -/
inductive Exec.Raises (cause : Cause) : {α : Type} → Exec α → Session → Option Stmt → Prop where
  | step {α : Type} {x : Exec α} {s t : Session} (hx : x.IsStep)
      (hfailed : x.run s = .failed (.ofCause cause) t) (hcause : cause.isStray = false) :
      Raises cause x s none
  /-- There is no room for another call. -/
  | refused {α : Type} {x : Exec α} {s : Session} {name : String}
      (hpush : s.calls.push name = .error cause) : Raises cause (Exec.inCall name x) s none
  | inFirst {α β : Type} {x : Exec α} {f : α → Exec β} {s : Session} {origin : Option Stmt}
      (h : Raises cause x s origin) : Raises cause (x >>= f) s origin
  /-- What has come to its end before has no part in it. -/
  | inSecond {α β : Type} {x : Exec α} {f : α → Exec β} {s t : Session} {value : α}
      {origin : Option Stmt} (hdone : x.run s = .done value t)
      (h : Raises cause (f value) t origin) : Raises cause (x >>= f) s origin
  | droppingResult {α : Type} {x : Exec α} {s : Session} {origin : Option Stmt}
      (h : Raises cause x s origin) : Raises cause x.droppingResult s origin
  | inFrame {α : Type} {x : Exec α} {s : Session} {receiver : Option Value}
      {origin : Option Stmt}
      (h : Raises cause x { s with scopes := s.scopes.push receiver } origin) :
      Raises cause (Exec.inFrame receiver x) s origin
  | inCall {α : Type} {x : Exec α} {s : Session} {name : String} {calls : CallStack}
      {origin : Option Stmt} (hpush : s.calls.push name = .ok calls)
      (h : Raises cause x { s with calls } origin) : Raises cause (Exec.inCall name x) s origin
  /-- A statement in which the failure is raised is the innermost one, unless there is one within
  it. -/
  | statement {nested : Nested} {turns : Nat} {stmt : Stmt} {s : Session} {origin : Option Stmt}
      (h : Raises cause (execKindWith nested turns stmt.kind) { s with line := stmt.line } origin) :
      Raises cause (execStmtWith nested turns stmt) s (some (origin.getD stmt))
  /-- What the statement declares cannot be bound. -/
  | declaration {stmt : Stmt} {s t : Session} {location : Option Location}
      (hfailed : (hoistStmt stmt).run s = .failed ⟨cause, location⟩ t) :
      Raises cause (hoistStmt stmt) s (some stmt)
  /-- The statements of a body or a program have been left by an interrupt. -/
  | stray {x : Exec Flow} {offender : Stmt} {flow : Flow} {s : Session}
      (h : x.LeftBy offender flow s) (hcause : flow.stray? = some cause) :
      Raises cause (x >>= fun flow => takeResult >>= finish flow) s (some offender)

theorem run_finish_of_stray? {flow : Flow} {cause : Cause} (h : flow.stray? = some cause)
    (implicit : Option Value) (s : Session) :
    (finish flow implicit).run s = .failed (s.locate (.ofCause cause)) s := by
  cases flow <;> cases h <;> rfl

namespace Exec

variable {x : Exec α} {s : Session} {cause : Cause} {origin : Option Stmt}

/-- **What is raised is the failure, and it is located at the line of its origin.** -/
theorem Raises.run_eq_failed (h : x.Raises cause s origin) :
    ∃ location t, x.run s = .failed ⟨cause, location⟩ t ∧
      location.map (·.line) = origin.map (·.line) := by
  induction h with
  | step _ hfailed _ => exact ⟨none, _, hfailed, rfl⟩
  | refused hpush => exact ⟨none, _, by simp only [Exec.inCall, run, hpush]; rfl, rfl⟩
  | inFirst _ ih =>
    obtain ⟨location, t, hfailed, hline⟩ := ih
    exact ⟨location, t, by rw [run_bind, hfailed], hline⟩
  | inSecond hdone _ ih =>
    obtain ⟨location, t, hfailed, hline⟩ := ih
    exact ⟨location, t, by rw [run_bind, hdone]; exact hfailed, hline⟩
  | droppingResult _ ih =>
    obtain ⟨location, t, hfailed, hline⟩ := ih
    exact ⟨location, _, run_afterFailure_eq_failed_iff.2 ⟨t, hfailed, rfl⟩, hline⟩
  | inFrame _ ih =>
    obtain ⟨location, t, hfailed, hline⟩ := ih
    exact ⟨location, _, run_inFrame_eq_failed_iff.2 ⟨t, hfailed, rfl⟩, hline⟩
  | inCall hpush _ ih =>
    obtain ⟨location, t, hfailed, hline⟩ := ih
    refine ⟨location, { t with calls := t.calls.pop }, ?_, hline⟩
    simp only [Exec.inCall, run, hpush]
    exact run_afterwards_eq_failed_iff.2 ⟨t, hfailed, rfl⟩
  | @statement nested turns stmt s origin _ ih =>
    obtain ⟨location, t, hfailed, hline⟩ := ih
    cases origin with
    | none =>
      -- nothing within the statement has located the failure, so it gets the line of the statement
      obtain rfl := Option.map_eq_none_iff.1 hline
      exact ⟨_, _, run_atLine_eq_failed_iff.2 ⟨_, t, hfailed, rfl, rfl⟩, rfl⟩
    | some inner =>
      obtain ⟨place, rfl, hplace⟩ := Option.map_eq_some_iff.1 hline
      refine ⟨some place, _, run_atLine_eq_failed_iff.2 ⟨_, t, hfailed, ?_, rfl⟩, hline⟩
      exact (Session.locate_of_location rfl _).symm
  | declaration hfailed =>
    obtain rfl := hoistStmt_failed hfailed
    exact ⟨_, _, hfailed, rfl⟩
  | stray h hcause =>
    -- the session still has the line of the interrupt when the body ends
    obtain ⟨t, hdone, hline⟩ := h.run_eq_done
    refine ⟨some (.atLine t.file t.line t.source), { t with scopes := t.scopes.takeResult.2 }, ?_,
      congrArg some hline⟩
    rw [run_bind, hdone]
    exact run_finish_of_stray? hcause _ _

/-- A call is not refused because of an interrupt. -/
theorem isStray_of_push {calls : CallStack} {name : String} (h : calls.push name = .error cause) :
    cause.isStray = false := by
  unfold CallStack.push at h
  split at h <;> cases h
  rfl

theorem isStray_of_hoistStmt {stmt : Stmt} {failure : Failure} {t : Session}
    (h : (hoistStmt stmt).run s = .failed failure t) : failure.cause.isStray = false := by
  -- what is hoisted fails for the reasons of the scopes, and an interrupt is none of them
  have hdeclares : Realm.everything.Declares stmt := by
    unfold Realm.Declares
    split
    · trivial
    · exact Realm.hasClass_everything _
    · trivial
  exact NeverStrays.of_stays (fun _ => hoistStmt_stays hdeclares) s t failure h

/-- The origin of the failure for a stray interrupt is this interrupt. -/
theorem Raises.interrupt?_eq (h : x.Raises cause s origin) {flow : Flow}
    (hcause : flow.stray? = some cause) :
    ∃ stmt, origin = some stmt ∧ stmt.kind.interrupt? = some flow := by
  have hstray := Flow.isStray_of_stray? hcause
  -- on how the failure was raised; a step and a refused call raise no interrupt
  induction h with
  | step _ _ hnot => rw [hnot] at hstray; cases hstray
  | refused hpush => rw [isStray_of_push hpush] at hstray; cases hstray
  | inFirst _ ih => exact ih
  | inSecond _ _ ih => exact ih
  | droppingResult _ ih => exact ih
  | inFrame _ ih => exact ih
  | inCall _ _ ih => exact ih
  | statement _ ih =>
    obtain ⟨stmt, rfl, hkind⟩ := ih
    exact ⟨stmt, rfl, hkind⟩
  | declaration hfailed =>
    have hnot := isStray_of_hoistStmt hfailed
    rw [hnot] at hstray
    cases hstray
  | stray h hcause' =>
    obtain rfl := Flow.stray?_inj hcause hcause'
    exact ⟨_, rfl, h.interrupt?_eq⟩

/-! ### Every failure is raised -/

/-- Whenever the evaluation fails, something has raised the failure, with such an origin. -/
def Traces (p : Option Stmt → Prop) (x : Exec α) : Prop :=
  ∀ s t failure, x.run s = .failed failure t → ∃ origin, p origin ∧ x.Raises failure.cause s origin

variable {p q : Option Stmt → Prop}

theorem Traces.mono (hx : x.Traces p) (hpq : ∀ origin, p origin → q origin) : x.Traces q := by
  intro s t failure hfailed
  obtain ⟨origin, hp, h⟩ := hx s t failure hfailed
  exact ⟨origin, hpq origin hp, h⟩

theorem Traces.pure (value : α) : (Pure.pure value : Exec α).Traces p :=
  fun _ _ _ hfailed => nomatch hfailed

theorem run_bind_eq_failed_iff {f : α → Exec β} {t : Session} {failure : Failure} :
    (x >>= f).run s = .failed failure t ↔ x.run s = .failed failure t ∨
      ∃ value u, x.run s = .done value u ∧ (f value).run u = .failed failure t := by
  rw [run_bind]
  cases x.run s <;> simp

theorem Traces.bind {f : α → Exec β} (hx : x.Traces p) (hf : ∀ value, (f value).Traces p) :
    (x >>= f).Traces p := by
  intro s t failure hfailed
  -- the failure is of the first part or of the second
  obtain hfirst | ⟨value, u, hdone, hsecond⟩ := run_bind_eq_failed_iff.1 hfailed
  · obtain ⟨origin, hp, h⟩ := hx s t failure hfirst
    exact ⟨origin, hp, .inFirst h⟩
  · obtain ⟨origin, hp, h⟩ := hf value u t failure hsecond
    exact ⟨origin, hp, .inSecond hdone h⟩

theorem Traces.droppingResult (hx : x.Traces p) : x.droppingResult.Traces p := by
  intro s t failure hfailed
  obtain ⟨u, hu, -⟩ := run_afterFailure_eq_failed_iff.1 hfailed
  obtain ⟨origin, hp, h⟩ := hx s u failure hu
  exact ⟨origin, hp, .droppingResult h⟩

/-- The failure of a primitive step is raised by the step itself. -/
theorem Traces.step (hx : x.IsStep) (hcause : x.NeverStrays) : x.Traces fun _ => True := by
  intro s t failure hfailed
  have hstray := hcause s t failure hfailed
  obtain ⟨cause, location⟩ := failure
  obtain rfl : location = none := hx.location_eq_none hfailed
  exact ⟨none, trivial, .step hx hfailed hstray⟩

/-- At the end of a body or a program an interrupt that is left becomes a failure. -/
theorem Traces.finish {x : Exec Flow} (hx : x.Traces p) (hflow : x.TellsInterrupt)
    (hp : ∀ stmt, p (some stmt)) :
    (x >>= fun flow => takeResult >>= DecimalScript.finish flow).Traces p := by
  intro s t failure hfailed
  obtain hfirst | ⟨flow, u, hdone, hend⟩ := run_bind_eq_failed_iff.1 hfailed
  · obtain ⟨origin, hp, h⟩ := hx s t failure hfirst
    exact ⟨origin, hp, .inFirst h⟩
  · -- an interrupt that is left over is turned into a failure here, and its statement is the origin
    have hleft : flow.isInterrupt = true → ∀ cause, flow.stray? = some cause →
        ∃ origin, p origin ∧
          (x >>= fun flow => takeResult >>= DecimalScript.finish flow).Raises cause s origin := by
      intro hinterrupt cause hcause
      obtain ⟨offender, h⟩ := hflow s u flow hdone hinterrupt
      exact ⟨some offender, hp offender, .stray h hcause⟩
    cases flow with
    | normal => cases hend
    | result value => cases hend
    | breakLoop =>
      cases hend
      exact hleft rfl _ rfl
    | continueLoop =>
      cases hend
      exact hleft rfl _ rfl

end Exec

/-- What a declaration raises, it raises itself. -/
theorem hoistStmt_traces (stmt : Stmt) : (hoistStmt stmt).Traces (·.isSome) :=
  fun _ _ _ hfailed => ⟨some stmt, rfl, .declaration hfailed⟩

theorem traces_compatible : Exec.Compatible fun _ x _ => x.Traces fun _ => True where
  -- for all of these the origin may be any; it is made a statement further up
  step := .step
  readExcept hf hresult := by
    intro s t failure hfailed
    obtain hread | ⟨result, u, hread, hsecond⟩ := Exec.run_bind_eq_failed_iff.1 hfailed
    · cases hread
    · cases hread
      have hstep : (Exec.ofExcept _).Traces _ :=
        .step (.ofExcept _) (.of_stays fun _ => .ofExcept (hresult s))
      obtain ⟨origin, hp, h⟩ := hstep s t failure hsecond
      exact ⟨origin, hp, .inSecond rfl h⟩
  bind := .bind
  inFrame receiver hx := by
    intro s t failure hfailed
    obtain ⟨u, hu, -⟩ := Exec.run_inFrame_eq_failed_iff.1 hfailed
    obtain ⟨origin, hp, h⟩ := hx _ u failure hu
    exact ⟨origin, hp, .inFrame h⟩
  inCall name hx := by
    intro s t failure hfailed
    simp only [Exec.inCall, Exec.run] at hfailed
    split at hfailed
    · next cause hpush =>
      cases hfailed
      exact ⟨none, trivial, .refused hpush⟩
    · next calls hpush =>
      obtain ⟨u, hu, -⟩ := Exec.run_afterwards_eq_failed_iff.1 hfailed
      obtain ⟨origin, hp, h⟩ := hx _ u failure hu
      exact ⟨origin, hp, .inCall hpush h⟩
  hoistStmt stmt := (hoistStmt_traces stmt).mono fun _ _ => trivial

section Traces

variable {nested : Nested}

/-- A statement that fails has raised the failure, or one within it has. -/
theorem execStmtWith_traces (hnested : nested.Related (fun _ x _ => x.Traces fun _ => True) nested)
    (turns : Nat) (stmt : Stmt) : (execStmtWith nested turns stmt).Traces (·.isSome) := by
  intro s t failure hfailed
  -- a failure without an origin has this statement as its origin
  obtain ⟨raised, u, hraised, rfl, -⟩ := Exec.run_atLine_eq_failed_iff.1 hfailed
  have hkind : (execKindWith nested turns stmt.kind).Traces fun _ => True :=
    traces_compatible.execKindWith hnested (.inl rfl) stmt.kind
  obtain ⟨origin, -, h⟩ := hkind _ u raised hraised
  rw [Session.cause_locate]
  exact ⟨some (origin.getD stmt), rfl, .statement h⟩

variable (hexec : ∀ stmt, (nested.exec stmt).Traces (·.isSome))
include hexec

/-- All that a block runs are statements and declarations. -/
theorem runBlock_traces (block : Block) : (runBlock nested block).Traces (·.isSome) := by
  refine .bind ?_ fun _ => ?_
  · -- what is hoisted, and then what is executed
    induction block with
    | nil => exact .pure ()
    | cons stmt rest ih => exact .bind (hoistStmt_traces stmt) fun _ => ih
  · induction block with
    | nil => exact .pure _
    | cons stmt rest ih =>
      rw [runStmts]
      split
      · exact ih
      · refine .bind (hexec stmt) fun flow => ?_
        cases flow with
        | normal => exact ih
        | _ => exact .pure _

variable (hflow : ∀ stmt, (nested.exec stmt).TellsInterrupt)
include hflow

theorem runBody_traces (body : Block) : (runBody nested body).Traces (·.isSome) :=
  .finish (runBlock_traces hexec body).droppingResult
    (runBlock_tellsInterrupt hflow body).droppingResult fun _ => rfl

theorem runProgram_traces (program : Block) : (runProgram nested program).Traces (·.isSome) :=
  .finish (runBlock_traces hexec program) (runBlock_tellsInterrupt hflow program) fun _ => rfl

end Traces

/-- **Every failure has been raised by something**, by induction on the fuel. -/
theorem nestedWith_traces (fuel : Nat) :
    (nestedWith fuel).Related (fun _ x _ => x.Traces fun _ => True) (nestedWith fuel) ∧
      ∀ stmt, (execStmt fuel stmt).Traces (·.isSome) := by
  have hanyway : ∀ {α : Type} {x : Exec α}, x.Traces (·.isSome) → x.Traces fun _ => True :=
    fun hx => hx.mono fun _ _ => trivial
  -- what holds of statements holds of bodies, whatever the fuel
  have hrelated : ∀ fuel, (∀ e, (evalExpr fuel e).Traces fun _ => True) →
      (∀ stmt, (execStmt fuel stmt).Traces (·.isSome)) →
      (nestedWith fuel).Related (fun _ x _ => x.Traces fun _ => True) (nestedWith fuel) :=
    fun fuel heval hexec => ⟨heval, fun stmt => hanyway (hexec stmt), fun body =>
      hanyway (runBody_traces hexec (execStmt_tellsInterrupt fuel) body)⟩
  -- on the fuel: expressions and statements of one level use what holds on the level below
  induction fuel with
  | zero =>
    have hnever : ∀ stmt, (execStmt 0 stmt).Traces (·.isSome) := fun _ _ _ _ h => nomatch h
    exact ⟨hrelated 0 (fun _ _ _ _ h => nomatch h) hnever, hnever⟩
  | succ fuel ih =>
    have hexec : ∀ stmt, (execStmt (fuel + 1) stmt).Traces (·.isSome) :=
      fun stmt => execStmtWith_traces ih.1 fuel stmt
    exact ⟨hrelated (fuel + 1) (fun e => traces_compatible.evalExprWith ih.1 e) hexec, hexec⟩

/-! ### Where failures are located -/

/-- The evaluation `x`, started in `s`, has a statement that raises the failure. Whichever of the
statements does, the failure is located at its line, in the program that runs, and for a stray
interrupt the statement is this interrupt. -/
structure Failure.RaisedBy (failure : Failure) (x : Exec α) (s : Session) : Prop where
  raised : ∃ stmt, x.Raises failure.cause s (some stmt)
  located : ∀ origin, x.Raises failure.cause s origin →
    ∃ stmt, origin = some stmt ∧
      failure.location = some (.atLine s.file stmt.line s.source) ∧
      ∀ flow, flow.stray? = some failure.cause → stmt.kind.interrupt? = some flow

theorem Exec.Traces.raisedBy {x : Exec α} (hx : x.Traces (·.isSome)) (hbuilt : x.Built)
    {s t : Session} {failure : Failure} (hfailed : x.run s = .failed failure t) :
    failure.RaisedBy x s := by
  -- whatever raises the failure, its line is the one of the location
  have hline : ∀ origin, x.Raises failure.cause s origin →
      failure.location.map (·.line) = origin.map (·.line) := by
    intro origin h
    obtain ⟨location, u, hsame, hline⟩ := h.run_eq_failed
    rw [hfailed] at hsame
    rw [congrArg Failure.location (Outcome.failed.inj hsame).1]
    exact hline
  obtain ⟨origin, hsome, h⟩ := hx s t failure hfailed
  obtain ⟨stmt, rfl⟩ := Option.isSome_iff_exists.1 hsome
  refine ⟨⟨stmt, h⟩, fun other hother => ?_⟩
  obtain ⟨location, hlocation, -⟩ := Option.map_eq_some_iff.1 (hline _ h)
  obtain ⟨line, rfl⟩ := hbuilt.locatedIn hfailed location hlocation
  have hraised := hline other hother
  rw [hlocation] at hraised
  obtain ⟨raiser, rfl, hsame⟩ := Option.map_eq_some_iff.1 hraised.symm
  refine ⟨raiser, rfl, ?_, fun flow hcause => ?_⟩
  · rw [hlocation, hsame]
    rfl
  · -- an interrupt tells more: its origin is the statement that is one
    obtain ⟨interrupt, heq, hkind⟩ := hother.interrupt?_eq hcause
    cases heq
    exact hkind

/-- **Every failure is located at the statement that raised it.** -/
theorem failure_at_raising_statement (fuel : Nat) :
    (∀ stmt s failure t, (execStmt fuel stmt).run s = .failed failure t →
      failure.RaisedBy (execStmt fuel stmt) s) ∧
    ∀ (session : Session) input failure after, session.execute fuel input = .failed failure after →
      failure.RaisedBy (runProgram (nestedWith fuel) input.program) (session.start input) := by
  have hexec := (nestedWith_traces fuel).2
  constructor
  · intro stmt s failure t hfailed
    exact (hexec stmt).raisedBy ((nestedWith_built fuel).exec stmt) hfailed
  · intro session input failure after hfailed
    rw [Session.execute_eq] at hfailed
    obtain ⟨t, hlocated, -⟩ := Exec.run_afterFailure_eq_failed_iff.1 hfailed
    obtain ⟨raised, hraised, rfl⟩ := Exec.run_located_eq_failed_iff.1 hlocated
    have hprogram := (runProgram_traces hexec (execStmt_tellsInterrupt fuel) input.program).raisedBy
      (Exec.built_congruence.runProgram (nestedWith_built fuel) input.program) hraised
    -- the program has located the failure already
    obtain ⟨stmt, hstmt⟩ := hprogram.raised
    obtain ⟨_, -, hlocation, -⟩ := hprogram.located _ hstmt
    rwa [Session.locate_of_location hlocation]

/-- The failure with which an evaluation ended, if it did. -/
def Outcome.failure? : Outcome α → Option Failure
  | .failed failure _ => some failure
  | _ => none

theorem Outcome.eq_failed_of_failure? {outcome : Outcome α} {failure : Failure}
    (h : outcome.failure? = some failure) : ∃ after, outcome = .failed failure after := by
  cases outcome <;> cases h
  exact ⟨_, rfl⟩

/-- A function that ends with a break for one argument, in a branch, and the condition of a loop that
calls it with this argument only after the first turn. -/
def recheck : Input where
  program :=
    [⟨.function
        { name := "more"
          params := [⟨"x", false⟩]
          body :=
            [⟨.branch ⟨.logic .eq (.name "x") (.string "b"), [⟨.breakLoop, 3⟩]⟩ [] none, 2⟩,
              ⟨.result (some (.logic .eq (.name "x") (.string "a"))), 4⟩] }, 1⟩,
      ⟨.declare ["s"] (.mutable (.string "a")) false, 5⟩,
      ⟨.loop (.call (.name "more") [.name "s"])
        [⟨.evaluate (.assign (.name "s") (.string "b") false), 7⟩], 6⟩]
  file := none
  source := none

/-- The loop does not take the break, and the failure is located at the break. -/
theorem recheck_located_at_break :
    let session := Session.fresh .empty .empty
    ∃ failure after, session.execute 9 recheck = .failed failure after ∧
      failure.cause = .strayBreak ∧ failure.location = some (session.lineOf recheck 3) ∧
      ∃ stmt, (runProgram (nestedWith 9) recheck.program).Raises failure.cause
          (session.start recheck) (some stmt) ∧
        stmt.kind.interrupt? = some .breakLoop ∧ stmt.line = 3 := by
  intro session
  have hfailure : (session.execute 9 recheck).failure? =
      some ⟨.strayBreak, some (session.lineOf recheck 3)⟩ := by decide +kernel
  obtain ⟨after, hfailed⟩ := Outcome.eq_failed_of_failure? hfailure
  -- the statement that raised the failure is found by the theorem, and its line by the location
  have hraised := (failure_at_raising_statement 9).2 session recheck _ after hfailed
  obtain ⟨stmt, hstmt⟩ := hraised.raised
  obtain ⟨_, heq, hlocation, hkind⟩ := hraised.located _ hstmt
  cases heq
  refine ⟨_, after, hfailed, rfl, rfl, stmt, hstmt, hkind .breakLoop rfl, ?_⟩
  exact (congrArg Location.line (Option.some.inj hlocation)).symm

end DecimalScript
