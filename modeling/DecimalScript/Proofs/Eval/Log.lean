import DecimalScript.Eval.Run

/-!
# The expression statements of an activation

An activation is one run of a program or of the body of a call. `logBlock` runs a block as
`runBlock` does and tells on the side the values of the expression statements that it executed, in
order: those of the block itself and those of the branches and of the turns of loops in it, at any
depth and however a turn ended. Calls are evaluated by the plain evaluator, which has no log, so what
a callee executes is never in the log of its caller.

The log changes nothing: without it, what is left is the plain evaluation (`fst_logBlock`).
-/

namespace DecimalScript

/-! ### Evaluations with a log -/

/-- An evaluation of statements with the values of the expression statements that it executed. -/
abbrev Logged : Type := Exec (Flow × List Value)

/-- The values come before those that the evaluation tells. -/
def Logged.after (values : List Value) (x : Logged) : Logged := do
  let (flow, more) ← x
  return (flow, values ++ more)

section Constructs

variable (nested : Nested) (exec : Stmt → Logged)

/-- Runs statements as `runStmts` does. -/
def logStmts : Block → Logged
  | [] => pure (.normal, [])
  | stmt :: rest =>
    if stmt.isHoisted then logStmts rest
    else do
      let (flow, values) ← exec stmt
      match flow with
      | .normal => Logged.after values (logStmts rest)
      | flow => pure (flow, values)

/-- Runs a block in the current frame. -/
def logBlock (block : Block) : Logged := do
  hoist block
  logStmts exec block

/-- Runs a block in a frame of its own. -/
def logScoped (block : Block) : Logged :=
  Exec.inFrame none (logBlock exec block)

/-- Runs the first arm whose condition holds, or else the last block. -/
def logArms (otherwise : Option Block) : List Arm → Logged
  | [] =>
    match otherwise with
    | some block => logScoped exec block
    | none => pure (.normal, [])
  | arm :: rest => do
    if ← evalCondition nested arm.condition then logScoped exec arm.block
    else logArms otherwise rest

/-- Runs the body as long as the condition holds. -/
def logLoop (condition : Expr) (body : Block) : (turns : Nat) → Logged
  | 0 => Exec.outOfFuel
  | turns + 1 => do
    if ← evalCondition nested condition then
      let (flow, values) ← logScoped exec body
      -- the turn counts even if it is the last one
      match flow.endsLoop? with
      | some flow => pure (flow, values)
      | none => Logged.after values (logLoop condition body turns)
    else pure (.normal, [])

/-- Runs the body for each of the turns. -/
def logTurns (names : TurnNames) (body : Block) : List (Value × Value) → Logged
  | [] => pure (.normal, [])
  | (index, value) :: rest => do
    let (flow, values) ← Exec.inFrame none do
      Exec.modify fun session =>
        { session with scopes := session.scopes.setTurn index value }
      bindTurn names index value
      logBlock exec body
    match flow.endsLoop? with
    | some flow => pure (flow, values)
    | none => Logged.after values (logTurns names body rest)

/-- Does what a statement does. -/
def logKind (turns : Nat) : StmtKind → Logged
  | .evaluate e => do
    let value ← nested.eval e
    Exec.modify fun session => { session with scopes := session.scopes.setResult value }
    return (.normal, [value])
  | .branch first others otherwise => logArms nested exec otherwise (first :: others)
  | .loop condition body => logLoop nested exec condition body turns
  | .iterate target names body => do
    let target ← nested.eval target
    let entries ← Exec.ofExcept (← Exec.read fun session => turnsOf session.heap target)
    logTurns exec names body entries
  -- no other statement has statements inside that belong to the activation
  | kind => do return (← execKindWith nested turns kind, [])

end Constructs

/-- Runs a statement with the given fuel. -/
def logStmt : (fuel : Nat) → Stmt → Logged
  | 0, _ => Exec.outOfFuel
  | fuel + 1, stmt =>
    Exec.atLine stmt.line (logKind (nestedWith fuel) (logStmt fuel) fuel stmt.kind)

/-! ### Erasing the log -/

/-- The evaluation without its log. -/
def Logged.Erases (x : Logged) (y : Exec Flow) : Prop :=
  Prod.fst <$> x = y

namespace Logged

variable {α : Type} {x : Logged} {y : Exec Flow}

theorem Erases.pure (flow : Flow) (values : List Value) :
    Erases (pure (flow, values)) (pure flow) :=
  map_pure Prod.fst (flow, values)

theorem Erases.outOfFuel : Erases Exec.outOfFuel Exec.outOfFuel := rfl

/-- Both go on after one evaluation that has no log. -/
theorem Erases.bind_plain (z : Exec α) {f : α → Logged} {g : α → Exec Flow}
    (h : ∀ value, (f value).Erases (g value)) : Erases (z >>= f) (z >>= g) := by
  rw [Erases, map_bind]
  exact congrArg (z >>= ·) (funext h)

theorem Erases.bind {f : Flow × List Value → Logged} {g : Flow → Exec Flow} (hxy : x.Erases y)
    (h : ∀ flow values, (f (flow, values)).Erases (g flow)) : Erases (x >>= f) (y >>= g) := by
  subst hxy
  rw [Erases, map_bind, bind_map_left]
  exact congrArg (x >>= ·) (funext fun told => h told.1 told.2)

theorem Erases.after (hxy : x.Erases y) (values : List Value) : (x.after values).Erases y := by
  have h := Erases.bind (f := fun told => Pure.pure (told.1, values ++ told.2)) (g := Pure.pure) hxy
    fun flow more => .pure flow (values ++ more)
  rwa [bind_pure] at h

theorem Erases.ofPlain (y : Exec Flow) :
    Erases (do return (← y, [])) y := by
  rw [Erases, map_bind]
  exact (congrArg (y >>= ·) (funext fun flow => map_pure Prod.fst (flow, []))).trans (bind_pure y)

theorem run_fst (x : Logged) (s : Session) :
    (Prod.fst <$> x).run s =
      match x.run s with
      | .done told t => .done told.1 t
      | .failed failure t => .failed failure t
      | .outOfFuel => .outOfFuel := by
  rw [← bind_pure_comp, Exec.run_bind]
  cases x.run s <;> rfl

theorem Erases.located (hxy : x.Erases y) : Erases (Exec.located x) y.located := by
  subst hxy
  funext s
  -- both are rewritten to what they are on the plain evaluation
  have hx := run_fst x s
  have hlocated := run_fst (Exec.located x) s
  simp only [Exec.located, Exec.run] at hx hlocated ⊢
  rw [hlocated, hx]
  cases x s <;> rfl

theorem Erases.afterFailure (f : Session → Session) (hxy : x.Erases y) :
    Erases (Exec.afterFailure x f) (y.afterFailure f) := by
  subst hxy
  funext s
  have hx := run_fst x s
  have hafter := run_fst (Exec.afterFailure x f) s
  simp only [Exec.afterFailure, Exec.run] at hx hafter ⊢
  rw [hafter, hx]
  cases x s <;> rfl

theorem Erases.afterwards (f : Session → Session) (hxy : x.Erases y) :
    Erases (Exec.afterwards x f) (y.afterwards f) := by
  subst hxy
  funext s
  have hx := run_fst x s
  have hafter := run_fst (Exec.afterwards x f) s
  simp only [Exec.afterwards, Exec.run] at hx hafter ⊢
  rw [hafter, hx]
  cases x s <;> rfl

theorem Erases.atLine (line : Nat) (hxy : x.Erases y) :
    Erases (Exec.atLine line x) (Exec.atLine line y) :=
  .bind_plain _ fun _ => .located (.afterFailure _ hxy)

theorem Erases.inFrame (receiver : Option Value) (hxy : x.Erases y) :
    Erases (Exec.inFrame receiver x) (Exec.inFrame receiver y) :=
  .bind_plain _ fun _ => .afterwards _ hxy

end Logged

open Logged (Erases)

section Constructs

variable {nested : Nested} {exec : Stmt → Logged}
  (hexec : ∀ stmt, (exec stmt).Erases (nested.exec stmt))
include hexec

theorem erases_logStmts (block : Block) :
    (logStmts exec block).Erases (runStmts nested block) := by
  -- on the block; the log is kept beside the flow and decides nothing
  induction block with
  | nil => exact .pure _ _
  | cons stmt rest ih =>
    rw [logStmts, runStmts]
    split
    · exact ih
    · refine .bind (hexec stmt) fun flow values => ?_
      cases flow with
      | normal => exact ih.after values
      | result value => exact .pure _ _
      | breakLoop => exact .pure _ _
      | continueLoop => exact .pure _ _

theorem erases_logBlock (block : Block) :
    (logBlock exec block).Erases (runBlock nested block) :=
  .bind_plain (hoist block) fun _ => erases_logStmts hexec block

theorem erases_logScoped (block : Block) :
    (logScoped exec block).Erases (runScoped nested block) :=
  .inFrame none (erases_logBlock hexec block)

theorem erases_logArms (otherwise : Option Block) (arms : List Arm) :
    (logArms nested exec otherwise arms).Erases (runArms nested otherwise arms) := by
  -- on the arms
  induction arms with
  | nil =>
    cases otherwise with
    | some block => exact erases_logScoped hexec block
    | none => exact .pure _ _
  | cons arm rest ih =>
    refine .bind_plain (evalCondition nested arm.condition) fun b => ?_
    split
    · exact erases_logScoped hexec arm.block
    · exact ih

theorem erases_logLoop (condition : Expr) (body : Block) (turns : Nat) :
    (logLoop nested exec condition body turns).Erases (runLoop nested condition body turns) := by
  -- on the turns that are left
  induction turns with
  | zero => exact .outOfFuel
  | succ turns ih =>
    refine .bind_plain (evalCondition nested condition) fun b => ?_
    split
    · refine .bind (erases_logScoped hexec body) fun flow values => ?_
      dsimp only
      cases flow.endsLoop? with
      | some ended => exact .pure _ _
      | none => exact ih.after values
    · exact .pure _ _

theorem erases_logTurns (names : TurnNames) (body : Block) (entries : List (Value × Value)) :
    (logTurns exec names body entries).Erases (runTurns nested names body entries) := by
  -- on the entries that are left
  induction entries with
  | nil => exact .pure _ _
  | cons entry rest ih =>
    obtain ⟨index, value⟩ := entry
    refine .bind (.inFrame none ?_) fun flow values => ?_
    · refine .bind_plain _ fun _ => ?_
      refine .bind_plain (bindTurn names index value) fun _ => ?_
      exact erases_logBlock hexec body
    dsimp only
    cases flow.endsLoop? with
    | some ended => exact .pure _ _
    | none => exact ih.after values

theorem erases_logKind (turns : Nat) (kind : StmtKind) :
    (logKind nested exec turns kind).Erases (execKindWith nested turns kind) := by
  -- a statement that holds no block and tells no value is annotated with nothing
  cases kind with
  | evaluate value =>
    refine .bind_plain (nested.eval value) fun v => ?_
    refine .bind_plain _ fun _ => ?_
    exact .pure _ _
  | branch first others otherwise => exact erases_logArms hexec otherwise _
  | loop condition body => exact erases_logLoop hexec condition body turns
  | iterate target names body =>
    refine .bind_plain (nested.eval target) fun container => ?_
    refine .bind_plain _ fun turns => ?_
    refine .bind_plain (Exec.ofExcept turns) fun entries => ?_
    exact erases_logTurns hexec names body entries
  | _ => exact .ofPlain _

end Constructs

theorem erases_logStmt (fuel : Nat) (stmt : Stmt) :
    (logStmt fuel stmt).Erases (execStmt fuel stmt) := by
  induction fuel generalizing stmt with
  | zero => exact .outOfFuel
  | succ fuel ih =>
    have hnested : ∀ stmt, (logStmt fuel stmt).Erases ((nestedWith fuel).exec stmt) := ih
    exact .atLine stmt.line (erases_logKind hnested fuel stmt.kind)

/-- **The log changes nothing.** Without it the block runs as it does in the evaluator. -/
theorem fst_logBlock (fuel : Nat) (block : Block) :
    Prod.fst <$> logBlock (logStmt fuel) block = runBlock (nestedWith fuel) block := by
  have hnested : ∀ stmt, (logStmt fuel stmt).Erases ((nestedWith fuel).exec stmt) :=
    erases_logStmt fuel
  exact erases_logBlock hnested block

end DecimalScript
