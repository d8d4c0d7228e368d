import DecimalScript.Eval.Exec

/-!
# Blocks and bodies

A block first binds the functions and classes that it declares and then runs its other statements in
order, up to the first that does not end normally. The body of a function has an implicit result:
the value of the expression statement that ran last.
-/

namespace DecimalScript

/-- How a statement ended. -/
inductive Flow where
  | normal
  /-- The function or program is over, with this result. -/
  | result (value : Value)
  | breakLoop
  | continueLoop
  deriving Repr

/-- How the expressions and statements inside a construct are run. The rules for the constructs
themselves are stated over it, so none of them is recursive. -/
structure Nested where
  eval : Expr → Exec Value
  exec : Stmt → Exec Flow

/-- Binds what a statement declares, if it declares a function or a class. -/
def hoistStmt (stmt : Stmt) : Exec Unit :=
  match stmt.kind with
  | .function decl => do
    -- a failure is located at the declaration, not at what ran before it
    Exec.setLine stmt.line
    let f ← Exec.onHeap fun heap => heap.newFunction (.declared decl)
    (Exec.tryScopes fun scopes => scopes.bind decl.name f true).located
  | .classDecl decl => do
    Exec.setLine stmt.line
    (Exec.tryScopes fun scopes => scopes.bindClass decl).located
  | _ => pure ()

/-- Binds every function and class that the statements declare. -/
def hoist : Block → Exec Unit
  | [] => pure ()
  | stmt :: rest => do
    hoistStmt stmt
    hoist rest

/-- Runs the statements that declare neither a function nor a class. -/
def runStmts (nested : Nested) : Block → Exec Flow
  | [] => pure .normal
  | stmt :: rest =>
    -- bound already when the block began
    if stmt.isHoisted then runStmts nested rest
    else do
      match ← nested.exec stmt with
      | .normal => runStmts nested rest
      | flow => pure flow

/-- Runs a block in the current frame. -/
def runBlock (nested : Nested) (block : Block) : Exec Flow := do
  hoist block
  runStmts nested block

/-- Runs a block in a frame of its own. -/
def runScoped (nested : Nested) (block : Block) : Exec Flow :=
  Exec.inFrame none (runBlock nested block)

/-- Takes the implicit result out of the current frame. -/
def takeResult : Exec (Option Value) :=
  fun session =>
    let (result, scopes) := session.scopes.takeResult
    .done result { session with scopes }

/-- The result of a body: what a return gives, or else the implicit result, or else null. -/
def finish (flow : Flow) (implicit : Option Value) : Exec Value :=
  match flow with
  | .normal => pure (implicit.getD .null)
  | .result value => pure value
  -- no loop has taken the break, so there is none around it
  | .breakLoop => (Exec.fail .strayBreak).located
  | .continueLoop => (Exec.fail .strayContinue).located

/-- Runs a body in the frame that was pushed for it. The implicit result is taken out of the frame
even if the body fails, so that it never passes to the caller. -/
def runBody (nested : Nested) (body : Block) : Exec Value := do
  let flow ← (runBlock nested body).afterFailure fun session =>
    { session with scopes := session.scopes.takeResult.2 }
  finish flow (← takeResult)

/-- Runs a program in the root frame. -/
def runProgram (nested : Nested) (program : Block) : Exec Value := do
  let flow ← runBlock nested program
  finish flow (← takeResult)

end DecimalScript
