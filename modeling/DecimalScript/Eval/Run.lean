import DecimalScript.Eval.Stmt

/-!
# Running programs

Evaluation with fuel. Each expression or statement inside another takes one unit of fuel, and so
does each turn of a loop whose condition is tested, so an evaluation that ends has an answer with
enough fuel. To run out of fuel is an outcome of its own.
-/

namespace DecimalScript

mutual

/-- Evaluates an expression with the given fuel. -/
def evalExpr : (fuel : Nat) → Expr → Exec Value
  | 0, _ => Exec.outOfFuel
  | fuel + 1, e => evalExprWith { eval := evalExpr fuel, exec := execStmt fuel } e

/-- Runs a statement with the given fuel. -/
def execStmt : (fuel : Nat) → Stmt → Exec Flow
  | 0, _ => Exec.outOfFuel
  | fuel + 1, stmt => execStmtWith { eval := evalExpr fuel, exec := execStmt fuel } fuel stmt

end

/-- How expressions and statements run with the given fuel. -/
def nestedWith (fuel : Nat) : Nested :=
  { eval := evalExpr fuel, exec := execStmt fuel }

/-- A number literal evaluates to the decimal that it spells. -/
theorem run_evalExpr_number {text : String} {d : Decimal} (h : Decimal.parse text = .ok d)
    (fuel : Nat) (s : Session) :
    (evalExpr (fuel + 1) (.number text)).run s = .done (.dec d) s := by
  change (Exec.ofExcept (Decimal.parse text) >>= fun d => pure (Value.dec d)).run s = _
  rw [h]
  rfl

/-- A program and where it comes from. -/
structure Input where
  program : Block
  /-- The file name for locations; the one of the session if there is none. -/
  file : Option String
  /-- The source text, whose lines locations show. -/
  source : Option String

namespace Session

/-- The session at the start of a program. -/
def start (session : Session) (input : Input) : Session :=
  { session with file := input.file.or session.defaultFile, source := input.source, line := 0 }

/-- The session after a program that failed: only the root frame is left, and no call is running. -/
def recover (session : Session) : Session :=
  { session with scopes := session.scopes.unwind, calls := session.calls.clear }

/-- Runs a program. After a failure, which always has a location, the session can go on. -/
def execute (fuel : Nat) (input : Input) (session : Session) : Outcome Value :=
  (((runProgram (nestedWith fuel) input.program).located).afterFailure recover)
    (session.start input)

end Session

end DecimalScript
