import DecimalScript.Proofs.Syntax.Rule

/-!
# Interrupts in their place

A break or a continue is in its place if a loop or an iteration of the same body stands around it.
The body of a function, a method or a getter is a body of its own, so a loop around a declaration
does not count for what is declared in it. This is a rule for code in which the place of a statement
is whether a loop stands around it already.
-/

namespace DecimalScript

/-- Interrupts stand in loops; all else may stand anywhere. -/
def interruptRule : CodeRule Bool where
  allows inLoop kind :=
    match kind with
    | .breakLoop | .continueLoop => inLoop
    | _ => true
  inLoop := true
  inBody := false

/-- Every break and continue in the statements is in its place. -/
abbrev blockPlaced (inLoop : Bool) (block : Block) : Bool :=
  interruptRule.onBlock inLoop block

/-- Every break and continue in the statement is in its place. -/
abbrev Stmt.isPlaced (inLoop : Bool) (stmt : Stmt) : Bool :=
  interruptRule.onStmt inLoop stmt

/-- Every break and continue in the body of the function is in its place. -/
abbrev FunctionDecl.isPlaced (decl : FunctionDecl) : Bool :=
  interruptRule.onFunction decl

/-- A loop around it does not change whether a declaration is in order. -/
example : blockPlaced false [⟨.loop (.name "true") [⟨.function ⟨"f", [], [⟨.breakLoop, 3⟩]⟩, 2⟩], 1⟩] =
    false := by decide

end DecimalScript
