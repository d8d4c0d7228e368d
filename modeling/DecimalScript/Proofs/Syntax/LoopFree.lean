import DecimalScript.Proofs.Syntax.Rule

/-!
# Code without loops

Code is free of loops if no statement in it runs a block as long as a condition holds, at any depth,
the bodies of functions, methods and getters that it declares included. Iterations are no loops in
this sense: how many turns one takes is settled when it begins. This is a rule for code to which it
does not matter where a statement stands.
-/

namespace DecimalScript

/-- No loop may stand anywhere. -/
def loopFreeRule : CodeRule Unit where
  allows _ kind :=
    match kind with
    | .loop .. => false
    | _ => true
  inLoop := ()
  inBody := ()

/-- No loop stands in the statements. -/
abbrev blockLoopFree (block : Block) : Bool :=
  loopFreeRule.onBlock () block

/-- No loop stands in the statement. -/
abbrev Stmt.isLoopFree (stmt : Stmt) : Bool :=
  loopFreeRule.onStmt () stmt

/-- No loop stands in the body of the function. -/
abbrev FunctionDecl.isLoopFree (decl : FunctionDecl) : Bool :=
  loopFreeRule.onFunction decl

end DecimalScript
