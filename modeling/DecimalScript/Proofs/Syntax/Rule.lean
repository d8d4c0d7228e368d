import DecimalScript.Syntax.Stmt

/-!
# Rules for code

A rule tells which statements may stand where. What "where" means is up to the rule: all that a rule
says of it is which place the body of a loop is, and which place the body of a function. Code obeys
the rule if each statement in it is allowed in its place, at any depth, the bodies of the functions,
methods and getters that it declares included.
-/

namespace DecimalScript

/-- Which statements may stand where. -/
structure CodeRule (Place : Type) where
  /-- The statement may stand in the place, whatever stands inside it. -/
  allows : Place → StmtKind → Bool
  /-- The place of the statements in a loop or in an iteration. -/
  inLoop : Place
  /-- The place of the statements in the body of a function, a method or a getter. -/
  inBody : Place

namespace CodeRule

variable {Place : Type} (rule : CodeRule Place)

mutual

/-- The statement obeys the rule. -/
def onStmt (place : Place) : Stmt → Bool
  | ⟨kind, _⟩ => rule.allows place kind && inside place kind

/-- What stands inside the statement obeys the rule. Arms are in the place of the branch. -/
def inside (place : Place) : StmtKind → Bool
  | .evaluate _ => true
  | .declare .. => true
  | .branch first others otherwise =>
    onArm place first && onArms place others && onOtherwise place otherwise
  | .loop _ body => onBlock rule.inLoop body
  | .iterate _ _ body => onBlock rule.inLoop body
  | .function decl => onFunction decl
  | .classDecl decl => onClass decl
  | .result _ => true
  | .breakLoop => true
  | .continueLoop => true
  | .importName .. => true

/-- The guarded block obeys the rule. -/
def onArm (place : Place) : Arm → Bool
  | ⟨_, block⟩ => onBlock place block

/-- The body of the function obeys the rule. -/
def onFunction : FunctionDecl → Bool
  | ⟨_, _, body⟩ => onBlock rule.inBody body

/-- The body of the getter obeys the rule. -/
def onGetter : GetterDecl → Bool
  | ⟨_, body⟩ => onBlock rule.inBody body

/-- The getters and methods of the class obey the rule. -/
def onClass : ClassDecl → Bool
  | ⟨_, _, _, getters, methods⟩ => onGetters getters && onFunctions methods

/-- The statements obey the rule. -/
def onBlock (place : Place) : List Stmt → Bool
  | [] => true
  | stmt :: rest => onStmt place stmt && onBlock place rest

/-- The guarded blocks obey the rule. -/
def onArms (place : Place) : List Arm → Bool
  | [] => true
  | arm :: rest => onArm place arm && onArms place rest

/-- The block that runs where no condition holds obeys the rule. -/
def onOtherwise (place : Place) : Option (List Stmt) → Bool
  | none => true
  | some block => onBlock place block

/-- The getters obey the rule. -/
def onGetters : List GetterDecl → Bool
  | [] => true
  | getter :: rest => onGetter getter && onGetters rest

/-- The functions obey the rule. -/
def onFunctions : List FunctionDecl → Bool
  | [] => true
  | decl :: rest => onFunction decl && onFunctions rest

end

/-! ### The parts of code that obeys a rule -/

variable {rule} {place : Place}

theorem onStmt_iff {stmt : Stmt} : rule.onStmt place stmt = true ↔
    rule.allows place stmt.kind = true ∧ rule.inside place stmt.kind = true := by
  cases stmt
  rw [onStmt, Bool.and_eq_true]

theorem onFunction_iff {decl : FunctionDecl} :
    rule.onFunction decl = true ↔ rule.onBlock rule.inBody decl.body = true := by
  cases decl
  rw [onFunction]

/-- A getter obeys the rule if it does so as a function. -/
theorem onFunction_asFunction (getter : GetterDecl) :
    rule.onFunction getter.asFunction = rule.onGetter getter := by
  cases getter
  rw [onGetter, GetterDecl.asFunction, onFunction]

theorem onArm_eq (arm : Arm) : rule.onArm place arm = rule.onBlock place arm.block := by
  cases arm
  rw [onArm]

theorem onBlock_iff {block : Block} :
    rule.onBlock place block = true ↔ ∀ stmt ∈ block, rule.onStmt place stmt = true := by
  induction block with
  | nil => simp [onBlock]
  | cons stmt rest ih => rw [onBlock, Bool.and_eq_true, ih, List.forall_mem_cons]

theorem onArms_iff {arms : List Arm} :
    rule.onArms place arms = true ↔ ∀ arm ∈ arms, rule.onArm place arm = true := by
  induction arms with
  | nil => simp [onArms]
  | cons arm rest ih => rw [onArms, Bool.and_eq_true, ih, List.forall_mem_cons]

theorem onGetters_iff {getters : List GetterDecl} :
    rule.onGetters getters = true ↔ ∀ getter ∈ getters, rule.onGetter getter = true := by
  induction getters with
  | nil => simp [onGetters]
  | cons getter rest ih => rw [onGetters, Bool.and_eq_true, ih, List.forall_mem_cons]

theorem onFunctions_iff {decls : List FunctionDecl} :
    rule.onFunctions decls = true ↔ ∀ decl ∈ decls, rule.onFunction decl = true := by
  induction decls with
  | nil => simp [onFunctions]
  | cons decl rest ih => rw [onFunctions, Bool.and_eq_true, ih, List.forall_mem_cons]

/-- Getters and methods are functions alike. -/
theorem onClass_iff {decl : ClassDecl} : rule.onClass decl = true ↔
    (∀ getter ∈ decl.getters, rule.onFunction getter.asFunction = true) ∧
      ∀ method ∈ decl.methods, rule.onFunction method = true := by
  cases decl
  simp only [onClass, Bool.and_eq_true, onGetters_iff, onFunctions_iff, onFunction_asFunction]

theorem inside_branch_iff {first : Arm} {others : List Arm} {otherwise : Option Block} :
    rule.inside place (.branch first others otherwise) = true ↔
      (∀ arm ∈ first :: others, rule.onBlock place arm.block = true) ∧
        ∀ block ∈ otherwise, rule.onBlock place block = true := by
  -- the first arm stands apart in the syntax, and the block without a condition is an option
  simp only [inside, Bool.and_eq_true, onArms_iff, onArm_eq, List.forall_mem_cons]
  refine and_congr_right fun _ => ?_
  cases otherwise with
  | none => simp [onOtherwise]
  | some block => simp [onOtherwise]

/-- A function that a statement declares obeys the rule if the statement does. -/
theorem onFunction_of_onStmt {stmt : Stmt} (h : rule.onStmt place stmt = true) {decl : FunctionDecl}
    (hkind : stmt.kind = .function decl) : rule.onFunction decl = true := by
  have hinside := (onStmt_iff.1 h).2
  rwa [hkind, inside] at hinside

/-- So does a class. -/
theorem onClass_of_onStmt {stmt : Stmt} (h : rule.onStmt place stmt = true) {decl : ClassDecl}
    (hkind : stmt.kind = .classDecl decl) : rule.onClass decl = true := by
  have hinside := (onStmt_iff.1 h).2
  rwa [hkind, inside] at hinside

end CodeRule

end DecimalScript
