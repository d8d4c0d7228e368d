import DecimalScript.Eval.Expr

/-!
# Statements

The rule for each kind of statement, over the rules for its parts. Branches and the turns of loops
run in frames of their own.
-/

namespace DecimalScript

/-! ### Declarations -/

/-- The value of a declaration, and whether what it binds is constant. -/
def evalInitializer (nested : Nested) : Initializer → Exec (Value × Bool)
  | .mutable value => do return (← nested.eval value, false)
  | .constant value => do return (← nested.eval value, true)
  | .construct className args => do return (← evalConstruct nested className args, false)

/-- Binds a value to each of the names, in order, a copy for each unless it is by reference. -/
def bindNames (value : Value) (constant byRef : Bool) : List String → Exec Unit
  | [] => pure ()
  | name :: rest => do
    let bound ← pass byRef value
    Exec.tryScopes fun scopes => scopes.bind name bound constant
    bindNames value constant byRef rest

/-- Binds an imported value under a name. -/
def runImport (name : String) (localName : Option String) : Exec Unit := do
  match ← Exec.read (·.imports.get? name) with
  | none => Exec.fail (.undefinedName name)
  | some value => Exec.tryScopes fun scopes => scopes.bind (localName.getD name) value true

/-! ### Branches -/

/-- Runs the first arm whose condition holds, or else the last block. -/
def runArms (nested : Nested) (otherwise : Option Block) : List Arm → Exec Flow
  | [] =>
    match otherwise with
    | some block => runScoped nested block
    | none => pure .normal
  | arm :: rest => do
    if ← evalCondition nested arm.condition then runScoped nested arm.block
    else runArms nested otherwise rest

/-! ### Loops -/

/-- How a loop ends after a turn that ended in this way; nothing if it goes on. -/
def Flow.endsLoop? : Flow → Option Flow
  | normal | continueLoop => none
  | breakLoop => some .normal
  | result value => some (.result value)

/-- Runs the body as long as the condition holds, for less than `turns` turns. -/
def runLoop (nested : Nested) (condition : Expr) (body : Block) : (turns : Nat) → Exec Flow
  | 0 => Exec.outOfFuel
  | turns + 1 => do
    if ← evalCondition nested condition then
      -- the condition is tested again outside the frame of the turn
      match (← runScoped nested body).endsLoop? with
      | some flow => pure flow
      | none => runLoop nested condition body turns
    else pure .normal

/-- The turns that an iteration takes: the elements of an array with their positions, or the entries
of a map, as they are when it begins. -/
def turnsOf (heap : Heap) (target : Value) : Except Cause (List (Value × Value)) :=
  match target with
  | .array addr => .ok ((heap.items addr).zipIdx.map fun (value, i) => (.ofNat i, value))
  | .map addr => .ok ((heap.entries addr).toList.map fun (key, value) => (.str key, value))
  | other => .error (.wrongType "array or hashmap" other.typeName)

/-- Binds the names of a turn. -/
def bindTurn (names : TurnNames) (index value : Value) : Exec Unit :=
  match names with
  | .none => pure ()
  | .value name => Exec.tryScopes fun scopes => scopes.bind name value false
  | .keyValue keyName valueName => do
    Exec.tryScopes fun scopes => scopes.bind keyName index false
    Exec.tryScopes fun scopes => scopes.bind valueName value false

/-- Runs the body for each of the turns. -/
def runTurns (nested : Nested) (names : TurnNames) (body : Block) :
    List (Value × Value) → Exec Flow
  | [] => pure .normal
  | (index, value) :: rest => do
    let flow ← Exec.inFrame none do
      Exec.modify fun session =>
        { session with scopes := session.scopes.setTurn index value }
      bindTurn names index value
      runBlock nested body
    match flow.endsLoop? with
    | some flow => pure flow
    | none => runTurns nested names body rest

/-! ### All statements -/

/-- The rule for what a statement does. -/
def execKindWith (nested : Nested) (turns : Nat) : StmtKind → Exec Flow
  | .evaluate value => do
    let value ← nested.eval value
    Exec.modify fun session => { session with scopes := session.scopes.setResult value }
    return .normal
  | .declare names init byRef => do
    let (value, constant) ← evalInitializer nested init
    bindNames value constant byRef names
    return .normal
  | .branch first others otherwise => runArms nested otherwise (first :: others)
  | .loop condition body => runLoop nested condition body turns
  | .iterate target names body => do
    let target ← nested.eval target
    -- read off once, so what the body does to the container changes no turn
    let entries ← Exec.ofExcept (← Exec.read fun session => turnsOf session.heap target)
    runTurns nested names body entries
  | .function _ | .classDecl _ => pure .normal
  | .result none => return .result .null
  | .result (some value) => do return .result (← nested.eval value)
  | .breakLoop => return .breakLoop
  | .continueLoop => return .continueLoop
  | .importName name localName => do
    runImport name localName
    return .normal

/-- The rule for a statement. Loops take less than `turns` turns. -/
def execStmtWith (nested : Nested) (turns : Nat) (stmt : Stmt) : Exec Flow :=
  Exec.atLine stmt.line (execKindWith nested turns stmt.kind)

end DecimalScript
