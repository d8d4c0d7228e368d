import DecimalScript.Eval.Slot

/-!
# Expressions

The rule for each kind of expression, over the rules for its parts. Operands and arguments are
evaluated from left to right; the arguments of a call come before its callee, and the value of an
assignment before its target.
-/

namespace DecimalScript

/-- Evaluates expressions from left to right. -/
def evalArgs (nested : Nested) : List Expr → Exec (List Value)
  | [] => pure []
  | e :: rest => do
    let value ← nested.eval e
    let values ← evalArgs nested rest
    return value :: values

/-- Evaluates the entries of a map in order, each key before its value, and adds them. -/
def evalEntries (nested : Nested) (entries : Entries Value) :
    List (Expr × Expr) → Exec (Entries Value)
  | [] => pure entries
  | (key, value) :: rest => do
    let key ← Exec.ofExcept (mapKey (← nested.eval key))
    let value ← nested.eval value
    evalEntries nested (entries.insert key value) rest

/-- Evaluates a condition, which has to be a boolean. -/
def evalCondition (nested : Nested) (e : Expr) : Exec Bool := do
  match ← nested.eval e with
  | .bool b => return b
  | other => Exec.fail (.wrongType "bool" other.typeName)

/-! ### Slots -/

/-- The slot of an element or an entry. -/
def evalIndexSlot (nested : Nested) (root index : Expr) : Exec Slot := do
  let root ← nested.eval root
  let index ← nested.eval index
  Exec.ofExcept (Slot.atIndex root index)

/-- The slot of a property. -/
def evalPropertySlot (nested : Nested) (root : Expr) (name : String) : Exec Slot := do
  let root ← nested.eval root
  return .property root name

/-! ### Calls -/

/-- The receiver that is in force and its method of this name, if the receiver is an instance that
has one. -/
def receiverMethod? (session : Session) (name : String) : Option (Value × FunctionDecl) :=
  match session.scopes.receiver? with
  | some (.object addr) =>
    ((session.heap.object addr).classDecl.method? name).map fun decl => (.object addr, decl)
  | _ => none

/-- Calls what a name stands for: a method of the receiver if there is one of this name, else the
function that the name is bound to. -/
def callName (nested : Nested) (name : String) (args : List Value) : Exec Value := do
  match ← Exec.read (receiverMethod? · name) with
  | some (receiver, decl) => invoke nested (.declared decl) (some receiver) args
  | none =>
    -- the name is looked up only now, so a method hides a variable of its name
    match ← Exec.ofExcept (← Exec.read (·.scopes.find name)) with
    | .func f => invoke nested f.routine none args
    | _ => Exec.fail (.notFunction name)

/-- Calls a value, which has to be a function. -/
def callValue (nested : Nested) (callee : Value) (args : List Value) : Exec Value := do
  match callee with
  | .func f => invoke nested f.routine none args
  | other => Exec.fail (.notFunction (← Exec.read (·.heap.inspect other)))

/-- A call. -/
def evalCall (nested : Nested) (callee : Expr) (args : List Expr) : Exec Value := do
  let args ← evalArgs nested args
  match callee with
  | .name name => callName nested name args
  | callee => callValue nested (← nested.eval callee) args

/-- A construction; the class is looked up before the arguments are evaluated. -/
def evalConstruct (nested : Nested) (className : String) (args : List Expr) : Exec Value := do
  let decl ← Exec.ofExcept (← Exec.read (·.scopes.findClass className))
  let args ← evalArgs nested args
  construct nested decl args

/-! ### Operators -/

/-- An assignment. -/
def evalAssign (nested : Nested) (target value : Expr) (byRef : Bool) : Exec Value := do
  -- the value is copied before the target is evaluated
  let value ← pass byRef (← nested.eval value)
  match target with
  | .name name => Exec.tryScopes fun scopes => scopes.assign name value
  | .property root name => (← evalPropertySlot nested root name).write value
  | .index root index => (← evalIndexSlot nested root index).write value
  | _ => Exec.fail (.wrongType "identifier or member" "expression")
  return value

/-- Whether a comparison holds. What is at most something is what is not above it, and what is at
least something is what is not below it. -/
def compareValues (op : LogicOp) (v w : Value) (heap : Heap) : Except Cause Bool :=
  match op with
  | .eq => .ok (heap.equal v w)
  | .notEq => .ok (!heap.equal v w)
  | .lt => Heap.less v w
  | .gt => Heap.greater v w
  | .ltEq => return !(← Heap.greater v w)
  | .gtEq => return !(← Heap.less v w)
  | .and | .or => .ok false

/-- A logic operation. Conjunction and disjunction evaluate their right operand only where the left
one does not decide. -/
def evalLogic (nested : Nested) (op : LogicOp) (left right : Expr) : Exec Value :=
  match op with
  | .and => do
    if ← evalCondition nested left then return .bool (← evalCondition nested right)
    else return .bool false
  | .or => do
    if ← evalCondition nested left then return .bool true
    else return .bool (← evalCondition nested right)
  | op => do
    let v ← nested.eval left
    let w ← nested.eval right
    return .bool (← Exec.ofExcept (← Exec.read fun session => compareValues op v w session.heap))

/-- An operation on two values, which have to be decimals; the left one is asked first. -/
def applyArith (op : ArithOp) (v w : Value) : Except Cause Value :=
  match v, w with
  | .dec x, .dec y => return .dec (← op.apply x y)
  | .dec _, other => .error (.wrongType "decimal" other.typeName)
  | other, _ => .error (.wrongType "decimal" other.typeName)

/-! ### All expressions -/

/-- The rule for an expression. -/
def evalExprWith (nested : Nested) : Expr → Exec Value
  | .number text => do return .dec (← Exec.ofExcept (Decimal.parse text))
  | .string text => return .str text
  | .array items => do
    let values ← evalArgs nested items
    Exec.onHeap fun heap => heap.newArray values
  | .map entries => do
    let entries ← evalEntries nested .empty entries
    Exec.onHeap fun heap => heap.newMap entries
  | .name name => do Exec.ofExcept (← Exec.read (·.scopes.find name))
  | .this => do
    match ← Exec.read (·.scopes.receiver?) with
    | some value => return value
    | none => Exec.fail (.undefinedName "this")
  | .turn part => do
    match ← Exec.read (·.scopes.turn?) with
    | some (index, value) =>
      match part with
      | .index => return index
      | .value => return value
    | none => Exec.fail (.undefinedName "current iteration")
  | .property root name => do (← evalPropertySlot nested root name).read nested
  | .index root index => do (← evalIndexSlot nested root index).read nested
  | .call callee args => evalCall nested callee args
  | .method root name args => do
    let root ← nested.eval root
    let args ← evalArgs nested args
    callMethod nested root name args
  | .construct className args => evalConstruct nested className args
  | .assign target value byRef => evalAssign nested target value byRef
  | .logic op left right => evalLogic nested op left right
  | .negate operand => do return .bool !(← evalCondition nested operand)
  | .arith op left right => do
    let v ← nested.eval left
    let w ← nested.eval right
    Exec.ofExcept (applyArith op v w)

end DecimalScript
