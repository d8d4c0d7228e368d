import DecimalScript.Eval.Block
import DecimalScript.Heap.Copy
import DecimalScript.Heap.Method

/-!
# Calls and construction

A call of a declared function binds its arguments in a new frame inside the frame of the caller and
runs the body there. A construction gives a new instance the first values of its properties and then
sets the properties that the parameters of the constructor name. Both stand on the call stack while
they run.
-/

namespace DecimalScript

/-- The value itself where it goes by reference, else its copy. -/
def pass (byRef : Bool) (value : Value) : Exec Value :=
  Exec.onHeap fun heap => heap.pass byRef value

/-- Binds arguments to parameters one after the other. -/
def bindEach : List Param → List Value → Exec Unit
  | param :: params, arg :: args => do
    let value ← pass param.byRef arg
    Exec.tryScopes fun scopes => scopes.bind param.name value false
    bindEach params args
  | _, _ => pure ()

/-- Binds arguments to parameters, of which there have to be as many. -/
def bindParams (callee : String) (params : List Param) (args : List Value) : Exec Unit :=
  if params.length = args.length then bindEach params args
  else Exec.fail (.argumentsMismatched callee params.length args.length)

/-- The fold that an arithmetic native function computes. -/
def nativeFold (fn : Native) (op : ArithOp) (args : List Value) : Exec Value := do
  return .dec (← Exec.ofExcept (foldDecimals fn.name op args))

/-- Runs a native function. -/
def runNative (fn : Native) (args : List Value) : Exec Value :=
  match fn with
  | .print => do
    Exec.modify fun session =>
      let line := " ".intercalate (args.map session.heap.display)
      { session with sink := session.sink.println line }
    return .null
  | .add => nativeFold fn .add args
  | .sub => nativeFold fn .sub args
  | .mul => nativeFold fn .mul args
  | .div => nativeFold fn .div args
  | .probe =>
    match args with
    | [.str tag, value] => do
      Exec.modify fun session => { session with probes := session.probes.push (tag, value) }
      return value
    | [other, _] => Exec.fail (badArgument fn.name 0 "string" other)
    | _ => Exec.fail (.argumentsNotExact fn.name 2 args.length)

/-- Calls a routine. -/
def invoke (nested : Nested) (routine : Routine) (receiver : Option Value) (args : List Value) :
    Exec Value :=
  Exec.inCall routine.name <|
    match routine with
    | .native fn => runNative fn args
    | .declared decl =>
      Exec.inFrame receiver do
        bindParams decl.name decl.params args
        runBody nested decl.body

/-- Gives the properties of an instance their first values, in order. -/
def initProps (nested : Nested) (addr : Nat) : List PropertyDecl → Exec Unit
  | [] => pure ()
  | decl :: rest => do
    let value ← nested.eval decl.init
    Exec.modify fun session =>
      { session with heap := session.heap.setProp addr decl.name value }
    initProps nested addr rest

/-- Sets the properties that the parameters of a constructor name. -/
def setParamProps (addr : Nat) : List Param → List Value → Exec Unit
  | param :: params, arg :: args => do
    let value ← pass param.byRef arg
    Exec.modify fun session =>
      { session with heap := session.heap.setProp addr param.name value }
    setParamProps addr params args
  | _, _ => pure ()

/-- Constructs an instance of a class. -/
def construct (nested : Nested) (decl : ClassDecl) (args : List Value) : Exec Value := do
  if decl.params.length = args.length then
    let addr ← Exec.onHeap fun heap => heap.newObject decl
    -- the initial values are those of a call in which the instance is the receiver
    Exec.inCall decl.name <|
      Exec.inFrame (some (.object addr)) (initProps nested addr decl.properties)
    setParamProps addr decl.params args
    return .object addr
  else
    Exec.fail (.argumentsMismatched decl.name decl.params.length args.length)

/-- Makes the call that a reply asks for, if it asks for one. -/
def settle (nested : Nested) : Reply → Exec Value
  | .value value => pure value
  | .call routine receiver args => invoke nested routine receiver args

/-- Reads a property of a value. -/
def getProperty (nested : Nested) (value : Value) (name : String) : Exec Value := do
  settle nested (← Exec.tryHeap fun heap => heap.property value name)

/-- A property that is no getter is read without a call. -/
theorem run_getProperty_of_value {nested : Nested} {value v : Value} {name : String} {s : Session}
    {heap : Heap} (h : s.heap.property value name = .ok (.value v, heap)) :
    (getProperty nested value name).run s = .done v { s with heap } := by
  rw [getProperty, Exec.run_bind, Exec.run_tryHeap_of_ok h]
  rfl

/-- Sets a property of a value. -/
def setProperty (value : Value) (name : String) (new : Value) : Exec Unit :=
  Exec.tryHeap fun heap => return ((), ← heap.setProperty value name new)

/-- Calls a method of a value. -/
def callMethod (nested : Nested) (value : Value) (name : String) (args : List Value) :
    Exec Value := do
  settle nested (← Exec.tryHeap fun heap => heap.method value name args)

end DecimalScript
