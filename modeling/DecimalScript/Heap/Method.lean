import DecimalScript.Heap.Equality
import DecimalScript.Heap.Property

/-!
# Methods

What a method of a value does with its arguments. Each method checks all that it asks for before it
changes anything, so a call that fails leaves the heap as it was. Functions have the one method
`call`, and an instance has the methods of its class.
-/

namespace DecimalScript.Heap

/-! ### Scalars -/

/-- The string arguments from an index on. -/
def stringArguments (callee : String) (args : List Value) : Except Cause (List String) :=
  (List.range args.length).mapM (stringArgument callee args)

/-- A method of a string. -/
def stringMethod (text name : String) (args : List Value) : Except Cause Value :=
  match name with
  | "toNumber" => do
    requireCount name 0 args.length
    return .dec (← Decimal.parse text)
  | "concat" => return .str (text ++ String.join (← stringArguments name args))
  | _ => .error (.noMethod name "string")

/-- A method of a decimal. -/
def decimalMethod (d : Decimal) (name : String) (args : List Value) : Except Cause Value :=
  match name with
  | "toInteger" => do
    requireCount name 0 args.length
    return .dec (.ofInt (← d.toInt))
  | _ => .error (.noMethod name "decimal")

/-! ### Arrays -/

/-- The separator of `join` without an argument. -/
def defaultSeparator : String := ","

/-- The separator that the arguments of `join` give. -/
def joinSeparator (args : List Value) : Except Cause String :=
  match args with
  | [] => .ok defaultSeparator
  | [_] => stringArgument "join" args 0
  | _ => .error (.argumentsNotExact "join" 1 args.length)

/-- The elements of an array as strings, which all of them have to be; the index counts from
zero. -/
def joinParts : (index : Nat) → List Value → Except Cause (List String)
  | _, [] => .ok []
  | index, .str s :: rest => return s :: (← joinParts (index + 1) rest)
  | index, other :: _ => .error (badArgument "join" index "string" other)

/-- The elements of all the arguments, which have to be arrays. -/
def arrayArguments (heap : Heap) (callee : String) (args : List Value) :
    Except Cause (List Value) :=
  return (← (List.range args.length).mapM (arrayArgument heap callee args)).flatten

/-- Where the first element equal to a value stands. -/
def indexOf? (heap : Heap) (items : List Value) (value : Value) : Option Nat :=
  items.findIdx? fun item => heap.equal item value

/-- A method of an array. -/
def arrayMethod (heap : Heap) (addr : Nat) (name : String) (args : List Value) :
    Except Cause (Value × Heap) :=
  let items := heap.items addr
  match name with
  | "insert" =>
    match args with
    | [index, value] => do
      -- the place behind the last element is one too
      let place ← insertPosition index items.length
      return (.array addr, heap.setItems addr (items.take place ++ value :: items.drop place))
    | _ => .error (.argumentsNotExact name 2 args.length)
  | "prepend" => do
    requireAtLeast name 1 args.length
    return (.array addr, heap.setItems addr (args ++ items))
  | "append" => do
    requireAtLeast name 1 args.length
    return (.array addr, heap.setItems addr (items ++ args))
  | "shift" => do
    requireCount name 0 args.length
    return (items.head?.getD .null, heap.setItems addr items.tail)
  | "pop" => do
    requireCount name 0 args.length
    return (items.getLast?.getD .null, heap.setItems addr items.dropLast)
  | "join" => do
    let separator ← joinSeparator args
    return (.str (separator.intercalate (← joinParts 0 items)), heap)
  | "concat" => return heap.newArray (items ++ (← heap.arrayArguments name args))
  | "contains" =>
    match args with
    | [value] => return (.bool (heap.indexOf? items value).isSome, heap)
    | _ => .error (.argumentsNotExact name 1 args.length)
  | "indexOf" =>
    match args with
    | [value] =>
      return (((heap.indexOf? items value).map Value.ofNat).getD (.dec (.ofInt (-1))), heap)
    | _ => .error (.argumentsNotExact name 1 args.length)
  | _ => .error (.noMethod name "array")

/-! ### Maps -/

/-- A method of a map. -/
def mapMethod (heap : Heap) (addr : Nat) (name : String) (args : List Value) :
    Except Cause (Value × Heap) :=
  let entries := heap.entries addr
  match name with
  | "get" =>
    match args with
    | [key] => return ((entries.get? (← mapKey key)).getD .null, heap)
    | _ => .error (.argumentsNotExact name 1 args.length)
  | "set" =>
    match args with
    | [key, value] => return (value, heap.setEntries addr (entries.insert (← mapKey key) value))
    | _ => .error (.argumentsNotExact name 2 args.length)
  | "delete" =>
    match args with
    | [key] => do
      let key ← mapKey key
      return ((entries.get? key).getD .null, heap.setEntries addr (entries.erase key))
    | _ => .error (.argumentsNotExact name 1 args.length)
  | _ => .error (.noMethod name "hashmap")

/-! ### All values -/

/-- A call of a method of a value. -/
def method (heap : Heap) (value : Value) (name : String) (args : List Value) :
    Except Cause (Reply × Heap) :=
  match value with
  | .str s => return (.value (← stringMethod s name args), heap)
  | .dec d => return (.value (← decimalMethod d name args), heap)
  | .array addr => do
    let (value, heap) ← heap.arrayMethod addr name args
    return (.value value, heap)
  | .map addr => do
    let (value, heap) ← heap.mapMethod addr name args
    return (.value value, heap)
  | .func f =>
    if name = "call" then return (.call f.routine none args, heap)
    else .error (.noMethod name value.typeName)
  | .object addr =>
    match (heap.object addr).classDecl.method? name with
    | some decl => return (.call (.declared decl) (some value) args, heap)
    | none => .error (.noMethod name "object")
  | .null | .bool _ => .error (.noMethod name value.typeName)

end DecimalScript.Heap
