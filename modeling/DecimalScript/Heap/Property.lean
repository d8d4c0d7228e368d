import DecimalScript.Decimal.Literal
import DecimalScript.Heap.Inspect
import DecimalScript.Value.Fold

/-!
# Properties

What a property of a value reads as. An instance answers with its own property, or else asks for a
call of the getter of its class; only instances take new values for properties.
-/

namespace DecimalScript

/-- What a request to a value comes to: a value, or a call that yields one. -/
inductive Reply where
  | value (value : Value)
  | call (routine : Routine) (receiver : Option Value) (args : List Value)

namespace Heap

/-- A property of a string. -/
def stringProperty (text name : String) : Except Cause Value :=
  match name with
  | "length" => .ok (.ofNat text.length)
  | "text" => .ok (.str text)
  | _ => .error (.noProperty name "string")

/-- A property of a decimal. -/
def decimalProperty (d : Decimal) (name : String) : Except Cause Value :=
  match name with
  | "+1" => .ok (.dec (d.add .one))
  | "-1" => .ok (.dec (d.sub .one))
  | "text" => .ok (.str d.text)
  | _ => .error (.noProperty name "decimal")

/-- A property of a boolean. -/
def boolProperty (b : Bool) (name : String) : Except Cause Value :=
  match name with
  | "text" => .ok (.str (if b then "true" else "false"))
  | _ => .error (.noProperty name "bool")

/-- A property of an array with the given elements. -/
def arrayProperty (items : List Value) (name : String) : Except Cause Value :=
  match name with
  | "sum" => return .dec (← foldDecimals name .add items)
  | "diff" => return .dec (← foldDecimals name .sub items)
  | "product" => return .dec (← foldDecimals name .mul items)
  | "quotient" => return .dec (← foldDecimals name .div items)
  | "first" => .ok (items.head?.getD .null)
  | "last" => .ok (items.getLast?.getD .null)
  | "length" => .ok (.ofNat items.length)
  | _ => .error (.noProperty name "array")

/-- A property of a map with the given entries; its keys and its values are new arrays. -/
def mapProperty (heap : Heap) (entries : Entries Value) (name : String) :
    Except Cause (Value × Heap) :=
  match name with
  | "length" => .ok (.ofNat entries.size, heap)
  | "keys" => .ok (heap.newArray (entries.keys.map .str))
  | "values" => .ok (heap.newArray entries.values)
  | _ => .error (.noProperty name "hashmap")

/-- A property of an instance. -/
def objectProperty (heap : Heap) (addr : Nat) (name : String) : Except Cause Reply :=
  match (heap.object addr).props.get? name with
  | some value => .ok (.value value)
  | none =>
    -- a property of the instance hides a getter of its class
    match (heap.object addr).classDecl.getter? name with
    | some getter => .ok (.call (.declared getter) (some (.object addr)) [])
    | none => .error (.noProperty name "object")

/-- A property of a value. -/
def property (heap : Heap) (value : Value) (name : String) : Except Cause (Reply × Heap) :=
  match value with
  | .str s => return (.value (← stringProperty s name), heap)
  | .dec d => return (.value (← decimalProperty d name), heap)
  | .bool b => return (.value (← boolProperty b name), heap)
  | .array addr => return (.value (← arrayProperty (heap.items addr) name), heap)
  | .map addr => do
    let (value, heap) ← heap.mapProperty (heap.entries addr) name
    return (.value value, heap)
  | .object addr => return (← heap.objectProperty addr name, heap)
  | .null | .func _ => .error (.noProperty name value.typeName)

/-- Sets a property of a value, which has to be an instance. -/
def setProperty (heap : Heap) (value : Value) (name : String) (new : Value) : Except Cause Heap :=
  match value with
  | .object addr => .ok (heap.setProp addr name new)
  | other => .error (.noProperty name other.typeName)

end Heap

end DecimalScript
