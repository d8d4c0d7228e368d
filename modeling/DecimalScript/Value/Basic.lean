import DecimalScript.Decimal.Basic
import DecimalScript.Syntax.Stmt

/-!
# Values

A value is null, a boolean, a string, a decimal, a function, or a reference to an array, a map or an
instance on the heap. To copy a reference is to share what it refers to.

The native functions are the six of the standard globals. A host can also make native functions of
its own and hand them to a session among its globals or its imports. Those are left out: what one of
them does is the host's to say, and it may change the state in ways in which no program can. So a
statement about every session is one about the sessions that hold no function of the host's making.
-/

namespace DecimalScript

/-- The functions that need no declaration. They are the ones in the standard globals; functions that
a host makes are left out. -/
inductive Native where
  | print
  | add
  | sub
  | mul
  | div
  | probe
  deriving Repr, DecidableEq

/-- The name of a native function. -/
def Native.name : Native → String
  | print => "print"
  | add => "add"
  | sub => "sub"
  | mul => "mul"
  | div => "div"
  | probe => "probe"

/-- What a call runs. -/
inductive Routine where
  | native (fn : Native)
  | declared (decl : FunctionDecl)
  deriving Repr

namespace Routine

/-- The name under which a call of the routine stands on the call stack. -/
def name : Routine → String
  | native fn => fn.name
  | declared decl => decl.name

/-- The declared parameters; a native function declares none. -/
def params : Routine → List Param
  | native _ => []
  | declared decl => decl.params

/-- Whether the routine is a native function. -/
def isNative : Routine → Bool
  | native _ => true
  | declared _ => false

end Routine

/-- A function as a value. Two functions are the same if they have the same number, which each
declaration that runs gives anew. -/
structure Closure where
  id : Nat
  routine : Routine
  deriving Repr

/-- A value. Arrays, maps and instances are given by their addresses on the heap. -/
inductive Value where
  | null
  | bool (b : Bool)
  | str (text : String)
  | dec (d : Decimal)
  | array (addr : Nat)
  | map (addr : Nat)
  | func (closure : Closure)
  | object (addr : Nat)
  deriving Repr, Inhabited

namespace Value

/-- The name of the value's type in messages. -/
def typeName : Value → String
  | null => "null"
  | bool _ => "bool"
  | str _ => "string"
  | dec _ => "decimal"
  | array _ => "array"
  | map _ => "hashmap"
  | func _ => "function"
  | object _ => "object"

/-- A count or a position as a value. -/
def ofNat (n : Nat) : Value :=
  dec (.ofInt n)

/-- Whether both values are references to the same thing. Values that are no references never
are. -/
def sameReference : Value → Value → Bool
  | array a, array b | map a, map b | object a, object b => a = b
  | func f, func g => f.id = g.id
  | _, _ => false

end Value

end DecimalScript
