import DecimalScript.Syntax.Expr

/-!
# Statements and declarations

A program is a block, and a block is a list of statements. Each statement carries the line where it
starts, for the location of a failure. The functions and classes that a block declares are bound
before the rest of it runs.
-/

namespace DecimalScript

/-- A parameter. Unless it is by reference, an argument's arrays and maps are copied. -/
structure Param where
  name : String
  byRef : Bool
  deriving Repr, DecidableEq

/-- Where the value of a declaration comes from. -/
inductive Initializer where
  /-- A variable with the value of an expression. -/
  | mutable (value : Expr)
  /-- A constant with the value of an expression. -/
  | constant (value : Expr)
  /-- A variable with a new instance of a class. -/
  | construct (className : String) (args : List Expr)
  deriving Repr, BEq

/-- The names that each turn of an iteration binds. -/
inductive TurnNames where
  | none
  | value (value : String)
  | keyValue (key value : String)
  deriving Repr, DecidableEq

/-- An instance property with the expression for its first value. -/
structure PropertyDecl where
  name : String
  init : Expr
  deriving Repr, BEq

mutual

/-- A statement. -/
structure Stmt where
  kind : StmtKind
  /-- The line where the statement starts; zero if it has none. -/
  line : Nat

/-- What a statement does. -/
inductive StmtKind where
  /-- Evaluates an expression, whose value becomes the implicit result. -/
  | evaluate (value : Expr)
  /-- Binds one value to each of the names, a copy for each unless it is by reference. -/
  | declare (names : List String) (init : Initializer) (byRef : Bool)
  /-- Runs the first arm whose condition holds, or else the last block. -/
  | branch (first : Arm) (others : List Arm) (otherwise : Option (List Stmt))
  /-- Runs the body as long as the condition holds. -/
  | loop (condition : Expr) (body : List Stmt)
  /-- Runs the body for each element of an array or each entry of a map. -/
  | iterate (target : Expr) (names : TurnNames) (body : List Stmt)
  /-- Declares a function. -/
  | function (decl : FunctionDecl)
  /-- Declares a class. -/
  | classDecl (decl : ClassDecl)
  /-- Ends the function or program with a value, or with null if there is none. -/
  | result (value : Option Expr)
  /-- Ends the enclosing loop. -/
  | breakLoop
  /-- Ends the current turn of the enclosing loop. -/
  | continueLoop
  /-- Binds an imported value, under another name if one is given. -/
  | importName (name : String) (localName : Option String)

/-- A condition and the block that it guards. -/
structure Arm where
  condition : Expr
  block : List Stmt

/-- A function or a method. -/
structure FunctionDecl where
  name : String
  params : List Param
  body : List Stmt

/-- A property that a class computes on every read. -/
structure GetterDecl where
  name : String
  body : List Stmt

/-- A class. -/
structure ClassDecl where
  name : String
  /-- The properties of an instance, in the order in which they get their first values. -/
  properties : List PropertyDecl
  /-- The parameters of the constructor, each of which names the property that it sets. -/
  params : List Param
  getters : List GetterDecl
  methods : List FunctionDecl

end

deriving instance Repr, BEq for Stmt, StmtKind, Arm, FunctionDecl, GetterDecl, ClassDecl

/-- A list of statements. -/
abbrev Block := List Stmt

namespace Stmt

/-- Whether the statement declares a function or a class and so is bound ahead of its block. -/
def isHoisted (stmt : Stmt) : Bool :=
  match stmt.kind with
  | .function _ | .classDecl _ => true
  | _ => false

end Stmt

namespace GetterDecl

/-- A getter as a function without parameters. -/
def asFunction (getter : GetterDecl) : FunctionDecl :=
  { name := getter.name, params := [], body := getter.body }

end GetterDecl

namespace ClassDecl

/-- The getter of this name; of two, the later one. -/
def getter? (decl : ClassDecl) (name : String) : Option FunctionDecl :=
  (decl.getters.reverse.find? (·.name == name)).map GetterDecl.asFunction

/-- The method of this name; of two, the later one. -/
def method? (decl : ClassDecl) (name : String) : Option FunctionDecl :=
  decl.methods.reverse.find? (·.name == name)

end ClassDecl

end DecimalScript
