import DecimalScript.Syntax.Document

/-!
# Reading syntax trees from plain data

`readProgram?` takes a document to the program that it describes and refuses every other document.
Fields may come in any order and fields of no meaning are passed over; a field may be missing only
if it is optional. A record may also be written as the list of all its fields, and an alternative
without content may carry a null.
-/

namespace DecimalScript

namespace Document

/-- The text, if the document is one. -/
def text? : Document → Option String
  | text s => some s
  | _ => none

/-- The truth value, if the document is one. -/
def flag? : Document → Option Bool
  | flag b => some b
  | _ => none

/-- The items, if the document is a list. -/
def items? : Document → Option (List Document)
  | list items => some items
  | _ => none

/-- The line number, if the document is one; lines have 32 bits. -/
def line? : Document → Option Nat
  | integer n => if 0 ≤ n ∧ n ≤ 4294967295 then some n.toNat else none
  | _ => none

/-- The fields with the given keys, those that are missing included. -/
def named? (keys : List String) : Document → Option (List (Option Document))
  | record fields => some (keys.map fun key => fields.lookup key)
  | _ => none

/-- The fields with the given keys, by name or by position. By position none may be missing. -/
def fields? (keys : List String) : Document → Option (List (Option Document))
  | record fields => some (keys.map fun key => fields.lookup key)
  | list items => if items.length = keys.length then some (items.map some) else none
  | _ => none

/-- The name of an alternative and its content, if it has any. -/
def alternative? : Document → Option (String × Option Document)
  | text name => some (name, none)
  | record [(name, content)] => some (name, some content)
  | _ => none

/-- Whether the content is that of an alternative without content. -/
def isBare : Option Document → Bool
  | none | some null => true
  | _ => false

/-- The alternative without content that the document names. -/
def bare? {α : Type} (d : Document) (named : List (String × α)) : Option α := do
  let (name, content) ← d.alternative?
  if isBare content then named.lookup name else none

/-- An optional part, where null stands for its absence. -/
def optional? {α : Type} (read? : Document → Option α) : Option Document → Option (Option α)
  | none | some null => some none
  | some d => (read? d).map some

/-- The items of a list, each of them read. -/
def each? {α : Type} (read? : Document → Option α) (d : Document) : Option (List α) := do
  (← d.items?).mapM read?

end Document

/-! ### Operators and parameters -/

/-- Reads an operator. -/
def readArithOp? (d : Document) : Option ArithOp :=
  d.bare? [("Add", .add), ("Sub", .sub), ("Mul", .mul), ("Div", .div)]

/-- Reads an operator. -/
def readLogicOp? (d : Document) : Option LogicOp :=
  d.bare? [("And", .and), ("Or", .or), ("Eq", .eq), ("NotEq", .notEq), ("Lt", .lt),
    ("LtEq", .ltEq), ("Gt", .gt), ("GtEq", .gtEq)]

/-- Reads which half of a turn is meant. -/
def readTurnPart? (d : Document) : Option TurnPart :=
  d.bare? [("Index", .index), ("Value", .value)]

/-- Reads the names that each turn binds. -/
def readTurnNames? (d : Document) : Option TurnNames := do
  match ← d.alternative? with
  | ("None", content) => if Document.isBare content then some .none else none
  | ("Value", some v) => return .value (← v.text?)
  | ("KeyValue", some (.list [k, v])) => return .keyValue (← k.text?) (← v.text?)
  | _ => none

/-- Reads a parameter. -/
def readParam? (d : Document) : Option Param := do
  match ← d.fields? ["name", "by_ref"] with
  | [some name, some byRef] => return { name := ← name.text?, byRef := ← byRef.flag? }
  | _ => none

/-! ### Expressions

The number counts down along the depth of the document, which bounds that of the expression. -/

/-- Reads an expression of a document of less than `depth` levels. -/
def readExprWithin? : (depth : Nat) → Document → Option Expr
  | 0, _ => none
  | depth + 1, d => do
    let read? := readExprWithin? depth
    match ← d.alternative? with
    | ("Number", some t) => return .number (← t.text?)
    | ("String", some t) => return .string (← t.text?)
    | ("Array", some items) => return .array (← items.each? read?)
    | ("HashMap", some entries) =>
      return .map (← entries.each? fun
        | .list [key, value] => return (← read? key, ← read? value)
        | _ => none)
    | ("Ident", some name) => return .name (← name.text?)
    | ("This", content) => if Document.isBare content then some .this else none
    | ("CurrentIter", some part) => return .turn (← readTurnPart? part)
    | ("Member", some d) =>
      match ← d.named? ["root", "member"] with
      | [some root, some member] =>
        let root ← read? root
        match ← member.alternative? with
        | ("Property", some name) => return .property root (← name.text?)
        | ("Index", some index) => return .index root (← read? index)
        | _ => none
      | _ => none
    | ("Call", some d) =>
      match ← d.named? ["callee", "args"] with
      | [some callee, some args] => return .call (← read? callee) (← args.each? read?)
      | _ => none
    | ("MethodCall", some d) =>
      match ← d.named? ["root", "method", "args"] with
      | [some root, some name, some args] =>
        return .method (← read? root) (← name.text?) (← args.each? read?)
      | _ => none
    | ("New", some d) =>
      match ← d.named? ["class", "args"] with
      | [some name, some args] => return .construct (← name.text?) (← args.each? read?)
      | _ => none
    | ("Assign", some d) =>
      match ← d.named? ["target", "value", "by_ref"] with
      | [some target, some value, some byRef] =>
        return .assign (← read? target) (← read? value) (← byRef.flag?)
      | _ => none
    | ("Logic", some d) =>
      match ← d.named? ["op", "lhs", "rhs"] with
      | [some op, some left, some right] =>
        return .logic (← readLogicOp? op) (← read? left) (← read? right)
      | _ => none
    | ("Not", some operand) => return .negate (← read? operand)
    | ("Arith", some d) =>
      match ← d.named? ["op", "lhs", "rhs"] with
      | [some op, some left, some right] =>
        return .arith (← readArithOp? op) (← read? left) (← read? right)
      | _ => none
    | _ => none

/-- Reads an expression. -/
def readExpr? (d : Document) : Option Expr :=
  readExprWithin? (d.depth + 1) d

/-! ### Statements -/

/-- Reads an initializer. -/
def readInitializer? (d : Document) : Option Initializer := do
  match ← d.alternative? with
  | ("Assign", some value) => return .mutable (← readExpr? value)
  | ("Const", some value) => return .constant (← readExpr? value)
  | ("New", some d) =>
    match ← d.named? ["class", "args"] with
    | [some name, some args] => return .construct (← name.text?) (← args.each? readExpr?)
    | _ => none
  | _ => none

/-- Reads an instance property. -/
def readProperty? (d : Document) : Option PropertyDecl := do
  match ← d.fields? ["name", "init"] with
  | [some name, some init] => return { name := ← name.text?, init := ← readExpr? init }
  | _ => none

mutual

/-- Reads a block of a document of less than `depth` levels. -/
def readBlockWithin? : (depth : Nat) → Document → Option Block
  | 0, _ => none
  | depth + 1, d => do
    match ← d.fields? ["stmts"] with
    | [some stmts] => stmts.each? (readStmtWithin? depth)
    | _ => none

/-- Reads a statement of a document of less than `depth` levels. -/
def readStmtWithin? : (depth : Nat) → Document → Option Stmt
  | 0, _ => none
  | depth + 1, d => do
    match ← d.fields? ["kind", "line"] with
    | [some kind, some line] =>
      return { kind := ← readKindWithin? depth kind, line := ← line.line? }
    | _ => none

/-- Reads what a statement does from a document of less than `depth` levels. -/
def readKindWithin? : (depth : Nat) → Document → Option StmtKind
  | 0, _ => none
  | depth + 1, d => do
    match ← d.alternative? with
    | ("Expr", some value) => return .evaluate (← readExpr? value)
    | ("VarDeclare", some d) =>
      match ← d.fields? ["names", "init", "by_ref"] with
      | [some names, some init, some byRef] =>
        return .declare (← names.each? Document.text?) (← readInitializer? init) (← byRef.flag?)
      | _ => none
    | ("Branch", some d) =>
      match ← d.fields? ["if_block", "else_ifs", "else_block"] with
      | [some first, some others, otherwise] =>
        return .branch (← readArmWithin? depth first) (← others.each? (readArmWithin? depth))
          (← Document.optional? (readBlockWithin? depth) otherwise)
      | _ => none
    | ("While", some d) =>
      match ← d.named? ["cond", "body"] with
      | [some condition, some body] =>
        return .loop (← readExpr? condition) (← readBlockWithin? depth body)
      | _ => none
    | ("Iterate", some d) =>
      match ← d.fields? ["target", "bindings", "body"] with
      | [some target, some names, some body] =>
        return .iterate (← readExpr? target) (← readTurnNames? names)
          (← readBlockWithin? depth body)
      | _ => none
    | ("Function", some decl) => return .function (← readFunctionWithin? depth decl)
    | ("Class", some decl) => return .classDecl (← readClassWithin? depth decl)
    | ("Return", some value) => return .result (← Document.optional? readExpr? value)
    | ("Break", content) => if Document.isBare content then some .breakLoop else none
    | ("Continue", content) => if Document.isBare content then some .continueLoop else none
    | ("Import", some d) =>
      match ← d.named? ["name", "alias"] with
      | [some name, localName] =>
        return .importName (← name.text?) (← Document.optional? Document.text? localName)
      | _ => none
    | _ => none

/-- Reads a guarded block of a document of less than `depth` levels. -/
def readArmWithin? : (depth : Nat) → Document → Option Arm
  | 0, _ => none
  | depth + 1, d => do
    match ← d.fields? ["cond", "block"] with
    | [some condition, some block] =>
      return { condition := ← readExpr? condition, block := ← readBlockWithin? depth block }
    | _ => none

/-- Reads a function of a document of less than `depth` levels. -/
def readFunctionWithin? : (depth : Nat) → Document → Option FunctionDecl
  | 0, _ => none
  | depth + 1, d => do
    match ← d.fields? ["name", "params", "body"] with
    | [some name, some params, some body] =>
      return { name := ← name.text?, params := ← params.each? readParam?,
               body := ← readBlockWithin? depth body }
    | _ => none

/-- Reads a getter of a document of less than `depth` levels. -/
def readGetterWithin? : (depth : Nat) → Document → Option GetterDecl
  | 0, _ => none
  | depth + 1, d => do
    match ← d.fields? ["name", "body"] with
    | [some name, some body] =>
      return { name := ← name.text?, body := ← readBlockWithin? depth body }
    | _ => none

/-- Reads a class of a document of less than `depth` levels. -/
def readClassWithin? : (depth : Nat) → Document → Option ClassDecl
  | 0, _ => none
  | depth + 1, d => do
    match ← d.fields? ["name", "properties", "constructor", "getters", "methods"] with
    | [some name, some properties, some params, some getters, some methods] =>
      return { name := ← name.text?, properties := ← properties.each? readProperty?,
               params := ← params.each? readParam?,
               getters := ← getters.each? (readGetterWithin? depth),
               methods := ← methods.each? (readFunctionWithin? depth) }
    | _ => none

end

/-- Reads a program: a record of its one block. -/
def readProgram? (d : Document) : Option Block := do
  match ← d.fields? ["block"] with
  | [some block] => readBlockWithin? (d.depth + 1) block
  | _ => none

end DecimalScript
