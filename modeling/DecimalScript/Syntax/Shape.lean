import DecimalScript.Syntax.Stmt
import DecimalScript.Text.Quoted

/-!
# Shapes of syntax trees

A shape is a syntax tree with its node names and field names spelled out, apart from any format.
`Shape.outline` writes it on one line for a reader; `Shape.document` (in `Syntax.Document`) turns it
into plain data. Blocks and statements, which have a written form of their own, are shapes of their
own too.
-/

namespace DecimalScript

/-- A tree of named nodes. -/
inductive Shape where
  | text (text : String)
  | nat (n : Nat)
  | flag (b : Bool)
  | list (items : List Shape)
  | pair (first second : Shape)
  | absent
  | present (shape : Shape)
  /-- A node that always has these fields. -/
  | record (name : String) (fields : List (String × Shape))
  /-- One of several alternatives, with no content. -/
  | bare (name : String)
  /-- One of several alternatives, with content by position. -/
  | tuple (name : String) (items : List Shape)
  /-- One of several alternatives, with content by name. -/
  | variant (name : String) (fields : List (String × Shape))
  /-- A statement. -/
  | stmt (kind : Shape) (line : Nat)
  deriving Inhabited

namespace Shape

mutual

/-- The shape on one line. -/
def outline : Shape → String
  | text s => Text.quoted s
  | nat n => toString n
  | flag b => toString b
  | list items => "[" ++ outlineItems items ++ "]"
  | pair a b => "(" ++ outline a ++ ", " ++ outline b ++ ")"
  | absent => "None"
  | present s => "Some(" ++ outline s ++ ")"
  | record name fields => name ++ " \x7b " ++ outlineFields fields ++ " \x7d"
  | bare name => name
  | tuple name items => name ++ "(" ++ outlineItems items ++ ")"
  | variant name fields => name ++ " \x7b " ++ outlineFields fields ++ " \x7d"
  | stmt kind line => outline kind ++ " @ line " ++ toString line

/-- The shapes on one line, with commas between them. -/
def outlineItems : List Shape → String
  | [] => ""
  | [s] => outline s
  | s :: rest => outline s ++ ", " ++ outlineItems rest

/-- The fields on one line, with commas between them. -/
def outlineFields : List (String × Shape) → String
  | [] => ""
  | [(key, s)] => key ++ ": " ++ outline s
  | (key, s) :: rest => key ++ ": " ++ outline s ++ ", " ++ outlineFields rest

end

/-- The shape of an optional part. -/
def ofOption : Option Shape → Shape
  | some s => present s
  | none => absent

/-- The shape of a list of texts. -/
def texts (ts : List String) : Shape :=
  list (ts.map text)

end Shape

/-! ### Operators and parameters -/

/-- The name of the operator's node. -/
def ArithOp.shape : ArithOp → Shape
  | add => .bare "Add"
  | sub => .bare "Sub"
  | mul => .bare "Mul"
  | div => .bare "Div"

/-- The name of the operator's node. -/
def LogicOp.shape : LogicOp → Shape
  | and => .bare "And"
  | or => .bare "Or"
  | eq => .bare "Eq"
  | notEq => .bare "NotEq"
  | lt => .bare "Lt"
  | ltEq => .bare "LtEq"
  | gt => .bare "Gt"
  | gtEq => .bare "GtEq"

/-- The name of the node. -/
def TurnPart.shape : TurnPart → Shape
  | index => .bare "Index"
  | value => .bare "Value"

/-- The shape of the names bound on each turn. -/
def TurnNames.shape : TurnNames → Shape
  | none => .bare "None"
  | value v => .tuple "Value" [.text v]
  | keyValue k v => .tuple "KeyValue" [.text k, .text v]

/-- The shape of a parameter. -/
def Param.shape (param : Param) : Shape :=
  .record "Param" [("name", .text param.name), ("by_ref", .flag param.byRef)]

/-! ### Expressions -/

mutual

/-- The shape of an expression. -/
def Expr.shape : Expr → Shape
  | .number text => .tuple "Number" [.text text]
  | .string text => .tuple "String" [.text text]
  | .array items => .tuple "Array" [.list (exprShapes items)]
  | .map entries => .tuple "HashMap" [.list (entryShapes entries)]
  | .name n => .tuple "Ident" [.text n]
  | .this => .bare "This"
  | .turn part => .tuple "CurrentIter" [part.shape]
  | .property root name =>
    .variant "Member" [("root", root.shape), ("member", .tuple "Property" [.text name])]
  | .index root index =>
    .variant "Member" [("root", root.shape), ("member", .tuple "Index" [index.shape])]
  | .call callee args =>
    .variant "Call" [("callee", callee.shape), ("args", .list (exprShapes args))]
  | .method root name args =>
    .variant "MethodCall"
      [("root", root.shape), ("method", .text name), ("args", .list (exprShapes args))]
  | .construct className args =>
    .variant "New" [("class", .text className), ("args", .list (exprShapes args))]
  | .assign target value byRef =>
    .variant "Assign" [("target", target.shape), ("value", value.shape), ("by_ref", .flag byRef)]
  | .logic op left right =>
    .variant "Logic" [("op", op.shape), ("lhs", left.shape), ("rhs", right.shape)]
  | .negate operand => .tuple "Not" [operand.shape]
  | .arith op left right =>
    .variant "Arith" [("op", op.shape), ("lhs", left.shape), ("rhs", right.shape)]

/-- The shapes of the expressions. -/
def exprShapes : List Expr → List Shape
  | [] => []
  | e :: rest => e.shape :: exprShapes rest

/-- The shapes of the entries of a map. -/
def entryShapes : List (Expr × Expr) → List Shape
  | [] => []
  | (key, value) :: rest => .pair key.shape value.shape :: entryShapes rest

end

/-! ### Statements -/

/-- The shape of an initializer. -/
def Initializer.shape : Initializer → Shape
  | mutable value => .tuple "Assign" [value.shape]
  | constant value => .tuple "Const" [value.shape]
  | construct className args =>
    .variant "New" [("class", .text className), ("args", .list (exprShapes args))]

/-- The shape of an instance property. -/
def PropertyDecl.shape (decl : PropertyDecl) : Shape :=
  .record "PropertyDecl" [("name", .text decl.name), ("init", decl.init.shape)]

/-- The shape of a block with the given statements. -/
def blockShape (stmts : List Shape) : Shape :=
  .record "Block" [("stmts", .list stmts)]

mutual

/-- The shape of a statement. -/
def Stmt.shape : Stmt → Shape
  | ⟨kind, line⟩ => .stmt kind.shape line

/-- The shape of what a statement does. -/
def StmtKind.shape : StmtKind → Shape
  | .evaluate value => .tuple "Expr" [value.shape]
  | .declare names init byRef =>
    .tuple "VarDeclare" [.record "VarDeclare"
      [("names", .texts names), ("init", init.shape), ("by_ref", .flag byRef)]]
  | .branch first others otherwise =>
    .tuple "Branch" [.record "Branch"
      [("if_block", first.shape), ("else_ifs", .list (armShapes others)),
       ("else_block", otherwiseShape otherwise)]]
  | .loop condition body =>
    .variant "While" [("cond", condition.shape), ("body", blockShape (stmtShapes body))]
  | .iterate target names body =>
    .tuple "Iterate" [.record "Iterate"
      [("target", target.shape), ("bindings", names.shape),
       ("body", blockShape (stmtShapes body))]]
  | .function decl => .tuple "Function" [decl.shape]
  | .classDecl decl => .tuple "Class" [decl.shape]
  | .result value => .tuple "Return" [.ofOption (value.map Expr.shape)]
  | .breakLoop => .bare "Break"
  | .continueLoop => .bare "Continue"
  | .importName name localName =>
    .variant "Import" [("name", .text name), ("alias", .ofOption (localName.map .text))]

/-- The shape of a guarded block. -/
def Arm.shape : Arm → Shape
  | ⟨condition, block⟩ =>
    .record "CondBlock" [("cond", condition.shape), ("block", blockShape (stmtShapes block))]

/-- The shape of a function. -/
def FunctionDecl.shape : FunctionDecl → Shape
  | ⟨name, params, body⟩ =>
    .record "FunctionDecl"
      [("name", .text name), ("params", .list (params.map Param.shape)),
       ("body", blockShape (stmtShapes body))]

/-- The shape of a getter. -/
def GetterDecl.shape : GetterDecl → Shape
  | ⟨name, body⟩ =>
    .record "GetterDecl" [("name", .text name), ("body", blockShape (stmtShapes body))]

/-- The shape of a class. -/
def ClassDecl.shape : ClassDecl → Shape
  | ⟨name, properties, params, getters, methods⟩ =>
    .record "ClassDecl"
      [("name", .text name), ("properties", .list (properties.map PropertyDecl.shape)),
       ("constructor", .list (params.map Param.shape)), ("getters", .list (getterShapes getters)),
       ("methods", .list (functionShapes methods))]

/-- The shapes of the statements. -/
def stmtShapes : List Stmt → List Shape
  | [] => []
  | stmt :: rest => stmt.shape :: stmtShapes rest

/-- The shapes of the guarded blocks. -/
def armShapes : List Arm → List Shape
  | [] => []
  | arm :: rest => arm.shape :: armShapes rest

/-- The shape of the block that runs where no condition holds. -/
def otherwiseShape : Option (List Stmt) → Shape
  | none => .absent
  | some block => .present (blockShape (stmtShapes block))

/-- The shapes of the getters. -/
def getterShapes : List GetterDecl → List Shape
  | [] => []
  | getter :: rest => getter.shape :: getterShapes rest

/-- The shapes of the functions. -/
def functionShapes : List FunctionDecl → List Shape
  | [] => []
  | decl :: rest => decl.shape :: functionShapes rest

end

/-- The shape of a program. -/
def programShape (program : Block) : Shape :=
  .record "Program" [("block", blockShape (stmtShapes program))]

end DecimalScript
