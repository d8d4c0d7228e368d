import DecimalScript.Syntax.Shape

/-!
# Syntax trees as plain data

A document is data without names for its nodes: texts, numbers, lists and records. A record node is
a record of its fields. An alternative is its name alone, or a record with its name as the only key
and its content as the value.
-/

namespace DecimalScript

/-- Plain data. -/
inductive Document where
  | null
  | flag (b : Bool)
  | integer (n : Int)
  /-- A number that is no integer. -/
  | fraction
  | text (text : String)
  | list (items : List Document)
  | record (fields : List (String × Document))
  deriving Inhabited, Repr

namespace Document

mutual

/-- How many levels of lists and records the document has. -/
def depth : Document → Nat
  | list items => depthOfItems items + 1
  | record fields => depthOfFields fields + 1
  | _ => 0

/-- The greatest depth among the items. -/
def depthOfItems : List Document → Nat
  | [] => 0
  | d :: rest => max (depth d) (depthOfItems rest)

/-- The greatest depth among the fields. -/
def depthOfFields : List (String × Document) → Nat
  | [] => 0
  | (_, d) :: rest => max (depth d) (depthOfFields rest)

end

end Document

namespace Shape

mutual

/-- The shape as plain data. -/
def document : Shape → Document
  | text s => .text s
  | nat n => .integer n
  | flag b => .flag b
  | list items => .list (documents items)
  | pair a b => .list [document a, document b]
  | absent => .null
  | present s => document s
  | record _ fields => .record (fieldDocuments fields)
  | bare name => .text name
  | tuple name [item] => .record [(name, document item)]
  | tuple name items => .record [(name, .list (documents items))]
  | variant name fields => .record [(name, .record (fieldDocuments fields))]
  | stmt kind line => .record [("kind", document kind), ("line", .integer line)]

/-- The shapes as plain data. -/
def documents : List Shape → List Document
  | [] => []
  | s :: rest => document s :: documents rest

/-- The fields as plain data. -/
def fieldDocuments : List (String × Shape) → List (String × Document)
  | [] => []
  | (key, s) :: rest => (key, document s) :: fieldDocuments rest

end

end Shape

end DecimalScript
