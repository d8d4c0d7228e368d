import DecimalScript.Eval.Run
import DecimalScript.Scope.Globals
import DecimalScript.Syntax.Reading
import DecimalScript.Proofs.Eval.Restoration
import DecimalScript.Proofs.Decimal.Range
import DecimalScript.Proofs.Decimal.ReadBack
import DecimalScript.Proofs.Heap.Bisimulation
import DecimalScript.Proofs.Decimal.Loss
import DecimalScript.Proofs.Eval.Limit
import DecimalScript.Proofs.Eval.Log
import DecimalScript.Proofs.Scope.Implicit
import DecimalScript.Proofs.Eval.ImplicitResult
import DecimalScript.Proofs.Heap.Realm
import DecimalScript.Proofs.Scope.Realm
import DecimalScript.Proofs.Eval.Realm
import DecimalScript.Proofs.Eval.Reach
import DecimalScript.Proofs.Syntax.LoopFree
import DecimalScript.Proofs.Eval.Termination
import DecimalScript.Proofs.Syntax.Interrupts
import DecimalScript.Proofs.Eval.Interrupts
import DecimalScript.Proofs.Scope.Refinement
import DecimalScript.Proofs.Eval.Globals
import DecimalScript.Proofs.Eval.Location
import DecimalScript.Proofs.Eval.Origin
import DecimalScript.Proofs.Decimal.Division
import DecimalScript.Proofs.Decimal.Grammar
import DecimalScript.Proofs.Heap.Copy
import DecimalScript.Proofs.Decimal.Order
import DecimalScript.Proofs.Decimal.SameText
import DecimalScript.Proofs.Decimal.Whole
import DecimalScript.Proofs.Eval.Comparison
import DecimalScript.Proofs.Eval.Keys
import DecimalScript.Proofs.Eval.Positions
import DecimalScript.Proofs.Eval.Folds
import DecimalScript.Proofs.Decimal.NormalForm
import DecimalScript.Proofs.Decimal.Sum
import DecimalScript.Proofs.Eval.Sums
import DecimalScript.Proofs.Value.History
import DecimalScript.Proofs.Eval.Dictionary
import DecimalScript.Proofs.Eval.Slots
import DecimalScript.Proofs.Text.Quoted
import DecimalScript.Proofs.Heap.Inspect
import DecimalScript.Proofs.Scope.Names
import DecimalScript.Proofs.Eval.Declaration
import DecimalScript.Proofs.Eval.Collections
import DecimalScript.Proofs.Eval.Growth
import DecimalScript.Proofs.Eval.Construction
import DecimalScript.Proofs.Decimal.Shift
