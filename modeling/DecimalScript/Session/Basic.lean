import DecimalScript.Failure.Report
import DecimalScript.Heap.Basic
import DecimalScript.Scope.Basic
import DecimalScript.Scope.CallStack

/-!
# Sessions

All that an evaluation reads and changes. A session outlives the programs that run in it: what they
bind in the root frame is there for the next one.

The globals and the imports are the values that a host hands to a session. They may be any values of
the language, functions and classes that earlier programs declared among them; only the native
functions that a host makes itself are no values here (`Native`).
-/

namespace DecimalScript

/-- Where printed lines go: into a text that can be read back, or nowhere. -/
inductive Sink where
  | buffer (text : String)
  | silent
  deriving Repr, DecidableEq

namespace Sink

/-- Prints a line. -/
def println (sink : Sink) (line : String) : Sink :=
  match sink with
  | buffer text => buffer (text ++ line ++ "\n")
  | silent => silent

/-- What was printed and can be read back. -/
def output : Sink → String
  | buffer text => text
  | silent => ""

/-- Forgets what was printed. -/
def clear : Sink → Sink
  | buffer _ => buffer ""
  | silent => silent

end Sink

/-- The state of a session. -/
structure Session where
  heap : Heap
  scopes : Scopes
  calls : CallStack
  /-- The values that programs can import. -/
  imports : Entries Value
  sink : Sink
  /-- The tagged values that were probed, oldest first. -/
  probes : Array (String × Value)
  /-- The file name for programs that bring none. -/
  defaultFile : Option String
  /-- The file name of the program that runs. -/
  file : Option String
  /-- The source text of the program that runs. -/
  source : Option String
  /-- The line of the statement that started last. -/
  line : Nat

namespace Session

/-- How many nested calls a session allows unless it is told otherwise. -/
def defaultCallLimit : Nat := 1024

/-- A session in which nothing has run yet. -/
def fresh (heap : Heap) (globals : Entries Value) : Session where
  heap := heap
  scopes := .ofGlobals globals
  calls := .ofLimit (some defaultCallLimit)
  imports := .empty
  sink := .buffer ""
  probes := #[]
  defaultFile := none
  file := none
  source := none
  line := 0

instance : Inhabited Session := ⟨fresh .empty .empty⟩

/-- Gives a failure the current line as its location unless it already has one. -/
def locate (session : Session) (failure : Failure) : Failure :=
  match failure.location with
  | some _ => failure
  | none =>
    { failure with location := some (.atLine session.file session.line session.source) }

/-- The values that were probed under a tag, oldest first. -/
def probed (session : Session) (tag : String) : List Value :=
  (session.probes.toList.filter fun probe => probe.1 == tag).map (·.2)

/-! ### Locations of failures -/

theorem cause_locate (session : Session) (failure : Failure) :
    (session.locate failure).cause = failure.cause := by
  unfold locate
  split <;> rfl

/-- The location that a failure got first stays. -/
theorem locate_of_location {failure : Failure} {location : Location}
    (h : failure.location = some location) (session : Session) :
    session.locate failure = failure := by
  simp [locate, h]

end Session

end DecimalScript
