import DecimalScript.Failure.Cause
import DecimalScript.Failure.Location

/-!
# Failures and their reports

A failure is a cause with the location where it arose, once that is known. A report names the
location, shows its line without indentation, and ends with category, code and message.
-/

namespace DecimalScript

/-- The report of a message under a code. -/
def report (code : Code) (message : String) (location : Option Location) : String :=
  let place :=
    match location with
    | none => ""
    | some location =>
      let shown := String.ofList (Text.trimStart location.text.toList)
      "at " ++ location.display ++ "\n" ++
        (if location.text.isEmpty then "" else "    " ++ shown ++ "\n")
  s!"{place}{code.category.text}[{code.text}]: {message}"

/-- Why an evaluation failed, and where. -/
structure Failure where
  cause : Cause
  location : Option Location
  deriving Repr, DecidableEq

namespace Failure

/-- A failure whose location is still to be filled in. -/
def ofCause (cause : Cause) : Failure :=
  { cause, location := none }

/-- The report of a failure. -/
def report (failure : Failure) : String :=
  DecimalScript.report failure.cause.code failure.cause.message failure.location

end Failure

end DecimalScript
