import DecimalScript.Failure.Cause
import DecimalScript.Value.Basic
import DecimalScript.Value.Entries

/-!
# Scopes

The frames in which names are bound. A frame is pushed where a call, a branch or a turn of a loop
begins and popped where it ends; each frame knows its parent, which for a call is the frame of the
caller. A name is looked up among the global names first and then from the current frame outwards.
Global names can be neither bound nor assigned to.
-/

namespace DecimalScript

/-- What a name is bound to, and whether that may change. -/
structure Binding where
  value : Value
  constant : Bool
  deriving Repr

/-- One frame of bindings. -/
structure Frame where
  /-- The enclosing frame; the root has none. -/
  parent : Option Nat
  bindings : Entries Binding
  classes : Entries ClassDecl
  /-- The receiver of the method or getter that runs in the frame. -/
  receiver : Option Value
  /-- The value of the last expression statement, the implicit result of a body. -/
  result : Option Value
  /-- The index and the value of the turn of a loop that runs in the frame. -/
  turn : Option (Value × Value)
  deriving Repr

namespace Frame

/-- A frame that binds nothing. -/
def fresh (parent : Option Nat) (receiver : Option Value) : Frame :=
  { parent, bindings := .empty, classes := .empty, receiver, result := none, turn := none }

instance : Inhabited Frame := ⟨fresh none none⟩

end Frame

/-- The global names, which no frame may bind, and the frames, of which one is current. -/
structure Scopes where
  globals : Entries Value
  frames : Array Frame
  current : Nat
  deriving Repr

namespace Scopes

/-- The root frame alone. -/
def ofGlobals (globals : Entries Value) : Scopes :=
  { globals, frames := #[.fresh none none], current := 0 }

instance : Inhabited Scopes := ⟨ofGlobals .empty⟩

/-- How many frames there are. -/
def depth (scopes : Scopes) : Nat := scopes.frames.size

/-- The parent of a frame; none for the root and for what is no frame. -/
def parent? (scopes : Scopes) (id : Nat) : Option Nat :=
  (scopes.frames[id]?).bind (·.parent)

/-- Changes the current frame. -/
def modifyCurrent (scopes : Scopes) (f : Frame → Frame) : Scopes :=
  { scopes with frames := scopes.frames.modify scopes.current f }

/-! ### Frames -/

/-- Makes a new frame inside the current one the current one. -/
def push (scopes : Scopes) (receiver : Option Value) : Scopes :=
  { scopes with
    frames := scopes.frames.push (.fresh (some scopes.current) receiver)
    current := scopes.frames.size }

/-- Drops the last frame and goes back to its parent, to which its implicit result passes if it has
one. The root stays. -/
def pop (scopes : Scopes) : Scopes :=
  if scopes.frames.size ≤ 1 then scopes
  else
    match scopes.frames.back? with
    | none => scopes
    | some frame =>
      let scopes := { scopes with frames := scopes.frames.pop, current := frame.parent.getD 0 }
      -- the value that was evaluated last inside the frame is the last one around it too
      match frame.result with
      | none => scopes
      | some value => scopes.modifyCurrent fun parent => { parent with result := some value }

/-- Drops all frames but the root, whose bindings stay. -/
def unwind (scopes : Scopes) : Scopes :=
  { scopes with
    frames := (scopes.frames.take 1).modify 0 fun root => { root with result := none, turn := none }
    current := 0 }

/-! ### Looking up -/

/-- The first answer from the frame `id` outwards, within the given number of steps. -/
def searchFrom {α : Type} (scopes : Scopes) (pick : Nat → Frame → Option α) :
    (steps : Nat) → (id : Option Nat) → Option α
  | 0, _ => none
  | _ + 1, none => none
  | steps + 1, some id =>
    match scopes.frames[id]? with
    | none => none
    | some frame =>
      match pick id frame with
      | some found => some found
      | none => scopes.searchFrom pick steps frame.parent

/-- The first answer from the current frame outwards. -/
def search {α : Type} (scopes : Scopes) (pick : Nat → Frame → Option α) : Option α :=
  scopes.searchFrom pick scopes.frames.size (some scopes.current)

/-- What a name is bound to. -/
def find (scopes : Scopes) (name : String) : Except Cause Value :=
  match scopes.globals.get? name with
  | some value => .ok value
  | none =>
    -- from here on frames count, the innermost first
    match scopes.search fun _ frame => frame.bindings.get? name with
    | some binding => .ok binding.value
    | none => .error (.undefinedName name)

/-- The class of a name. -/
def findClass (scopes : Scopes) (name : String) : Except Cause ClassDecl :=
  match scopes.search fun _ frame => frame.classes.get? name with
  | some decl => .ok decl
  | none => .error (.undefinedName name)

/-- The nearest receiver. -/
def receiver? (scopes : Scopes) : Option Value :=
  scopes.search fun _ frame => frame.receiver

/-- The index and the value of the nearest turn of a loop. -/
def turn? (scopes : Scopes) : Option (Value × Value) :=
  scopes.search fun _ frame => frame.turn

/-! ### Binding and assigning -/

/-- Binds a name in the current frame. -/
def bind (scopes : Scopes) (name : String) (value : Value) (constant : Bool) :
    Except Cause Scopes :=
  if scopes.globals.contains name then .error (.redeclaredName name)
  -- a name of an outer frame may be bound again
  else if ((scopes.frames[scopes.current]?).any (·.bindings.contains name)) then
    .error (.redeclaredName name)
  else
    .ok (scopes.modifyCurrent fun frame =>
      { frame with bindings := frame.bindings.insert name { value, constant } })

/-- Binds a class in the current frame. -/
def bindClass (scopes : Scopes) (decl : ClassDecl) : Except Cause Scopes :=
  if scopes.globals.contains decl.name then .error (.redeclaredName decl.name)
  else if ((scopes.frames[scopes.current]?).any (·.classes.contains decl.name)) then
    .error (.redeclaredName decl.name)
  else
    .ok (scopes.modifyCurrent fun frame =>
      { frame with classes := frame.classes.insert decl.name decl })

/-- Assigns to a name in the nearest frame that binds it. -/
def assign (scopes : Scopes) (name : String) (value : Value) : Except Cause Scopes :=
  if scopes.globals.contains name then .error (.assignedConstant name)
  else
    match scopes.search fun id frame => (frame.bindings.get? name).map fun b => (id, b) with
    | none => .error (.undefinedName name)
    | some (id, binding) =>
      if binding.constant then .error (.assignedConstant name)
      else
        .ok { scopes with
          frames := scopes.frames.modify id fun frame =>
            { frame with bindings := frame.bindings.insert name { binding with value } } }

/-! ### Slots of the current frame -/

/-- Sets the turn of a loop that runs in the current frame. -/
def setTurn (scopes : Scopes) (index value : Value) : Scopes :=
  scopes.modifyCurrent fun frame => { frame with turn := some (index, value) }

/-- Sets the implicit result. -/
def setResult (scopes : Scopes) (value : Value) : Scopes :=
  scopes.modifyCurrent fun frame => { frame with result := some value }

/-- The implicit result, and the scopes without it. -/
def takeResult (scopes : Scopes) : Option Value × Scopes :=
  ((scopes.frames[scopes.current]?).bind (·.result),
    scopes.modifyCurrent fun frame => { frame with result := none })

/-! ### How many frames there are -/

@[simp] theorem depth_modifyCurrent (scopes : Scopes) (f : Frame → Frame) :
    (scopes.modifyCurrent f).depth = scopes.depth := by
  simp [depth, modifyCurrent]

@[simp] theorem depth_push (scopes : Scopes) (receiver : Option Value) :
    (scopes.push receiver).depth = scopes.depth + 1 := by
  simp [depth, push]

/-- A new frame is the last one. -/
theorem current_push (scopes : Scopes) (receiver : Option Value) :
    (scopes.push receiver).current = scopes.depth := rfl

/-- Of two frames or more the last one goes; a root alone stays. -/
theorem depth_pop (scopes : Scopes) :
    scopes.pop.depth = if scopes.depth ≤ 1 then scopes.depth else scopes.depth - 1 := by
  by_cases h : scopes.frames.size ≤ 1
  · simp [pop, depth, h]
  · have hsome : scopes.frames.back? ≠ none := by
      simp only [ne_eq, Array.back?_eq_none_iff]
      intro hempty
      simp [hempty] at h
    obtain ⟨frame, hframe⟩ := Option.ne_none_iff_exists'.1 hsome
    cases hresult : frame.result <;>
      simp [pop, depth, modifyCurrent, h, hframe, hresult]

end Scopes

end DecimalScript
