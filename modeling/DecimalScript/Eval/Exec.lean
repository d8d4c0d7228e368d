import DecimalScript.Session.Basic

/-!
# Evaluations

An evaluation takes a session and ends with a value or with a failure, in either case with the
session as it then is, or it runs out of fuel. What has to happen at the end of a step whether or
not the step failed is said with `Exec.afterwards`.
-/

namespace DecimalScript

/-- How an evaluation ended. -/
inductive Outcome (α : Type) where
  | done (value : α) (session : Session)
  | failed (failure : Failure) (session : Session)
  | outOfFuel

/-- An evaluation. -/
def Exec (α : Type) : Type := Session → Outcome α

namespace Exec

variable {α β : Type}

/-- Runs an evaluation. -/
@[inline] def run (x : Exec α) (session : Session) : Outcome α := x session

/-- A value at once. -/
@[inline] protected def pure (value : α) : Exec α :=
  fun session => .done value session

/-- One evaluation after another, if the first one does not fail. -/
@[inline] protected def bind (x : Exec α) (f : α → Exec β) : Exec β :=
  fun session =>
    match x session with
    | .done value session => f value session
    | .failed failure session => .failed failure session
    | .outOfFuel => .outOfFuel

@[always_inline]
instance : Monad Exec where
  pure := Exec.pure
  bind := Exec.bind

/-! ### Reading and changing the session -/

/-- Something that the session tells. -/
@[inline] def read (f : Session → α) : Exec α :=
  fun session => .done (f session) session

/-- Changes the session. -/
@[inline] def modify (f : Session → Session) : Exec Unit :=
  fun session => .done () (f session)

/-- A step on the heap. -/
@[inline] def onHeap (f : Heap → α × Heap) : Exec α :=
  fun session =>
    let (value, heap) := f session.heap
    .done value { session with heap }

/-! ### Failing -/

/-- Runs out of fuel. -/
@[inline] def outOfFuel : Exec α :=
  fun _ => .outOfFuel

/-- Fails; the location is filled in later. -/
@[inline] def fail (cause : Cause) : Exec α :=
  fun session => .failed (.ofCause cause) session

/-- A result that may be a cause to fail. -/
@[inline] def ofExcept : Except Cause α → Exec α
  | .ok value => Exec.pure value
  | .error cause => fail cause

/-- A step on the heap that may fail. -/
@[inline] def tryHeap (f : Heap → Except Cause (α × Heap)) : Exec α :=
  fun session =>
    match f session.heap with
    | .ok (value, heap) => .done value { session with heap }
    | .error cause => .failed (.ofCause cause) session

/-- A step on the scopes that may fail. -/
@[inline] def tryScopes (f : Scopes → Except Cause Scopes) : Exec Unit :=
  fun session =>
    match f session.scopes with
    | .ok scopes => .done () { session with scopes }
    | .error cause => .failed (.ofCause cause) session

/-! ### What happens at the end of a step -/

/-- Changes the session at the end, whether or not the step failed. -/
@[inline] def afterwards (x : Exec α) (f : Session → Session) : Exec α :=
  fun session =>
    match x session with
    | .done value session => .done value (f session)
    | .failed failure session => .failed failure (f session)
    | .outOfFuel => .outOfFuel

/-- Changes the session if the step failed. -/
@[inline] def afterFailure (x : Exec α) (f : Session → Session) : Exec α :=
  fun session =>
    match x session with
    | .failed failure session => .failed failure (f session)
    | other => other

/-- Gives a failure the line of the session as its location unless it already has one. -/
@[inline] def located (x : Exec α) : Exec α :=
  fun session =>
    match x session with
    | .failed failure session => .failed (session.locate failure) session
    | other => other

/-- Records the line of the statement that starts. -/
@[inline] def setLine (line : Nat) : Exec Unit :=
  modify fun session => { session with line }

/-- Runs a step as the statement of a line. A step may move the line on before it fails; the line is
then set back, and a failure without a location gets it. -/
@[inline] def atLine (line : Nat) (x : Exec α) : Exec α :=
  do setLine line; ((x.afterFailure fun session => { session with line }).located)

/-! ### Frames and calls -/

/-- Runs a step in a new frame, which is dropped at its end. -/
@[inline] def inFrame (receiver : Option Value) (x : Exec α) : Exec α := do
  modify fun session => { session with scopes := session.scopes.push receiver }
  x.afterwards fun session => { session with scopes := session.scopes.pop }

/-- Runs a step as a call of the given name. -/
@[inline] def inCall (name : String) (x : Exec α) : Exec α :=
  fun session =>
    match session.calls.push name with
    | .error cause => .failed (.ofCause cause) session
    | .ok calls =>
      -- from here on the name is popped however the step ends
      (x.afterwards fun session => { session with calls := session.calls.pop })
        { session with calls }

/-! ### Running the combinators -/

@[simp] theorem run_pure (value : α) (session : Session) :
    (pure value : Exec α).run session = .done value session := rfl

theorem run_bind (x : Exec α) (f : α → Exec β) (session : Session) :
    (x >>= f).run session =
      match x.run session with
      | .done value session => (f value).run session
      | .failed failure session => .failed failure session
      | .outOfFuel => .outOfFuel := rfl

@[simp] theorem run_read (f : Session → α) (session : Session) :
    (read f).run session = .done (f session) session := rfl

@[simp] theorem run_modify (f : Session → Session) (session : Session) :
    (modify f).run session = .done () (f session) := rfl

@[simp] theorem run_fail (cause : Cause) (session : Session) :
    (fail cause : Exec α).run session = .failed (.ofCause cause) session := rfl

@[simp] theorem run_outOfFuel (session : Session) :
    (outOfFuel : Exec α).run session = .outOfFuel := rfl

theorem run_tryHeap_of_ok {f : Heap → Except Cause (α × Heap)} {value : α} {session : Session}
    {heap : Heap} (h : f session.heap = .ok (value, heap)) :
    (tryHeap f).run session = .done value { session with heap } := by
  simp only [run, tryHeap, h]

theorem run_tryHeap_of_error {f : Heap → Except Cause (α × Heap)} {cause : Cause}
    {session : Session} (h : f session.heap = .error cause) :
    (tryHeap f).run session = .failed (.ofCause cause) session := by
  simp only [run, tryHeap, h]

/-- Two evaluations end with a value if the first does and the second does from there. -/
theorem run_bind_eq_done_iff {x : Exec α} {f : α → Exec β} {s t : Session} {value : β} :
    (x >>= f).run s = .done value t ↔
      ∃ first u, x.run s = .done first u ∧ (f first).run u = .done value t := by
  rw [run_bind]
  cases x.run s with
  | done first u =>
    constructor
    · exact fun h => ⟨first, u, rfl, h⟩
    · rintro ⟨_, _, ⟨⟩, h⟩
      exact h
  | failed failure u => simp
  | outOfFuel => simp

/-- What is done upon failure alone does not show in a value. -/
theorem run_located_eq_done_iff {x : Exec α} {s t : Session} {value : α} :
    x.located.run s = .done value t ↔ x.run s = .done value t := by
  simp only [located, run]
  cases x s <;> simp

theorem run_afterFailure_eq_done_iff {x : Exec α} {f : Session → Session} {s t : Session}
    {value : α} : (x.afterFailure f).run s = .done value t ↔ x.run s = .done value t := by
  simp only [afterFailure, run]
  cases x s <;> simp

theorem run_inFrame_eq_done_iff {x : Exec α} {receiver : Option Value} {s t : Session}
    {value : α} :
    (inFrame receiver x).run s = .done value t ↔
      ∃ u, x.run { s with scopes := s.scopes.push receiver } = .done value u ∧
        t = { u with scopes := u.scopes.pop } := by
  rw [inFrame, run_bind, run_modify]
  simp only [afterwards, run]
  cases x { s with scopes := s.scopes.push receiver } with
  | done first u =>
    constructor
    · rintro ⟨⟩
      exact ⟨u, rfl, rfl⟩
    · rintro ⟨_, ⟨⟩, rfl⟩
      rfl
  | failed failure u => simp
  | outOfFuel => simp

theorem id_map_exec (x : Exec α) : id <$> x = x := by
  funext session
  change (match x session with
    | .done value session => Outcome.done value session
    | .failed failure session => .failed failure session
    | .outOfFuel => .outOfFuel) = x session
  cases x session <;> rfl

theorem bind_assoc_exec {γ : Type} (x : Exec α) (f : α → Exec β) (g : β → Exec γ) :
    x >>= f >>= g = x >>= fun value => f value >>= g := by
  funext session
  change Exec.bind (Exec.bind x f) g session =
    Exec.bind x (fun value => Exec.bind (f value) g) session
  unfold Exec.bind
  cases x session <;> rfl

instance : LawfulMonad Exec :=
  LawfulMonad.mk' Exec id_map_exec (fun _ _ => rfl) bind_assoc_exec

end Exec

end DecimalScript
