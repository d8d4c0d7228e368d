import DecimalScript.Proofs.Scope.Environment
import DecimalScript.Proofs.Scope.Kept

/-!
# Global names in the frames

A lookup asks the table of global names before any frame, so a frame that bound a global name would
hide the binding, not the global. `Scopes.Uncaptured` says that there is no such frame, neither for
names nor for classes. Two operations bind, and both ask the table first; an assignment only gives
another value to what is bound already, and that is no global name either.
-/

namespace DecimalScript

/-- The frame binds no global name, neither to a value nor to a class. -/
def Frame.Clear (globals : Entries Value) (frame : Frame) : Prop :=
  ∀ name, globals.contains name = true →
    frame.bindings.get? name = none ∧ frame.classes.get? name = none

/-- No frame binds a global name. -/
def Scopes.Uncaptured (scopes : Scopes) : Prop :=
  ∀ (id : Nat) (frame : Frame), scopes.frames[id]? = some frame → frame.Clear scopes.globals

variable {globals : Entries Value} {frame : Frame}

theorem Frame.clear_fresh (parent : Option Nat) (receiver : Option Value) :
    (Frame.fresh parent receiver).Clear globals :=
  fun _ _ => ⟨rfl, rfl⟩

theorem Frame.Clear.bind (h : frame.Clear globals) {name : String}
    (hname : globals.contains name = false) (binding : Binding) :
    ({ frame with bindings := frame.bindings.insert name binding } : Frame).Clear globals := by
  intro other hother
  -- the name is no global, so it is another one than the global that is asked for
  have hne : other ≠ name := by
    rintro rfl
    rw [hname] at hother
    cases hother
  refine ⟨?_, (h other hother).2⟩
  change (frame.bindings.insert name binding).get? other = none
  rw [Entries.get?_insert, if_neg hne]
  exact (h other hother).1

theorem Frame.Clear.bindClass (h : frame.Clear globals) {decl : ClassDecl}
    (hname : globals.contains decl.name = false) :
    ({ frame with classes := frame.classes.insert decl.name decl } : Frame).Clear globals := by
  intro other hother
  have hne : other ≠ decl.name := by
    rintro rfl
    rw [hname] at hother
    cases hother
  refine ⟨(h other hother).1, ?_⟩
  change (frame.classes.insert decl.name decl).get? other = none
  rw [Entries.get?_insert, if_neg hne]
  exact (h other hother).2

namespace Scopes

variable {s t : Scopes}

theorem uncaptured_ofGlobals (globals : Entries Value) : (ofGlobals globals).Uncaptured := by
  intro id frame hframe
  cases id with
  | zero =>
    cases hframe
    exact Frame.clear_fresh none none
  | succ id => cases hframe

/-! ### Each operation -/

/-- A change of one frame that binds no global name there. -/
theorem Uncaptured.modify (h : s.Uncaptured) (id : Nat) {update : Frame → Frame}
    (hupdate : ∀ frame : Frame, frame.Clear s.globals → (update frame).Clear s.globals) :
    ({ s with frames := s.frames.modify id update } : Scopes).Uncaptured := by
  intro other frame hframe
  -- a frame was changed or it is as before
  rw [Array.getElem?_modify] at hframe
  split at hframe
  · obtain ⟨before, hbefore, rfl⟩ := Option.map_eq_some_iff.1 hframe
    exact hupdate before (h other before hbefore)
  · exact h other frame hframe

theorem Uncaptured.push (h : s.Uncaptured) (receiver : Option Value) :
    (s.push receiver).Uncaptured := by
  intro id frame hframe
  rw [Scopes.push, Array.getElem?_push] at hframe
  split at hframe
  · cases hframe
    exact Frame.clear_fresh _ receiver
  · exact h id frame hframe

/-- Some of the frames, whichever of them is current. -/
theorem Uncaptured.of_subset (h : s.Uncaptured) {frames : Array Frame} (current : Nat)
    (hsubset : ∀ (id : Nat) (frame : Frame), frames[id]? = some frame →
      s.frames[id]? = some frame) :
    ({ s with frames, current } : Scopes).Uncaptured :=
  fun id frame hframe => h id frame (hsubset id frame hframe)

theorem Uncaptured.pop (h : s.Uncaptured) : s.pop.Uncaptured := by
  -- to drop a frame captures nothing
  have hdropped : ∀ current, ({ s with frames := s.frames.pop, current } : Scopes).Uncaptured := by
    refine fun current => h.of_subset current fun id frame hframe => ?_
    rw [Array.getElem?_pop] at hframe
    split at hframe
    · exact hframe
    · cases hframe
  unfold Scopes.pop
  split
  · exact h
  · split
    · exact h
    · dsimp only
      split
      · exact hdropped _
      · -- the implicit result that passes on is bound to no name
        exact (hdropped _).modify _ fun _ hframe => hframe

theorem Uncaptured.unwind (h : s.Uncaptured) : s.unwind.Uncaptured := by
  -- the root frame alone captures nothing, and clearing it binds no name
  have hroot : ({ s with frames := s.frames.take 1, current := 0 } : Scopes).Uncaptured := by
    refine h.of_subset 0 fun id frame hframe => ?_
    rw [Array.take_eq_extract, Array.getElem?_extract] at hframe
    split at hframe
    · simpa using hframe
    · cases hframe
  exact hroot.modify 0 fun _ hframe => hframe

theorem Uncaptured.of_bind (h : s.Uncaptured) {name : String} {value : Value} {constant : Bool}
    (hbind : s.bind name value constant = .ok t) : t.Uncaptured := by
  -- a global is refused before anything is bound
  simp only [Scopes.bind] at hbind
  split at hbind
  · cases hbind
  · next hglobal =>
    split at hbind
    · cases hbind
    · cases hbind
      exact h.modify s.current fun frame hframe => hframe.bind (by simpa using hglobal) _

theorem Uncaptured.of_bindClass (h : s.Uncaptured) {decl : ClassDecl}
    (hbind : s.bindClass decl = .ok t) : t.Uncaptured := by
  simp only [Scopes.bindClass] at hbind
  split at hbind
  · cases hbind
  · next hglobal =>
    split at hbind
    · cases hbind
    · cases hbind
      exact h.modify s.current fun frame hframe => hframe.bindClass (by simpa using hglobal)

theorem Uncaptured.of_assign (h : s.Uncaptured) {name : String} {value : Value}
    (hassign : s.assign name value = .ok t) : t.Uncaptured := by
  -- what is assigned was bound already, and it is no global
  simp only [Scopes.assign] at hassign
  split at hassign
  · cases hassign
  · next hglobal =>
    split at hassign
    · cases hassign
    · split at hassign
      · cases hassign
      · cases hassign
        exact h.modify _ fun frame hframe => hframe.bind (by simpa using hglobal) _

/-- **Every operation leaves the global names alone.** -/
theorem Uncaptured.step (h : s.Uncaptured) (op : ScopeOp) : (s.step op).2.Uncaptured := by
  cases op with
  | push receiver => exact h.push receiver
  | pop => exact h.pop
  | unwind => exact h.unwind
  | bind name value constant => exact tried_induction h fun _ hok => h.of_bind hok
  | assign name value => exact tried_induction h fun _ hok => h.of_assign hok
  | bindClass decl => exact tried_induction h fun _ hok => h.of_bindClass hok
  -- the slots of a frame are no names
  | setTurn index value => exact h.modify s.current fun _ hframe => hframe
  | setResult value => exact h.modify s.current fun _ hframe => hframe
  | takeResult => exact h.modify s.current fun _ hframe => hframe

theorem globals_pop (s : Scopes) : s.pop.globals = s.globals := by
  unfold Scopes.pop
  split
  · rfl
  · split
    · rfl
    · dsimp only
      split <;> rfl

/-- The table of global names is never written. -/
theorem globals_step (s : Scopes) (op : ScopeOp) : (s.step op).2.globals = s.globals := by
  -- the table is the same in every operation, for it is no part of a frame
  cases op with
  | push | unwind | setTurn | setResult | takeResult => rfl
  | pop => exact globals_pop s
  | bind name value constant =>
    exact tried_induction (p := fun t => t.globals = s.globals) rfl fun _ hok =>
      (kept_bind hok).globals
  | assign name value =>
    exact tried_induction (p := fun t => t.globals = s.globals) rfl
      fun _ hok => (kept_assign hok).globals
  | bindClass decl =>
    exact tried_induction (p := fun t => t.globals = s.globals) rfl
      fun _ hok => (kept_bindClass hok).globals

/-! ### Global names cannot be bound or assigned to -/

theorem find_of_global {name : String} {value : Value} (h : s.globals.get? name = some value) :
    s.find name = .ok value := by
  rw [find, h]

theorem bind_of_global {name : String} (h : s.globals.contains name = true) (value : Value)
    (constant : Bool) : s.bind name value constant = .error (.redeclaredName name) := by
  rw [bind, if_pos h]

theorem bindClass_of_global {decl : ClassDecl} (h : s.globals.contains decl.name = true) :
    s.bindClass decl = .error (.redeclaredName decl.name) := by
  rw [bindClass, if_pos h]

theorem assign_of_global {name : String} (h : s.globals.contains name = true) (value : Value) :
    s.assign name value = .error (.assignedConstant name) := by
  rw [assign, if_pos h]

end Scopes

end DecimalScript
