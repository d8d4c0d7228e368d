import DecimalScript.Proofs.Scope.Kept

/-!
# The implicit result of the current frame

`Scopes.implicit?` is what the current frame holds as its implicit result. A statement sets it, a
declaration leaves it alone, and a block that ran in a frame of its own hands its own one to the
frame around it, if it has one (`Scopes.implicit?_pop`).
-/

namespace DecimalScript.Scopes

variable {s t : Scopes}

/-- The implicit result of the current frame. -/
def implicit? (s : Scopes) : Option Value :=
  (s.frames[s.current]?).bind (·.result)

/-- The current frame is one of the frames. -/
def Live (s : Scopes) : Prop :=
  s.current < s.depth

theorem Live.depth_pos (h : s.Live) : 0 < s.depth :=
  Nat.zero_lt_of_lt h

theorem Live.getElem? (h : s.Live) : ∃ frame, s.frames[s.current]? = some frame :=
  ⟨_, Array.getElem?_eq_getElem h⟩

theorem Live.of_kept {change : Frame → Frame → Prop} (hlive : s.Live) (h : s.Kept change t) :
    t.Live := by
  rw [Live, h.current, h.depth]
  exact hlive

/-! ### Steps in the current frame -/

theorem implicit?_modifyCurrent (s : Scopes) (update : Frame → Frame) :
    (s.modifyCurrent update).implicit? =
      ((s.frames[s.current]?).map update).bind (·.result) := by
  have hframe := getElem?_modifyCurrent s update s.current
  rw [if_pos rfl] at hframe
  exact congrArg (Option.bind · Frame.result) hframe

theorem implicit?_modifyCurrent_of_result {update : Frame → Frame}
    (hupdate : ∀ f : Frame, (update f).result = f.result) :
    (s.modifyCurrent update).implicit? = s.implicit? := by
  rw [implicit?_modifyCurrent, implicit?]
  cases s.frames[s.current]? with
  | none => rfl
  | some frame => exact hupdate frame

theorem implicit?_setResult (hlive : s.Live) (value : Value) :
    (s.setResult value).implicit? = some value := by
  obtain ⟨frame, hframe⟩ := hlive.getElem?
  rw [setResult, implicit?_modifyCurrent, hframe]
  rfl

theorem implicit?_takeResult (s : Scopes) : s.takeResult.2.implicit? = none := by
  change (s.modifyCurrent _).implicit? = none
  rw [implicit?_modifyCurrent]
  cases s.frames[s.current]? <;> rfl

theorem implicit?_bind {name : String} {value : Value} {constant : Bool}
    (h : s.bind name value constant = .ok t) : t.implicit? = s.implicit? := by
  -- a name that is bound or already a global is refused; else only the bindings change
  simp only [bind] at h
  split at h
  · cases h
  · split at h
    · cases h
    · cases h
      exact implicit?_modifyCurrent_of_result fun _ => rfl

theorem implicit?_bindClass {decl : ClassDecl} (h : s.bindClass decl = .ok t) :
    t.implicit? = s.implicit? := by
  simp only [bindClass] at h
  split at h
  · cases h
  · split at h
    · cases h
    · cases h
      exact implicit?_modifyCurrent_of_result fun _ => rfl

theorem Kept.implicit? (h : s.Kept Frame.Kept t) (hlive : s.Live) :
    t.implicit? = s.implicit? := by
  obtain ⟨frame, hframe⟩ := hlive.getElem?
  obtain ⟨g, hg, hkept⟩ := h.inner frame hframe
  rw [Scopes.implicit?, Scopes.implicit?, h.current, hframe, hg]
  exact hkept.result

/-! ### Frames that come and go -/

theorem live_enter (s : Scopes) (frame : Frame) : (s.enter frame).Live := by
  show s.frames.size < (s.frames.push frame).size
  rw [Array.size_push]
  exact Nat.lt_succ_self _

theorem implicit?_enter (s : Scopes) (frame : Frame) :
    (s.enter frame).implicit? = frame.result := by
  rw [implicit?, enter]
  change ((s.frames.push frame)[s.frames.size]?).bind _ = _
  rw [Array.getElem?_push_size]
  rfl

/-- The implicit result of a block's frame passes to the frame around it. -/
theorem implicit?_pop {frame : Frame} (hlive : s.Live) (hparent : frame.parent = some s.current)
    (h : (s.enter frame).Kept Frame.Extended t) :
    t.pop.implicit? = t.implicit?.or s.implicit? := by
  -- what the block's frame holds at its end is what its current frame holds
  have hresult : (s.enter frame).Kept (fun f g => f.Extended g ∧ g.result = t.implicit?) t :=
    { h with
      inner := fun f hf => by
        obtain ⟨g, hg, hextended⟩ := h.inner f hf
        refine ⟨g, hg, hextended, ?_⟩
        rw [implicit?, h.current, hg]
        rfl }
  obtain ⟨g, dropped, ⟨-, hg⟩, hdropped, heq⟩ :=
    hresult.exists_of_enter hlive.depth_pos hparent fun hframe => hframe.1
  rw [heq, hg]
  cases t.implicit? with
  | none => exact hdropped.implicit? hlive
  | some value => exact implicit?_setResult (hlive.of_kept hdropped) value

end DecimalScript.Scopes
