import DecimalScript.Proofs.Heap.Realm
import DecimalScript.Proofs.Scope.Kept

/-!
# Frames within a realm

The frames are within a realm if they hold values and classes of the realm only. What is found in
them is of the realm then, and they stay within it when something of the realm is bound, assigned or
put into a slot, and when frames come and go.
-/

namespace DecimalScript

/-- The frame holds nothing but what is of the realm. -/
structure Frame.Within (realm : Realm) (frame : Frame) : Prop where
  bindings : frame.bindings.All fun binding => realm.HasValue binding.value
  classes : frame.classes.All realm.HasClass
  receiver : ∀ v ∈ frame.receiver, realm.HasValue v
  result : ∀ v ∈ frame.result, realm.HasValue v
  turn : ∀ t ∈ frame.turn, realm.HasValue t.1 ∧ realm.HasValue t.2

/-- The frames and the global names hold nothing but what is of the realm. -/
structure Scopes.Within (realm : Realm) (s : Scopes) : Prop where
  globals : s.globals.All realm.HasValue
  frames : ∀ (id : Nat) (frame : Frame), s.frames[id]? = some frame → frame.Within realm

variable {realm : Realm}

open Realm (Allows)

theorem Frame.within_fresh (parent : Option Nat) {receiver : Option Value}
    (hreceiver : ∀ v ∈ receiver, realm.HasValue v) : (Frame.fresh parent receiver).Within realm where
  bindings := .empty
  classes := .empty
  receiver := hreceiver
  result _ h := nomatch h
  turn _ h := nomatch h

theorem Frame.Within.bind {frame : Frame} (h : frame.Within realm) (name : String)
    {binding : Binding} (hvalue : realm.HasValue binding.value) :
    ({ frame with bindings := frame.bindings.insert name binding } : Frame).Within realm :=
  { h with bindings := h.bindings.insert name hvalue }

namespace Scopes

variable {s : Scopes}

/-! ### Changes -/

/-- A change of one frame that keeps it within the realm. -/
theorem Within.modify (h : s.Within realm) (id : Nat) {update : Frame → Frame}
    (hupdate : ∀ frame : Frame, frame.Within realm → (update frame).Within realm) :
    ({ s with frames := s.frames.modify id update } : Scopes).Within realm := by
  refine ⟨h.globals, fun other frame hframe => ?_⟩
  -- a frame was changed or it is as before
  rw [Array.getElem?_modify] at hframe
  split at hframe
  · obtain ⟨before, hbefore, rfl⟩ := Option.map_eq_some_iff.1 hframe
    exact hupdate before (h.frames other before hbefore)
  · exact h.frames other frame hframe

theorem Within.setTurn (h : s.Within realm) {index value : Value} (hindex : realm.HasValue index)
    (hvalue : realm.HasValue value) : (s.setTurn index value).Within realm :=
  h.modify s.current fun _ hframe => { hframe with
    turn := fun t ht => by
      cases ht
      exact ⟨hindex, hvalue⟩ }

theorem Within.setResult (h : s.Within realm) {value : Value} (hvalue : realm.HasValue value) :
    (s.setResult value).Within realm :=
  h.modify s.current fun _ hframe => { hframe with
    result := fun v hv => by
      cases hv
      exact hvalue }

theorem Within.takeResult (h : s.Within realm) :
    (∀ v ∈ s.takeResult.1, realm.HasValue v) ∧ s.takeResult.2.Within realm := by
  refine ⟨fun v hv => ?_, h.modify s.current fun _ hframe => { hframe with
    result := fun _ hv => nomatch hv }⟩
  obtain ⟨frame, hframe, hresult⟩ := Option.bind_eq_some_iff.1 hv
  exact (h.frames _ frame hframe).result v hresult

theorem Within.push (h : s.Within realm) {receiver : Option Value}
    (hreceiver : ∀ v ∈ receiver, realm.HasValue v) : (s.push receiver).Within realm := by
  refine ⟨h.globals, fun id frame hframe => ?_⟩
  -- the pushed frame is empty but for its receiver
  rw [Scopes.push, Array.getElem?_push] at hframe
  split at hframe
  · cases hframe
    exact Frame.within_fresh _ hreceiver
  · exact h.frames id frame hframe

/-- The implicit result that the dropped frame hands on is of the realm as well. -/
theorem Within.pop (h : s.Within realm) : s.pop.Within realm := by
  -- to drop a frame leaves the others, and then its result may be set in one of them
  have hdropped : ∀ current, ({ s with frames := s.frames.pop, current } : Scopes).Within realm := by
    refine fun current => ⟨h.globals, fun id frame hframe => ?_⟩
    rw [Array.getElem?_pop] at hframe
    split at hframe
    · exact h.frames id frame hframe
    · cases hframe
  unfold Scopes.pop
  split
  · exact h
  · split
    · exact h
    · next last hlast =>
      rw [Array.back?_eq_getElem?] at hlast
      have hresult := (h.frames _ last hlast).result
      dsimp only
      split
      · exact hdropped _
      · next value hvalue => exact (hdropped _).setResult (hresult value hvalue)

theorem Within.allows_bind (h : s.Within realm) (name : String) {value : Value} (constant : Bool)
    (hvalue : realm.HasValue value) :
    realm.Allows (Within realm) (s.bind name value constant) := by
  -- two refusals, and else one more binding in the current frame
  unfold Scopes.bind
  split
  · exact .error rfl
  · split
    · exact .error rfl
    · exact h.modify s.current fun frame hframe => hframe.bind name hvalue

theorem Within.allows_bindClass (h : s.Within realm) {decl : ClassDecl}
    (hclass : realm.HasClass decl) : realm.Allows (Within realm) (s.bindClass decl) := by
  -- two refusals again
  unfold Scopes.bindClass
  split
  · exact .error rfl
  · split
    · exact .error rfl
    · exact h.modify s.current fun frame hframe => { hframe with
        classes := hframe.classes.insert decl.name hclass }

theorem Within.allows_assign (h : s.Within realm) (name : String) {value : Value}
    (hvalue : realm.HasValue value) : realm.Allows (Within realm) (s.assign name value) := by
  -- a global, an unknown name and a constant are refused
  unfold Scopes.assign
  split
  · exact .error rfl
  · split
    · exact .error rfl
    · split
      · exact .error rfl
      · next id _ _ _ => exact h.modify id fun frame hframe => hframe.bind name hvalue

/-! ### What is found -/

theorem Within.allows_find (h : s.Within realm) (name : String) :
    realm.Allows realm.HasValue (s.find name) := by
  -- what is found is a global or stands in some frame
  unfold Scopes.find
  split
  · next value hvalue => exact h.globals name value hvalue
  · split
    · next binding hbinding =>
      obtain ⟨id, frame, hframe, hbound⟩ := exists_of_searchFrom hbinding
      exact (h.frames id frame hframe).bindings name binding hbound
    · exact .error rfl

theorem Within.allows_findClass (h : s.Within realm) (name : String) :
    realm.Allows realm.HasClass (s.findClass name) := by
  unfold Scopes.findClass
  split
  · next decl hdecl =>
    obtain ⟨id, frame, hframe, hbound⟩ := exists_of_searchFrom hdecl
    exact (h.frames id frame hframe).classes name decl hbound
  · exact .error rfl

theorem Within.receiver? (h : s.Within realm) : ∀ v ∈ s.receiver?, realm.HasValue v := by
  intro v hv
  obtain ⟨id, frame, hframe, hreceiver⟩ := exists_of_searchFrom hv
  exact (h.frames id frame hframe).receiver v hreceiver

theorem Within.turn? (h : s.Within realm) :
    ∀ t ∈ s.turn?, realm.HasValue t.1 ∧ realm.HasValue t.2 := by
  intro t ht
  obtain ⟨id, frame, hframe, hturn⟩ := exists_of_searchFrom ht
  exact (h.frames id frame hframe).turn t hturn

/-! ### Realms of all values -/

theorem within_of_isTotal (h : realm.IsTotal) (s : Scopes) : s.Within realm where
  globals _ v _ := h.hasValue v
  frames _ _ _ :=
    { bindings := fun _ binding _ => h.hasValue binding.value
      classes := fun _ decl _ => h.hasClass decl
      receiver := fun v _ => h.hasValue v
      result := fun v _ => h.hasValue v
      turn := fun t _ => ⟨h.hasValue t.1, h.hasValue t.2⟩ }

theorem within_everything (s : Scopes) : s.Within Realm.everything :=
  within_of_isTotal Realm.isTotal_everything s

theorem find_harmless (s : Scopes) (name : String) : Realm.everything.Harmless (s.find name) :=
  (s.within_everything.allows_find name).harmless

theorem findClass_harmless (s : Scopes) (name : String) :
    Realm.everything.Harmless (s.findClass name) :=
  (s.within_everything.allows_findClass name).harmless

end Scopes

end DecimalScript
