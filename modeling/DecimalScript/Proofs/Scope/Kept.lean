import DecimalScript.Scope.Basic

/-!
# What evaluation keeps of the frames

An evaluation may give variables other values, wherever they are bound, and it may add to the frame
it runs in. `Scopes.Kept` says that it does nothing else: the frames are the same in number and one
of them is current as before, every frame but the current one is `Frame.Kept`, and the current one
is changed as far as the relation in the argument allows.

Three relations stand there. An expression leaves the current frame `Frame.Kept` as well. A
statement leaves it `Frame.Extended`, where names and classes may have come and the implicit result
may be another one. The whole body of a call leaves it `Frame.Filled`: it may add names, but a frame
that held no implicit result holds none at the end.

The last relation is what makes a call invisible to its caller. `Scopes.pop` hands the implicit
result of the popped frame to the parent, so the parent of a `Filled` frame is kept
(`Scopes.Kept.pop_call`), and the parent of a frame that is merely `Extended` is extended
(`Scopes.Kept.pop_block`).
-/

namespace DecimalScript

/-! ### One frame before and after -/

/-- What a statement leaves of the frame it runs in. Names keep their mutability and constants
their values; the implicit result is not mentioned. -/
structure Frame.Extended (before after : Frame) : Prop where
  parent : after.parent = before.parent
  receiver : after.receiver = before.receiver
  turn : after.turn = before.turn
  /-- A bound name stays bound, and what may change is the value of a variable. -/
  bindings : ∀ name binding, before.bindings.get? name = some binding →
    ∃ value, after.bindings.get? name = some { binding with value } ∧
      (binding.constant = true → value = binding.value)
  /-- A class stays bound under its name. -/
  classes : ∀ name decl, before.classes.get? name = some decl →
    after.classes.get? name = some decl

/-- What an evaluation leaves of a frame other than the one it runs in, and an expression of that
one too: all but the values of variables. -/
structure Frame.Kept (before after : Frame) : Prop extends Frame.Extended before after where
  result : after.result = before.result
  /-- No name is added. -/
  unbound : ∀ name, before.bindings.get? name = none → after.bindings.get? name = none
  /-- No class is added. -/
  classes_eq : after.classes = before.classes

/-- What the body of a call leaves of its frame. -/
structure Frame.Filled (before after : Frame) : Prop extends Frame.Extended before after where
  /-- An implicit result does not come where there was none. -/
  result : before.result = none → after.result = none

theorem Frame.Extended.refl (frame : Frame) : frame.Extended frame where
  parent := rfl
  receiver := rfl
  turn := rfl
  bindings _ binding h := ⟨binding.value, h, fun _ => rfl⟩
  classes _ _ h := h

theorem Frame.Extended.trans {f g h : Frame} (hfg : f.Extended g) (hgh : g.Extended h) :
    f.Extended h where
  parent := hgh.parent.trans hfg.parent
  receiver := hgh.receiver.trans hfg.receiver
  turn := hgh.turn.trans hfg.turn
  bindings name binding hbound := by
    -- the binding in between differs in its value at most, so it is a constant as before
    obtain ⟨value, hvalue, hconst⟩ := hfg.bindings name binding hbound
    obtain ⟨value', hvalue', hconst'⟩ := hgh.bindings name _ hvalue
    exact ⟨value', hvalue', fun hc => (hconst' hc).trans (hconst hc)⟩
  classes name decl hbound := hgh.classes name decl (hfg.classes name decl hbound)

theorem Frame.Kept.refl (frame : Frame) : frame.Kept frame where
  toExtended := .refl frame
  result := rfl
  unbound _ h := h
  classes_eq := rfl

theorem Frame.Kept.trans {f g h : Frame} (hfg : f.Kept g) (hgh : g.Kept h) : f.Kept h where
  toExtended := hfg.toExtended.trans hgh.toExtended
  result := hgh.result.trans hfg.result
  unbound name hnone := hgh.unbound name (hfg.unbound name hnone)
  classes_eq := hgh.classes_eq.trans hfg.classes_eq

theorem Frame.Filled.trans {f g h : Frame} (hfg : f.Filled g) (hgh : g.Filled h) :
    f.Filled h where
  toExtended := hfg.toExtended.trans hgh.toExtended
  result hnone := hgh.result (hfg.result hnone)

theorem Frame.Kept.filled {f g : Frame} (h : f.Kept g) : f.Filled g where
  toExtended := h.toExtended
  result hnone := h.result.trans hnone

/-- A new name is added, and every other name is bound to what it was. -/
theorem Frame.filled_insert {frame : Frame} {name : String} (binding : Binding)
    (hnew : frame.bindings.contains name = false) :
    frame.Filled { frame with bindings := frame.bindings.insert name binding } where
  toExtended := { Frame.Extended.refl frame with
    bindings := fun other bound hbound => by
      -- another name was bound before, so it is not the new one
      have hne : other ≠ name := by
        rintro rfl
        simp [Entries.contains, hbound] at hnew
      exact ⟨bound.value, by simp [Entries.get?_insert, hne, hbound], fun _ => rfl⟩ }
  result h := h

/-- A variable that is bound gets another value, and nothing else changes. -/
theorem Frame.kept_insert {frame : Frame} {name : String} {binding : Binding}
    (hbound : frame.bindings.get? name = some binding) (hvariable : binding.constant = false)
    (value : Value) :
    frame.Kept { frame with bindings := frame.bindings.insert name { binding with value } } where
  toExtended := { Frame.Extended.refl frame with
    bindings := fun other bound hother => by
      by_cases hname : other = name
      · -- the name itself: it is a variable, so nothing is claimed of its value
        subst hname
        obtain rfl : binding = bound := Option.some.inj (hbound.symm.trans hother)
        exact ⟨value, by simp [Entries.get?_insert], by simp [hvariable]⟩
      · exact ⟨bound.value, by simp [Entries.get?_insert, hname, hother], fun _ => rfl⟩ }
  result := rfl
  unbound other hnone := by
    have hne : other ≠ name := by
      rintro rfl
      simp [hbound] at hnone
    simp [Entries.get?_insert, hne, hnone]
  classes_eq := rfl

/-! ### All frames before and after -/

/-- What an evaluation keeps of the scopes, where `change` bounds what happens to the current
frame. -/
structure Scopes.Kept (change : Frame → Frame → Prop) (before after : Scopes) : Prop where
  globals : after.globals = before.globals
  depth : after.depth = before.depth
  current : after.current = before.current
  /-- The current frame, if there is one. -/
  inner : ∀ f, before.frames[before.current]? = some f →
    ∃ g, after.frames[before.current]? = some g ∧ change f g
  /-- The other frames, those of the callers among them. -/
  outer : ∀ id f, id ≠ before.current → before.frames[id]? = some f →
    ∃ g, after.frames[id]? = some g ∧ f.Kept g

namespace Scopes

variable {change weaker : Frame → Frame → Prop} {s t u : Scopes}

theorem Kept.refl (hrefl : ∀ f, change f f) (s : Scopes) : s.Kept change s where
  globals := rfl
  depth := rfl
  current := rfl
  inner f hf := ⟨f, hf, hrefl f⟩
  outer _ f _ hf := ⟨f, hf, .refl f⟩

theorem Kept.trans (htrans : ∀ {f g h}, change f g → change g h → change f h)
    (hst : s.Kept change t) (htu : t.Kept change u) : s.Kept change u where
  globals := htu.globals.trans hst.globals
  depth := htu.depth.trans hst.depth
  current := htu.current.trans hst.current
  inner f hf := by
    -- both parts run in the same frame
    obtain ⟨g, hg, hfg⟩ := hst.inner f hf
    rw [← hst.current] at hg
    obtain ⟨h, hh, hgh⟩ := htu.inner g hg
    rw [hst.current] at hh
    exact ⟨h, hh, htrans hfg hgh⟩
  outer id f hid hf := by
    obtain ⟨g, hg, hfg⟩ := hst.outer id f hid hf
    obtain ⟨h, hh, hgh⟩ := htu.outer id g (by rwa [hst.current]) hg
    exact ⟨h, hh, hfg.trans hgh⟩

theorem Kept.mono (hweaker : ∀ {f g}, change f g → weaker f g) (h : s.Kept change t) :
    s.Kept weaker t where
  globals := h.globals
  depth := h.depth
  current := h.current
  -- the frame that changed is the current one, so the weaker relation is asked for it alone
  inner f hf := by
    obtain ⟨g, hg, hfg⟩ := h.inner f hf
    exact ⟨g, hg, hweaker hfg⟩
  outer := h.outer

/-! ### Steps in the current frame -/

theorem getElem?_modifyCurrent (s : Scopes) (update : Frame → Frame) (id : Nat) :
    (s.modifyCurrent update).frames[id]? =
      if s.current = id then (s.frames[id]?).map update else s.frames[id]? :=
  Array.getElem?_modify

/-- A change of the current frame alone. -/
theorem kept_modifyCurrent {update : Frame → Frame}
    (hupdate : ∀ f, s.frames[s.current]? = some f → change f (update f)) :
    s.Kept change (s.modifyCurrent update) where
  globals := rfl
  depth := depth_modifyCurrent s update
  current := rfl
  inner f hf := ⟨update f, by simp [getElem?_modifyCurrent, hf], hupdate f hf⟩
  outer id f hid hf := ⟨f, by rw [getElem?_modifyCurrent, if_neg (Ne.symm hid), hf], .refl f⟩

theorem kept_setResult (s : Scopes) (value : Value) :
    s.Kept Frame.Extended (s.setResult value) :=
  kept_modifyCurrent fun f _ => { Frame.Extended.refl f with }

/-- To take the implicit result leaves a frame without one, whatever was done to it before. -/
theorem Kept.takeResult (h : s.Kept Frame.Extended t) : s.Kept Frame.Filled t.takeResult.2 := by
  -- the result is cleared in the current frame, on top of what had changed before
  have htake : t.Kept (fun f g => f.Extended g ∧ g.result = none) t.takeResult.2 :=
    kept_modifyCurrent fun f _ => ⟨{ Frame.Extended.refl f with }, rfl⟩
  refine ⟨htake.globals.trans h.globals, htake.depth.trans h.depth,
    htake.current.trans h.current, fun f hf => ?_, fun id f hid hf => ?_⟩
  · obtain ⟨g, hg, hfg⟩ := h.inner f hf
    rw [← h.current] at hg ⊢
    obtain ⟨k, hk, hgk, hnone⟩ := htake.inner g hg
    exact ⟨k, hk, hfg.trans hgk, fun _ => hnone⟩
  · obtain ⟨g, hg, hfg⟩ := h.outer id f hid hf
    obtain ⟨k, hk, hgk⟩ := htake.outer id g (by rwa [h.current]) hg
    exact ⟨k, hk, hfg.trans hgk⟩

theorem kept_bind {name : String} {value : Value} {constant : Bool}
    (h : s.bind name value constant = .ok t) : s.Kept Frame.Filled t := by
  -- the two refusals leave no scopes behind, and the new name was free in the current frame
  simp only [bind] at h
  split at h
  · cases h
  · split at h
    · cases h
    · next hnew =>
      cases h
      refine kept_modifyCurrent fun f hf => Frame.filled_insert _ ?_
      simpa [hf] using hnew

theorem kept_bindClass {decl : ClassDecl} (h : s.bindClass decl = .ok t) :
    s.Kept Frame.Filled t := by
  -- the same for classes, which have a table of their own
  simp only [bindClass] at h
  split at h
  · cases h
  · split at h
    · cases h
    · next hnew =>
      cases h
      refine kept_modifyCurrent fun f hf => ⟨{ Frame.Extended.refl f with
        classes := fun other bound hbound => ?_ }, fun hnone => hnone⟩
      have hne : other ≠ decl.name := by
        rintro rfl
        simp [hf, Entries.contains, hbound] at hnew
      simp [Entries.get?_insert, hne, hbound]

/-! ### Assignments -/

/-- What a search finds stands in one of the frames. -/
theorem exists_of_searchFrom {α : Type} {pick : Nat → Frame → Option α} {steps : Nat}
    {start : Option Nat} {found : α} (h : s.searchFrom pick steps start = some found) :
    ∃ id frame, s.frames[id]? = some frame ∧ pick id frame = some found := by
  -- on the steps of the search, which goes from each frame to its parent
  induction steps generalizing start with
  | zero => cases h
  | succ steps ih =>
    cases start with
    | none => cases h
    | some id =>
      simp only [searchFrom] at h
      split at h
      · cases h
      · next frame hframe =>
        split at h
        · next value hvalue =>
          cases h
          exact ⟨id, frame, hframe, hvalue⟩
        · exact ih h

/-- A name that a search finds is bound in the frame that it names. -/
theorem searchFrom_binding {name : String} {steps : Nat} {start : Option Nat} {id : Nat}
    {binding : Binding}
    (h : s.searchFrom (fun id frame => (frame.bindings.get? name).map fun b => (id, b)) steps
      start = some (id, binding)) :
    ∃ frame, s.frames[id]? = some frame ∧ frame.bindings.get? name = some binding := by
  -- the search gives the frame from which it picked
  obtain ⟨at_, frame, hframe, hpick⟩ := exists_of_searchFrom h
  obtain ⟨b, hbound, heq⟩ := Option.map_eq_some_iff.1 hpick
  obtain ⟨rfl, rfl⟩ := Prod.mk.inj heq
  exact ⟨frame, hframe, hbound⟩

/-- An assignment reaches any frame, but it only gives a variable another value. -/
theorem kept_assign {name : String} {value : Value} (h : s.assign name value = .ok t) :
    s.Kept Frame.Kept t := by
  simp only [assign] at h
  split at h
  · cases h
  · split at h
    · cases h
    · next id binding hsearch =>
      split at h
      · cases h
      · next hvariable =>
        cases h
        obtain ⟨frame, hframe, hbound⟩ := searchFrom_binding hsearch
        -- one frame among all is changed, which may be the current one or one outside of it
        have hkept : ∀ (other : Nat) (f : Frame), s.frames[other]? = some f →
            ∃ g : Frame, (s.frames.modify id fun frame => { frame with
              bindings := frame.bindings.insert name { binding with value } })[other]? = some g ∧
              f.Kept g := by
          intro other f hf
          rw [Array.getElem?_modify, hf]
          by_cases hid : id = other
          · -- the frame in which the name was found
            subst hid
            obtain rfl : f = frame := Option.some.inj (hf.symm.trans hframe)
            exact ⟨_, if_pos rfl, Frame.kept_insert hbound (by simpa using hvariable) value⟩
          · exact ⟨f, if_neg hid, .refl f⟩
        exact ⟨rfl, by simp [depth], rfl, hkept _, fun other f _ => hkept other f⟩

/-! ### Frames that come and go -/

/-- The scopes with a frame on top of all others, which is the current one. -/
def enter (s : Scopes) (frame : Frame) : Scopes :=
  { s with frames := s.frames.push frame, current := s.depth }

theorem setTurn_push (s : Scopes) (index value : Value) :
    (s.push none).setTurn index value =
      s.enter { Frame.fresh (some s.current) none with turn := some (index, value) } := by
  have hmodify : (s.frames.push (.fresh (some s.current) none)).modify s.frames.size
      (fun frame => { frame with turn := some (index, value) }) =
      s.frames.push { Frame.fresh (some s.current) none with turn := some (index, value) } := by
    apply Array.ext_getElem?
    -- the new frame stands last, so changing the current one is pushing another one
    intro id
    rw [Array.getElem?_modify, Array.getElem?_push, Array.getElem?_push]
    by_cases hid : s.frames.size = id
    · simp [hid]
    · rw [if_neg hid, if_neg (Ne.symm hid), if_neg (Ne.symm hid)]
  simp only [setTurn, modifyCurrent, push, enter, hmodify, depth]

/-- Dropping the frame `frame`, which is the last of several. -/
theorem pop_eq {frame : Frame} (hdepth : 1 < s.depth)
    (hlast : s.frames[s.depth - 1]? = some frame) :
    s.pop =
      let dropped := { s with frames := s.frames.pop, current := frame.parent.getD 0 }
      match frame.result with
      | none => dropped
      | some value => dropped.setResult value := by
  -- there are at least two frames, so the last one is dropped
  have hback : s.frames.back? = some frame := by rwa [Array.back?_eq_getElem?]
  have hsize : ¬s.frames.size ≤ 1 := Nat.not_le.2 hdepth
  simp only [pop, hback, if_neg hsize]
  rfl

section Leave

variable {frame : Frame} (hroot : 0 < s.depth) (hparent : frame.parent = some s.current)
include hroot hparent

/-- After a frame that was entered is dropped, the scopes differ from those before at most in the
implicit result that the frame held at its end. -/
theorem Kept.exists_of_enter (h : (s.enter frame).Kept change t)
    (hextended : ∀ {g}, change frame g → frame.Extended g) :
    ∃ g dropped, change frame g ∧ s.Kept Frame.Kept dropped ∧
      t.pop = match g.result with
        | none => dropped
        | some value => dropped.setResult value := by
  have hsize : t.frames.size = s.frames.size + 1 := by
    have hdepth := h.depth
    simpa [enter, Scopes.depth] using hdepth
  obtain ⟨g, hg, hframe⟩ := h.inner frame (by simp [enter, Scopes.depth])
  have hlast : t.frames[t.frames.size - 1]? = some g := by rwa [hsize]
  -- the frame has kept its parent, so the current frame is again the one from before
  have hcurrent : g.parent.getD 0 = s.current := by
    rw [(hextended hframe).parent, hparent, Option.getD_some]
  refine ⟨g, { t with frames := t.frames.pop, current := s.current }, hframe, ?_, ?_⟩
  · -- below the frame nothing but the values of variables has changed
    have hkept : ∀ (id : Nat) (f : Frame), s.frames[id]? = some f →
        ∃ g : Frame, t.frames.pop[id]? = some g ∧ f.Kept g := by
      intro id f hf
      have hid : id < s.frames.size := (Array.getElem?_eq_some_iff.1 hf).1
      have henter : (s.enter frame).frames[id]? = some f := by
        rw [← hf]
        exact (Array.getElem?_push.trans (if_neg (Nat.ne_of_lt hid)))
      obtain ⟨g, hg, hfg⟩ := h.outer id f (Nat.ne_of_lt hid) henter
      refine ⟨g, ?_, hfg⟩
      rw [Array.getElem?_pop, if_pos (by omega), hg]
    have hpop : t.frames.pop.size = s.frames.size := by rw [Array.size_pop, hsize]; rfl
    exact ⟨h.globals, hpop, rfl, hkept _, fun id f _ => hkept id f⟩
  · -- and on top of a root frame it is not the only one, so it is dropped indeed
    have hdeep : 1 < t.depth := by
      simp only [Scopes.depth] at hroot ⊢
      omega
    rw [pop_eq hdeep hlast, hcurrent]

/-- A call leaves the frames of its caller as they were, implicit results included. -/
theorem Kept.pop_call (hresult : frame.result = none) (h : (s.enter frame).Kept Frame.Filled t) :
    s.Kept Frame.Kept t.pop := by
  obtain ⟨g, dropped, hfilled, hdropped, heq⟩ :=
    h.exists_of_enter hroot hparent fun hfilled => hfilled.toExtended
  rw [heq, hfilled.result hresult]
  exact hdropped

/-- A block may leave the frame around it another implicit result. -/
theorem Kept.pop_block (h : (s.enter frame).Kept Frame.Extended t) :
    s.Kept Frame.Extended t.pop := by
  -- what the dropped frame left as result goes to the frame below
  obtain ⟨g, dropped, -, hdropped, heq⟩ := h.exists_of_enter hroot hparent id
  have hextended := hdropped.mono Frame.Kept.toExtended
  rw [heq]
  cases g.result with
  | none => exact hextended
  | some value => exact hextended.trans Frame.Extended.trans (kept_setResult dropped value)

end Leave

end Scopes

end DecimalScript
