import DecimalScript.Proofs.Scope.Environment
import DecimalScript.Proofs.Scope.Kept
import Mathlib.Data.List.Induction

/-!
# Scopes as a stack of environments

Frames are linked by numbers: a new frame takes its parent from the number of the current one, and
the frame that is popped says which is current next. `Scopes.IsStack` is the invariant behind that.
There is a frame, the last one is current, and every frame but the first has the one before it as
its parent. It holds of the root alone and every operation keeps it.

Under the invariant a search goes through the frames from the last to the first
(`IsStack.searchFrom_eq`), whatever the number of steps that it is given, if only it is large
enough. So the frames can be read as a list of environments (`Scopes.environments`), and each
operation does to that list what the operation of the same name does to `Environments`
(`IsStack.step`). What holds after one operation holds after any number of them
(`scopes_refine_environments`).
-/

namespace DecimalScript

open Environments (outside?)

/-- The environment that a frame stands for: all but its parent. -/
def Frame.environment (frame : Frame) : Environment where
  symbols := frame.bindings.get?
  classes := frame.classes.get?
  receiver := frame.receiver
  result := frame.result
  turn := frame.turn

namespace Scopes

/-- The last frame is current and each frame has the one before it as its parent. -/
structure IsStack (s : Scopes) : Prop where
  pos : 0 < s.depth
  current : s.current + 1 = s.depth
  parent : ∀ id frame, s.frames[id]? = some frame → frame.parent = outside? id

/-- The environments of the frames, the innermost first. -/
def environments (s : Scopes) : Environments where
  globals := s.globals
  stack := (s.frames.toList.map Frame.environment).reverse

variable {s t : Scopes}

theorem isStack_ofGlobals (globals : Entries Value) : (ofGlobals globals).IsStack where
  pos := Nat.zero_lt_one
  current := rfl
  parent id frame hframe := by
    cases id with
    | zero => cases hframe; rfl
    | succ id => cases hframe

/-! ### Going outwards -/

/-- A search from the last of the frames `inner` goes through all of them, the last one first. -/
theorem IsStack.searchFrom_eq (h : s.IsStack) {α : Type} (pick : Nat → Frame → Option α)
    {frames above : List Frame} (hframes : s.frames.toList = frames ++ above) {steps : Nat}
    (hsteps : frames.length ≤ steps) :
    s.searchFrom pick steps (outside? frames.length) =
      frames.zipIdx.reverse.findSome? fun entry => pick entry.2 entry.1 := by
  -- on the frames, of which the last one is looked at first
  induction frames using List.reverseRecOn generalizing above steps with
  | nil => cases steps <;> rfl
  | append_singleton frames last ih =>
    rw [List.length_append, List.length_singleton] at hsteps ⊢
    obtain ⟨steps, rfl⟩ : ∃ fewer, steps = fewer + 1 := ⟨steps - 1, by omega⟩
    have hlast : s.frames[frames.length]? = some last := by
      rw [← Array.getElem?_toList, hframes]
      simp
    have hnext : last.parent = outside? frames.length := h.parent _ _ hlast
    have hentries : (frames ++ [last]).zipIdx.reverse =
        (last, frames.length) :: frames.zipIdx.reverse := by
      simp [List.zipIdx_append]
    rw [hentries, List.findSome?_cons]
    change s.searchFrom pick (steps + 1) (some frames.length) = _
    simp only [searchFrom, hlast]
    cases pick frames.length last with
    | some found => rfl
    | none =>
      rw [hnext]
      exact ih (by rw [hframes, List.append_assoc]) (Nat.le_of_succ_le_succ hsteps)

/-- The current frame is the one just outside of a frame that is not there yet. -/
theorem IsStack.outside?_depth (h : s.IsStack) : outside? s.depth = some s.current := by
  rw [← h.current]
  rfl

/-- A search looks at every frame, the last one first, and ends there. -/
theorem IsStack.searchFrom_current (h : s.IsStack) {α : Type} (pick : Nat → Frame → Option α)
    {steps : Nat} (hsteps : s.depth ≤ steps) :
    s.searchFrom pick steps (some s.current) =
      s.frames.toList.zipIdx.reverse.findSome? fun entry => pick entry.2 entry.1 := by
  rw [← h.outside?_depth]
  exact h.searchFrom_eq pick (List.append_nil _).symm hsteps

/-- A search for what a frame's environment knows goes along the environments. -/
theorem IsStack.search_environment (h : s.IsStack) {α : Type} (look : Environment → Option α) :
    (s.search fun _ frame => look frame.environment) = s.environments.stack.findSome? look := by
  change s.searchFrom (fun _ frame => look frame.environment) s.depth (some s.current) = _
  rw [h.searchFrom_current _ (Nat.le_refl _)]
  -- the positions of the frames play no part in what is looked for
  have hforget : s.frames.toList.zipIdx.reverse.map (·.1) = s.frames.toList.reverse := by
    rw [List.map_reverse, List.zipIdx_map_fst]
  rw [environments, ← List.map_reverse, ← hforget, List.map_map, List.findSome?_map]
  rfl

/-! ### The frames as a list -/

/-- Scopes with these frames, the last of which is current. -/
def ofFrames (globals : Entries Value) (below : List Frame) (last : Frame) : Scopes :=
  { globals, frames := (below ++ [last]).toArray, current := below.length }

/-- A stack is its frames, the last of which is current. -/
theorem IsStack.eq_ofFrames (h : s.IsStack) {below : List Frame} {last : Frame}
    (hframes : s.frames.toList = below ++ [last]) : s = ofFrames s.globals below last := by
  have hcurrent : below.length = s.current := by
    have hdepth := h.current
    rw [depth, ← Array.length_toList, hframes, List.length_append, List.length_singleton] at hdepth
    exact (Nat.succ.inj hdepth).symm
  rw [ofFrames, ← hframes, hcurrent]

theorem IsStack.exists_eq (h : s.IsStack) :
    ∃ below last, s = ofFrames s.globals below last ∧ s.frames.toList = below ++ [last] := by
  -- a stack has at least its root frame, so it has a last one
  have hne : s.frames.toList ≠ [] := by
    intro hempty
    have hpos := h.pos
    rw [depth, ← Array.length_toList, hempty] at hpos
    exact Nat.lt_irrefl 0 hpos
  have hsplit := (List.dropLast_concat_getLast hne).symm
  exact ⟨_, _, h.eq_ofFrames hsplit, hsplit⟩

theorem modify_append (below : List Frame) (frame : Frame) (above : List Frame)
    (f : Frame → Frame) :
    (below ++ frame :: above).modify below.length f = below ++ f frame :: above := by
  rw [List.modify_eq_take_cons_drop (by simp)]
  simp

variable {globals : Entries Value} {below : List Frame} {last : Frame}

theorem modifyCurrent_ofFrames (f : Frame → Frame) :
    (ofFrames globals below last).modifyCurrent f = ofFrames globals below (f last) := by
  rw [modifyCurrent, ofFrames, List.modify_toArray, modify_append]
  rfl

theorem push_ofFrames (receiver : Option Value) :
    (ofFrames globals below last).push receiver =
      ofFrames globals (below ++ [last]) (.fresh (some below.length) receiver) := by
  simp [push, ofFrames]

/-- A root alone stays. -/
theorem pop_root (root : Frame) : (ofFrames globals [] root).pop = ofFrames globals [] root := rfl

/-- The last of several frames goes, and its implicit result passes on if it holds one. -/
theorem pop_ofFrames {outer inner : Frame} (hparent : inner.parent = some below.length) :
    (ofFrames globals (below ++ [outer]) inner).pop =
      ofFrames globals below { outer with result := inner.result.or outer.result } := by
  have hdeep : 1 < (ofFrames globals (below ++ [outer]) inner).depth := by
    simp [depth, ofFrames]
  -- the dropped frame is the last of at least two
  have hlast : (ofFrames globals (below ++ [outer]) inner).frames[
      (ofFrames globals (below ++ [outer]) inner).depth - 1]? = some inner := by
    simp [depth, ofFrames]
  have hdropped : { ofFrames globals (below ++ [outer]) inner with
      frames := (ofFrames globals (below ++ [outer]) inner).frames.pop
      current := inner.parent.getD 0 } = ofFrames globals below outer := by
    simp [ofFrames, hparent]
  rw [pop_eq hdeep hlast, hdropped]
  cases inner.result with
  | none => rfl
  | some value => exact modifyCurrent_ofFrames _

/-- The first frame stays, without its implicit result and its turn. -/
theorem unwind_eq {root : Frame} {above : List Frame} (hframes : s.frames.toList = root :: above) :
    s.unwind = ofFrames s.globals [] { root with result := none, turn := none } := by
  have hfirst : s.frames.take 1 = #[root] := by
    rw [← s.frames.toArray_toList, hframes]
    simp
  rw [unwind, hfirst]
  rfl

/-- The environment of the last frame is the innermost. -/
theorem environments_ofFrames :
    (ofFrames globals below last).environments =
      { globals, stack := last.environment :: (below.map Frame.environment).reverse } := by
  simp [environments, ofFrames]

/-! ### Each operation keeps the stack -/

/-- Frames with the parents that the first frames of a stack have are a stack. -/
theorem IsStack.of_prefix (h : s.IsStack) (hpos : 0 < t.depth) (hcurrent : t.current + 1 = t.depth)
    (hparents : t.frames.toList.map (·.parent) <+: s.frames.toList.map (·.parent)) :
    t.IsStack where
  pos := hpos
  current := hcurrent
  parent id frame hframe := by
    obtain ⟨rest, hrest⟩ := hparents
    -- the parents stand in one list, of which the other has the beginning
    have hfound : (t.frames.toList.map (·.parent))[id]? = some frame.parent := by simp [hframe]
    have hbefore : (s.frames.toList.map (·.parent))[id]? = some frame.parent := by
      rw [← hrest, List.getElem?_append_left (List.getElem?_eq_some_iff.1 hfound).1, hfound]
    obtain ⟨before, hbefore, hsame⟩ := by simpa using hbefore
    rw [← hsame]
    exact h.parent id before hbefore

theorem IsStack.modifyCurrent (h : s.IsStack) {f : Frame → Frame}
    (hf : ∀ frame, (f frame).parent = frame.parent) : (s.modifyCurrent f).IsStack := by
  obtain ⟨below, last, heq, hframes⟩ := h.exists_eq
  -- no parent is changed, so the list of parents is the same
  have hsame : (s.modifyCurrent f).frames.toList.map (·.parent) =
      s.frames.toList.map (·.parent) := by
    rw [hframes, heq, modifyCurrent_ofFrames]
    simp [ofFrames, hf]
  refine h.of_prefix (by simpa using h.pos) ?_ (hsame ▸ List.prefix_rfl)
  rw [depth_modifyCurrent]
  exact h.current

/-- What an evaluation keeps of the frames includes their parents. -/
theorem IsStack.of_kept (h : s.IsStack) {change : Frame → Frame → Prop} (hkept : s.Kept change t)
    (hextended : ∀ {f g}, change f g → f.Extended g) : t.IsStack where
  pos := hkept.depth ▸ h.pos
  current := by
    rw [hkept.current, hkept.depth]
    exact h.current
  parent id after hafter := by
    have hid : id < s.frames.size := by
      have hdepth : t.frames.size = s.frames.size := hkept.depth
      rw [← hdepth]
      exact (Array.getElem?_eq_some_iff.1 hafter).1
    obtain ⟨before, hbefore⟩ : ∃ before, s.frames[id]? = some before :=
      ⟨_, Array.getElem?_eq_getElem hid⟩
    -- the frame was current or outside, and in both cases it kept its parent
    obtain ⟨g, hg, hsame⟩ : ∃ g, t.frames[id]? = some g ∧ before.Extended g := by
      by_cases hcurrent : id = s.current
      · subst hcurrent
        obtain ⟨g, hg, hfg⟩ := hkept.inner before hbefore
        exact ⟨g, hg, hextended hfg⟩
      · obtain ⟨g, hg, hfg⟩ := hkept.outer id before hcurrent hbefore
        exact ⟨g, hg, hfg.toExtended⟩
    obtain rfl : after = g := Option.some.inj (hafter.symm.trans hg)
    rw [hsame.parent]
    exact h.parent id before hbefore

theorem IsStack.push (h : s.IsStack) (receiver : Option Value) : (s.push receiver).IsStack where
  pos := by simp
  current := by simp [current_push]
  parent id frame hframe := by
    have hsize : s.frames.size = s.current + 1 := h.current.symm
    rw [Scopes.push, Array.getElem?_push] at hframe
    split at hframe
    · -- the new frame, inside the one that was current
      next hid =>
        obtain rfl := Option.some.inj hframe
        rw [hid, hsize]
        rfl
    · exact h.parent id frame hframe

theorem IsStack.unwind (h : s.IsStack) : s.unwind.IsStack := by
  -- the frame that is left is the first one of all
  obtain ⟨root, above, hframes⟩ : ∃ root above, s.frames.toList = root :: above := by
    obtain ⟨below, last, -, hframes⟩ := h.exists_eq
    cases below with
    | nil => exact ⟨last, [], hframes⟩
    | cons root below => exact ⟨root, below ++ [last], hframes⟩
  rw [unwind_eq hframes]
  refine h.of_prefix Nat.zero_lt_one rfl ?_
  rw [hframes]
  exact ⟨above.map (·.parent), rfl⟩

/-- A frame on top of others has the last of them as its parent. -/
theorem IsStack.parent_last (h : s.IsStack) (hframes : s.frames.toList = below ++ [last]) :
    last.parent = outside? below.length := by
  refine h.parent below.length last ?_
  rw [← Array.getElem?_toList, hframes]
  simp

theorem IsStack.pop (h : s.IsStack) : s.pop.IsStack := by
  obtain ⟨below, inner, heq, hframes⟩ := h.exists_eq
  have hparent := h.parent_last hframes
  cases below using List.reverseRecOn with
  | nil =>
    -- the root alone
    rw [heq, pop_root, ← heq]
    exact h
  | append_singleton below outer =>
    rw [heq, pop_ofFrames (by simpa [outside?] using hparent)]
    refine h.of_prefix (by simp [depth, ofFrames]) (by simp [depth, ofFrames]) ?_
    -- the frames that are left have the parents that they had
    rw [hframes]
    exact ⟨[inner.parent], by simp [ofFrames]⟩

/-! ### Each operation does what it does to the environments -/

theorem environment_fresh (parent : Option Nat) (receiver : Option Value) :
    (Frame.fresh parent receiver).environment = .fresh receiver := rfl

theorem environment_insert (frame : Frame) (name : String) (binding : Binding) :
    { frame with bindings := frame.bindings.insert name binding }.environment =
      frame.environment.withSymbol name binding := by
  -- the names of a frame are a function here, and inserting changes it in one place
  have hsymbols : (frame.bindings.insert name binding).get? = fun other =>
      if other = name then some binding else frame.bindings.get? other :=
    funext fun other => Entries.get?_insert frame.bindings name other binding
  rw [Frame.environment, hsymbols]
  rfl

theorem environment_insertClass (frame : Frame) (decl : ClassDecl) :
    { frame with classes := frame.classes.insert decl.name decl }.environment =
      frame.environment.withClass decl := by
  have hclasses : (frame.classes.insert decl.name decl).get? = fun other =>
      if other = decl.name then some decl else frame.classes.get? other :=
    funext fun other => Entries.get?_insert frame.classes decl.name other decl
  rw [Frame.environment, hclasses]
  rfl

theorem IsStack.environments_modifyCurrent (h : s.IsStack) {f : Frame → Frame}
    {g : Environment → Environment} (hf : ∀ frame, (f frame).environment = g frame.environment) :
    (s.modifyCurrent f).environments = s.environments.modifyInner g := by
  obtain ⟨below, last, heq, -⟩ := h.exists_eq
  rw [heq, modifyCurrent_ofFrames, environments_ofFrames, environments_ofFrames, hf]
  rfl

/-- What the current frame has is what the innermost environment has. -/
theorem IsStack.bind_current (h : s.IsStack) {α : Type} (look : Environment → Option α) :
    (s.frames[s.current]?).bind (fun frame => look frame.environment) =
      s.environments.stack.head?.bind look := by
  obtain ⟨below, last, heq, -⟩ := h.exists_eq
  rw [heq, environments_ofFrames]
  simp [ofFrames]

theorem IsStack.any_current (h : s.IsStack) (test : Environment → Bool) :
    (s.frames[s.current]?).any (fun frame => test frame.environment) =
      s.environments.stack.head?.any test := by
  obtain ⟨below, last, heq, -⟩ := h.exists_eq
  rw [heq, environments_ofFrames]
  simp [ofFrames]

theorem IsStack.environments_push (h : s.IsStack) (receiver : Option Value) :
    (s.push receiver).environments = s.environments.push receiver := by
  obtain ⟨below, last, heq, -⟩ := h.exists_eq
  rw [heq, push_ofFrames, environments_ofFrames, environments_ofFrames, environment_fresh]
  simp [Environments.push]

theorem IsStack.environments_pop (h : s.IsStack) : s.pop.environments = s.environments.pop := by
  obtain ⟨below, inner, heq, hframes⟩ := h.exists_eq
  have hparent := h.parent_last hframes
  -- with one frame nothing is dropped, and with more the last one is
  cases below using List.reverseRecOn with
  | nil =>
    rw [heq, pop_root, environments_ofFrames]
    rfl
  | append_singleton below outer =>
    rw [heq, pop_ofFrames (by simpa [outside?] using hparent), environments_ofFrames,
      environments_ofFrames]
    simp only [List.map_append, List.map_cons, List.map_nil, List.reverse_append,
      List.reverse_singleton, List.singleton_append]
    rfl

theorem IsStack.environments_unwind (h : s.IsStack) :
    s.unwind.environments = s.environments.unwind := by
  obtain ⟨below, last, -, hframes⟩ := h.exists_eq
  obtain ⟨root, above, hsplit⟩ : ∃ root above, below ++ [last] = root :: above := by
    cases below with
    | nil => exact ⟨last, [], rfl⟩
    | cons root below => exact ⟨root, below ++ [last], rfl⟩
  -- the root frame is left on both sides, with nothing under way
  rw [hsplit] at hframes
  rw [unwind_eq hframes, environments_ofFrames, environments, hframes]
  simp [Environments.unwind, Frame.environment, Environment.cleared]

theorem IsStack.environments_bind (h : s.IsStack) (name : String) (value : Value)
    (constant : Bool) :
    (s.bind name value constant).map environments = s.environments.bind name value constant := by
  have hinsert : (s.modifyCurrent fun frame =>
      { frame with bindings := frame.bindings.insert name { value, constant } }).environments =
      s.environments.modifyInner (·.withSymbol name { value, constant }) :=
    h.environments_modifyCurrent fun frame => environment_insert frame name _
  have hbound := h.any_current fun env => (env.symbols name).isSome
  change (s.frames[s.current]?).any (·.bindings.contains name) = _ at hbound
  rw [Environments.bind, ← hbound, ← hinsert]
  -- both refuse a global name and a name of the innermost frame
  cases hglobal : s.globals.contains name with
  | true => simp [bind, environments, hglobal, Except.map]
  | false =>
    cases hframe : (s.frames[s.current]?).any (·.bindings.contains name) <;>
      simp [bind, environments, hglobal, hframe, Except.map]

theorem IsStack.environments_bindClass (h : s.IsStack) (decl : ClassDecl) :
    (s.bindClass decl).map environments = s.environments.bindClass decl := by
  have hinsert : (s.modifyCurrent fun frame =>
      { frame with classes := frame.classes.insert decl.name decl }).environments =
      s.environments.modifyInner (·.withClass decl) :=
    h.environments_modifyCurrent fun frame => environment_insertClass frame decl
  have hbound := h.any_current fun env => (env.classes decl.name).isSome
  change (s.frames[s.current]?).any (·.classes.contains decl.name) = _ at hbound
  -- the name is a global, or bound in the current frame, or free
  rw [Environments.bindClass, ← hbound, ← hinsert]
  cases hglobal : s.globals.contains decl.name with
  | true => simp [bindClass, environments, hglobal, Except.map]
  | false =>
    cases hframe : (s.frames[s.current]?).any (·.classes.contains decl.name) <;>
      simp [bindClass, environments, hglobal, hframe, Except.map]

/-! ### Assignments -/

/-- The frame whose variable an assignment would change, and its number. -/
abbrev binder? (s : Scopes) (name : String) : Option (Nat × Binding) :=
  s.search fun id frame => (frame.bindings.get? name).map fun binding => (id, binding)

/-- A search for a name stops at the innermost frame that binds it. -/
theorem IsStack.exists_of_binder? (h : s.IsStack) {name : String} {id : Nat} {binding : Binding}
    (hfound : s.binder? name = some (id, binding)) :
    ∃ below frame above, s.frames.toList = below ++ frame :: above ∧ id = below.length ∧
      frame.bindings.get? name = some binding ∧
      ∀ inner ∈ above, inner.bindings.get? name = none := by
  change s.searchFrom _ s.depth (some s.current) = _ at hfound
  rw [h.searchFrom_current _ (Nat.le_refl _), List.findSome?_eq_some_iff] at hfound
  obtain ⟨inside, ⟨frame, found⟩, outside, hsplit, hpick, hinside⟩ := hfound
  -- read the numbered frames in the order in which they stand
  have hentries := congrArg List.reverse hsplit
  rw [List.reverse_reverse, List.reverse_append, List.reverse_cons, List.append_assoc,
    List.singleton_append] at hentries
  obtain ⟨below, rest, hframes, hbelow, hrest⟩ := List.zipIdx_eq_append_iff.1 hentries
  obtain ⟨_, above, rfl, hentry, habove⟩ := List.zipIdx_eq_cons_iff.1 hrest.symm
  obtain ⟨rfl, rfl⟩ := Prod.mk.inj hentry
  obtain ⟨bound, hbound, heq⟩ := Option.map_eq_some_iff.1 hpick
  obtain ⟨rfl, rfl⟩ := Prod.mk.inj heq
  refine ⟨below, frame, above, hframes, by simp, hbound, ?_⟩
  intro inner hinner
  have hmem : inner ∈ inside.reverse.map (·.1) := by
    rw [habove, List.zipIdx_map_fst]
    exact hinner
  obtain ⟨entry, hentry, rfl⟩ := List.mem_map.1 hmem
  simpa using hinside entry (List.mem_reverse.1 hentry)

/-- A search that finds nothing has looked at every frame. -/
theorem IsStack.unbound_of_binder? (h : s.IsStack) {name : String} (hnone : s.binder? name = none) :
    ∀ frame ∈ s.frames.toList, frame.bindings.get? name = none := by
  change s.searchFrom _ s.depth (some s.current) = _ at hnone
  rw [h.searchFrom_current _ (Nat.le_refl _), List.findSome?_eq_none_iff] at hnone
  intro frame hframe
  -- every frame was looked at, so none of them binds the name
  have hmem : frame ∈ s.frames.toList.zipIdx.map (·.1) := by
    rwa [List.zipIdx_map_fst]
  obtain ⟨entry, hentry, rfl⟩ := List.mem_map.1 hmem
  simpa using hnone entry (List.mem_reverse.2 hentry)

/-- A frame that binds a name, after an assignment to the name. -/
def reassigned (frame : Frame) (name : String) (binding : Binding) (value : Value) : Frame :=
  { frame with bindings := frame.bindings.insert name { binding with value } }

theorem environment_reassigned (frame : Frame) (name : String) (binding : Binding)
    (value : Value) : (reassigned frame name binding value).environment =
      frame.environment.withSymbol name { binding with value } :=
  environment_insert frame name _

/-- An assignment to a name that is not global goes to the innermost frame that binds the name, if
there is one, and to no other. -/
theorem IsStack.assign_cases (h : s.IsStack) {name : String}
    (hglobal : s.globals.contains name = false) (value : Value) :
    ((∀ frame ∈ s.frames.toList, frame.bindings.get? name = none) ∧
      s.assign name value = .error (.undefinedName name)) ∨
    ∃ below frame above binding, s.frames.toList = below ++ frame :: above ∧
      frame.bindings.get? name = some binding ∧
      (∀ inner ∈ above, inner.bindings.get? name = none) ∧
      s.assign name value =
        if binding.constant then .error (.assignedConstant name)
        else .ok { s with
          frames := (below ++ reassigned frame name binding value :: above).toArray } := by
  -- on the frame that the search finds, if there is any
  cases hbinder : s.binder? name with
  | none =>
    refine .inl ⟨h.unbound_of_binder? hbinder, ?_⟩
    simp [assign, hglobal, hbinder]
  | some found =>
    obtain ⟨id, binding⟩ := found
    obtain ⟨below, frame, above, hframes, rfl, hbound, hinside⟩ := h.exists_of_binder? hbinder
    refine .inr ⟨below, frame, above, binding, hframes, hbound, hinside, ?_⟩
    have hmodify : s.frames.modify below.length (reassigned · name binding value) =
        (below ++ reassigned frame name binding value :: above).toArray := by
      rw [← s.frames.toArray_toList, hframes, List.modify_toArray, modify_append]
    rw [← hmodify]
    simp only [assign, hglobal, hbinder]
    rfl

theorem IsStack.exists_of_assign (h : s.IsStack) {name : String} {value : Value}
    (hassign : s.assign name value = .ok t) :
    ∃ below frame above binding, s.frames.toList = below ++ frame :: above ∧
      frame.bindings.get? name = some binding ∧ binding.constant = false ∧
      (∀ inner ∈ above, inner.bindings.get? name = none) ∧
      t = { s with
        frames := (below ++ reassigned frame name binding value :: above).toArray } := by
  -- a global would have been refused
  have hglobal : s.globals.contains name = false := by
    refine Bool.eq_false_iff.2 fun htrue => ?_
    simp [assign, htrue] at hassign
  obtain ⟨-, heq⟩ | ⟨below, frame, above, binding, hframes, hbound, hinside, heq⟩ :=
    h.assign_cases hglobal value
  · -- no frame binds the name, and the assignment fails
    rw [hassign] at heq
    cases heq
  · rw [hassign] at heq
    split at heq
    · cases heq
    · next hvariable =>
      cases heq
      exact ⟨below, frame, above, binding, hframes, hbound, by simpa using hvariable, hinside, rfl⟩

theorem IsStack.environments_assign (h : s.IsStack) (name : String) (value : Value) :
    (s.assign name value).map environments = s.environments.assign name value := by
  cases hglobal : s.globals.contains name with
  | true => simp [Scopes.assign, Environments.assign, environments, hglobal, Except.map]
  -- the name is no global, so both sides look for the innermost frame that binds it
  | false =>
    have hreference : s.environments.assign name value =
        (Environments.assignIn name value s.environments.stack).map fun stack =>
          { s.environments with stack } := by
      simp [Environments.assign, environments, hglobal]
    rw [hreference]
    obtain ⟨hunbound, heq⟩ | ⟨below, frame, above, binding, hframes, hbound, hinside, heq⟩ :=
      h.assign_cases hglobal value
    · rw [heq, Environments.assignIn_of_unbound]
      · rfl
      · simpa [environments, Frame.environment] using hunbound
    · have hstack : s.environments.stack = (above.map Frame.environment).reverse ++
          frame.environment :: (below.map Frame.environment).reverse := by
        simp [environments, hframes]
      rw [heq, hstack, Environments.assignIn_append]
      · have hfirst : frame.environment.symbols name = some binding := hbound
        simp only [Environments.assignIn, hfirst]
        by_cases hconstant : binding.constant = true
        · rw [if_pos hconstant, if_pos hconstant]
          rfl
        · rw [if_neg hconstant, if_neg hconstant]
          simp [Except.map, environments, environment_reassigned]
      · simpa [Frame.environment] using hinside

/-! ### What a stack answers -/

/-- Everything that can be asked of the scopes is answered as the environments answer it. -/
structure AnswersAs (s : Scopes) (envs : Environments) : Prop where
  find : ∀ name, s.find name = envs.find name
  findClass : ∀ name, s.findClass name = envs.findClass name
  receiver? : s.receiver? = envs.receiver?
  turn? : s.turn? = envs.turn?
  parent? : ∀ id, s.parent? id = envs.parent? id

theorem IsStack.parent?_eq (h : s.IsStack) (id : Nat) :
    s.parent? id = if id < s.depth then outside? id else none := by
  rw [Scopes.parent?]
  -- inside the stack the parent is the frame below, and outside of it there is no frame
  by_cases hid : id < s.depth
  · have hframe : s.frames[id]? = some s.frames[id] := Array.getElem?_eq_getElem hid
    rw [hframe, if_pos hid]
    exact h.parent id _ hframe
  · have hbeyond : s.frames[id]? = none := Array.getElem?_eq_none (Nat.le_of_not_lt hid)
    simp only [hbeyond, Option.bind_none, if_neg hid]

theorem IsStack.answersAs (h : s.IsStack) : s.AnswersAs s.environments where
  find name := by
    have hsymbols := h.search_environment (·.symbols name)
    change (s.search fun _ frame => frame.bindings.get? name) = _ at hsymbols
    rw [Scopes.find, Environments.find, hsymbols]
    rfl
  findClass name := by
    have hclasses := h.search_environment (·.classes name)
    change (s.search fun _ frame => frame.classes.get? name) = _ at hclasses
    unfold Scopes.findClass Environments.findClass
    cases hfound : s.environments.stack.findSome? (·.classes name) with
    | some decl => simp only [hclasses, hfound]
    | none => simp only [hclasses, hfound]
  receiver? := h.search_environment (·.receiver)
  turn? := h.search_environment (·.turn)
  parent? id := by
    have hlength : s.environments.stack.length = s.depth := by simp [environments, depth]
    rw [h.parent?_eq, Environments.parent?, hlength]

/-! ### One operation, and many -/

/-- An operation that may fail leads to a stack, and to the environments that the reference says. -/
theorem IsStack.tried (h : s.IsStack) {result : Except Cause Scopes}
    {reference : Except Cause Environments} (hresult : result.map environments = reference)
    (hstack : ∀ t, result = .ok t → t.IsStack) :
    (DecimalScript.tried s result).1 = (DecimalScript.tried s.environments reference).1 ∧
      (DecimalScript.tried s result).2.IsStack ∧
      (DecimalScript.tried s result).2.environments =
        (DecimalScript.tried s.environments reference).2 := by
  -- on the result: a refusal leaves both sides as they were
  subst hresult
  cases result with
  | ok t => exact ⟨rfl, hstack t rfl, rfl⟩
  | error cause => exact ⟨rfl, h, rfl⟩

/-- One operation on the scopes is answered as one on their environments, keeps the stack and
leads to the same environments. -/
theorem IsStack.step (h : s.IsStack) (op : ScopeOp) :
    (s.step op).1 = (s.environments.step op).1 ∧ (s.step op).2.IsStack ∧
      (s.step op).2.environments = (s.environments.step op).2 := by
  -- one case for each operation: what it does to frames it does to environments
  cases op with
  | push receiver => exact ⟨rfl, h.push receiver, h.environments_push receiver⟩
  | pop => exact ⟨rfl, h.pop, h.environments_pop⟩
  | unwind => exact ⟨rfl, h.unwind, h.environments_unwind⟩
  | bind name value constant =>
    exact h.tried (h.environments_bind name value constant) fun t ht =>
      h.of_kept (kept_bind ht) Frame.Filled.toExtended
  | assign name value =>
    exact h.tried (h.environments_assign name value) fun t ht =>
      h.of_kept (kept_assign ht) Frame.Kept.toExtended
  | bindClass decl =>
    exact h.tried (h.environments_bindClass decl) fun t ht =>
      h.of_kept (kept_bindClass ht) Frame.Filled.toExtended
  | setTurn index value =>
    exact ⟨rfl, h.modifyCurrent fun _ => rfl, h.environments_modifyCurrent fun _ => rfl⟩
  | setResult value =>
    exact ⟨rfl, h.modifyCurrent fun _ => rfl, h.environments_modifyCurrent fun _ => rfl⟩
  | takeResult =>
    exact ⟨congrArg Except.ok (h.bind_current (·.result)), h.modifyCurrent fun _ => rfl,
      h.environments_modifyCurrent fun _ => rfl⟩

/-- An operation that fails changes nothing. -/
theorem step_of_error {op : ScopeOp} {cause : Cause} (hfail : (s.step op).1 = .error cause) :
    (s.step op).2 = s := by
  -- only three of the operations can be refused, and these are tried on the scopes
  have htried : ∀ result : Except Cause Scopes,
      (DecimalScript.tried s result).1 = .error cause →
        (DecimalScript.tried s result).2 = s := by
    intro result hresult
    cases result with
    | ok t => cases hresult
    | error _ => rfl
  cases op with
  | bind name value constant => exact htried _ hfail
  | assign name value => exact htried _ hfail
  | bindClass decl => exact htried _ hfail
  | push | pop | unwind | setTurn | setResult | takeResult => cases hfail

end Scopes

/-- Operations in any order on the root alone are answered as they are by a stack of environments,
and the scopes that they lead to stand for its environments. They are a stack of frames in which a
search looks at each frame once, the last one first, however many steps it may take. What they
answer when asked is what the environments answer. An assignment changes a variable of the
innermost frame that binds the name. What is popped is the last frame and never the root, and its
implicit result passes to the frame below if it holds one. An operation that fails changes nothing.
-/
theorem scopes_refine_environments (globals : Entries Value) (ops : List ScopeOp) :
    let run := runOps Scopes.step ops (.ofGlobals globals)
    let reference := runOps Environments.step ops (.ofGlobals globals)
    let scopes := run.2
    run.1 = reference.1 ∧ scopes.environments = reference.2 ∧
    scopes.IsStack ∧ scopes.AnswersAs reference.2 ∧
    (∀ {α : Type} (pick : Nat → Frame → Option α) (steps : Nat), scopes.depth ≤ steps →
      scopes.searchFrom pick steps (some scopes.current) =
        scopes.frames.toList.zipIdx.reverse.findSome? fun entry => pick entry.2 entry.1) ∧
    (∀ name value next, scopes.assign name value = .ok next →
      ∃ below frame above binding, scopes.frames.toList = below ++ frame :: above ∧
        frame.bindings.get? name = some binding ∧ binding.constant = false ∧
        (∀ inner ∈ above, inner.bindings.get? name = none) ∧
        next = { scopes with
          frames := (below ++ { frame with
            bindings := frame.bindings.insert name { binding with value } } :: above).toArray }) ∧
    (∀ root, scopes.frames.toList = [root] → scopes.pop = scopes) ∧
    (∀ below outer inner, scopes.frames.toList = below ++ [outer, inner] →
      scopes.pop = { scopes with
        frames := (below ++ [{ outer with result := inner.result.or outer.result }]).toArray
        current := below.length }) ∧
    (∀ op cause, (scopes.step op).1 = .error cause → (scopes.step op).2 = scopes) := by
  intro run reference scopes
  -- the operations keep two things: there is a stack, and it stands for the environments
  obtain ⟨hanswers, hstack, henvs⟩ := runOps_related
    (fun (s : Scopes) (envs : Environments) => s.IsStack ∧ s.environments = envs)
    (by rintro s _ op ⟨h, rfl⟩; exact h.step op)
    ops ⟨Scopes.isStack_ofGlobals globals, rfl⟩
  change scopes.IsStack at hstack
  change scopes.environments = reference.2 at henvs
  refine ⟨hanswers, henvs, hstack, henvs ▸ hstack.answersAs,
    fun pick steps hsteps => hstack.searchFrom_current pick hsteps,
    fun name value next hassign => hstack.exists_of_assign hassign,
    fun root hframes => ?_, fun below outer inner hframes => ?_,
    fun op cause hfail => Scopes.step_of_error hfail⟩
  · -- the root frame is not popped
    rw [hstack.eq_ofFrames (show scopes.frames.toList = [] ++ [root] from hframes)]
    exact Scopes.pop_root root
  · -- the inner frame is dropped, and its result is passed on
    have hsplit : scopes.frames.toList = (below ++ [outer]) ++ [inner] := by simpa using hframes
    have hparent : inner.parent = some below.length := by
      simpa [outside?] using hstack.parent_last hsplit
    have hpop : (Scopes.ofFrames scopes.globals (below ++ [outer]) inner).pop =
        Scopes.ofFrames scopes.globals below { outer with
          result := inner.result.or outer.result } := Scopes.pop_ofFrames hparent
    rwa [← hstack.eq_ofFrames hsplit] at hpop

end DecimalScript
