import DecimalScript.Proofs.Eval.Restoration
import DecimalScript.Proofs.Scope.Implicit

/-!
# Bodies, programs and the sessions between them

What a body or a program results in depends on how its block ended and on the implicit result of the
frame it ran in (`Flow.resultOf?`).

A host runs programs in a session one after the other. Between them the session is at rest
(`Session.Hosted.atRest`): the root frame is the only one, and it holds names and classes and nothing
else. A program that ends with a value takes the implicit result out of it, and after one that fails
the frames are unwound to it.
-/

namespace DecimalScript

/-! ### What an activation results in -/

/-- The result of a body or a program that ended in this way: what a return gives, or else the
implicit result, or else null. A break or a continue that no loop took gives none. -/
def Flow.resultOf? (implicit : Option Value) : Flow → Option Value
  | normal => some (implicit.getD .null)
  | result value => some value
  | breakLoop => none
  | continueLoop => none

/-- The session without the implicit result of the current frame. -/
def Session.withoutResult (session : Session) : Session :=
  { session with scopes := session.scopes.takeResult.2 }

theorem run_finish_eq_done_iff {flow : Flow} {implicit : Option Value} {s t : Session}
    {value : Value} :
    (finish flow implicit).run s = .done value t ↔
      flow.resultOf? implicit = some value ∧ t = s := by
  -- an interrupt that is left over is no result, and a normal end has one in any case
  cases flow with
  | normal => simp [finish, Flow.resultOf?, eq_comm]
  | result returned => simp [finish, Flow.resultOf?, eq_comm]
  | breakLoop => simp [finish, Flow.resultOf?, Exec.run_located_eq_done_iff]
  | continueLoop => simp [finish, Flow.resultOf?, Exec.run_located_eq_done_iff]

theorem run_runProgram_eq_done_iff {nested : Nested} {program : Block} {s t : Session}
    {value : Value} :
    (runProgram nested program).run s = .done value t ↔
      ∃ flow u, (runBlock nested program).run s = .done flow u ∧
        flow.resultOf? u.scopes.implicit? = some value ∧ t = u.withoutResult := by
  rw [runProgram, Exec.run_bind_eq_done_iff]
  -- the result is taken out of the frame in both cases of the end
  refine exists_congr fun flow => exists_congr fun u => and_congr_right fun _ => ?_
  exact run_finish_eq_done_iff

/-- A body ends with a value as a program does: what it does otherwise upon failure does not
matter. -/
theorem run_runBody_eq_done_iff {nested : Nested} {body : Block} {s t : Session} {value : Value} :
    (runBody nested body).run s = .done value t ↔
      ∃ flow u, (runBlock nested body).run s = .done flow u ∧
        flow.resultOf? u.scopes.implicit? = some value ∧ t = u.withoutResult := by
  rw [runBody, Exec.run_bind_eq_done_iff]
  refine exists_congr fun flow => exists_congr fun u => ?_
  rw [Exec.run_afterFailure_eq_done_iff]
  exact and_congr_right fun _ => run_finish_eq_done_iff

/-! ### Sessions between programs -/

/-- The frame holds names and classes and nothing else. -/
structure Frame.Bare (frame : Frame) : Prop where
  receiver : frame.receiver = none
  result : frame.result = none
  turn : frame.turn = none

/-- No program runs: the root frame is the only one, and it holds names and classes only. -/
structure Session.AtRest (session : Session) : Prop where
  depth : session.scopes.depth = 1
  current : session.scopes.current = 0
  bare : ∀ frame, session.scopes.frames[0]? = some frame → frame.Bare

/-- The sessions of a host that runs programs in a fresh session one after the other, whether they
end with a value or with a failure. Between programs it may change what programs can import, call
functions, and forget what was printed and probed. -/
inductive Session.Hosted : Session → Prop where
  | fresh {s : Session} {globals : Entries Value} (h : s.scopes = .ofGlobals globals) : Hosted s
  | between {s t : Session} (hs : Hosted s) (h : Session.Course .expression s t) : Hosted t
  | execute {s t : Session} (hs : Hosted s) {fuel : Nat} {input : Input}
      (h : (s.execute fuel input).session? = some t) : Hosted t

namespace Session

variable {s t : Session}

theorem AtRest.live (h : s.AtRest) : s.scopes.Live := by
  rw [Scopes.Live, h.depth, h.current]
  exact Nat.one_pos

theorem AtRest.implicit (h : s.AtRest) : s.scopes.implicit? = none := by
  obtain ⟨frame, hframe⟩ := h.live.getElem?
  rw [Scopes.implicit?, hframe]
  rw [h.current] at hframe
  exact (h.bare frame hframe).result

/-- The root frame of a session that ran in the one at rest. -/
theorem AtRest.exists_root {change : Frame → Frame → Prop} (hs : s.AtRest) (h : s.Kept change t) :
    ∃ before root, before.Bare ∧ change before root ∧ t.scopes.frames[0]? = some root := by
  obtain ⟨before, hbefore⟩ := hs.live.getElem?
  obtain ⟨root, hroot, hchange⟩ := h.scopes.inner before hbefore
  rw [hs.current] at hbefore hroot
  exact ⟨before, root, hs.bare before hbefore, hchange, hroot⟩

/-- What runs in the root frame and leaves no implicit result there leaves the session at rest. -/
theorem AtRest.of_kept {change : Frame → Frame → Prop} (hs : s.AtRest) (h : s.Kept change t)
    (hextended : ∀ {f g}, change f g → f.Extended g) (himplicit : t.scopes.implicit? = none) :
    t.AtRest := by
  -- the root frame is the only one, so what is said of it is said of all
  have hcurrent := h.scopes.current.trans hs.current
  refine ⟨h.scopes.depth.trans hs.depth, hcurrent, fun frame hframe => ?_⟩
  obtain ⟨before, root, hbefore, hchange, hroot⟩ := hs.exists_root h
  obtain rfl : root = frame := Option.some.inj (hroot.symm.trans hframe)
  rw [Scopes.implicit?, hcurrent, hroot] at himplicit
  have hroot' := hextended hchange
  exact ⟨hroot'.receiver.trans hbefore.receiver, himplicit, hroot'.turn.trans hbefore.turn⟩

theorem AtRest.of_course (hs : s.AtRest) (h : Course .expression s t) : t.AtRest := by
  have hkept := h.kept hs.live.depth_pos
  exact hs.of_kept hkept Frame.Kept.toExtended
    ((hkept.scopes.implicit? hs.live).trans hs.implicit)

/-- Upon failure the implicit result of the root frame and its turn are dropped. -/
theorem AtRest.recover (hs : s.AtRest) (h : s.Kept Frame.Extended t) : t.recover.AtRest := by
  obtain ⟨before, root, hbefore, hchange, hroot⟩ := hs.exists_root h
  -- there was one frame before, so unwinding drops none of those that are left
  have hdepth : t.scopes.frames.size = 1 := h.scopes.depth.trans hs.depth
  refine ⟨?_, rfl, fun frame hframe => ?_⟩
  · show (t.scopes.unwind.frames).size = 1
    simp [Scopes.unwind, hdepth]
  · have htake : (t.scopes.frames.take 1)[0]? = some root := by
      have hwhole : t.scopes.frames.take 1 = t.scopes.frames := by
        rw [← hdepth, Array.take_eq_extract, Array.extract_size]
      rw [hwhole, hroot]
    have hunwound : t.scopes.unwind.frames[0]? = some { root with result := none, turn := none } := by
      rw [Scopes.unwind, Array.getElem?_modify, if_pos rfl, htake]
      rfl
    obtain rfl := Option.some.inj (hunwound.symm.trans hframe)
    exact ⟨hchange.receiver.trans hbefore.receiver, rfl, rfl⟩

/-- **A program leaves the session at rest**, whether it ends with a value or with a failure. -/
theorem AtRest.execute (hs : s.AtRest) {fuel : Nat} {input : Input}
    (h : (s.execute fuel input).session? = some t) : t.AtRest := by
  -- the block alone may leave its result in the root frame; the program takes it out
  have hroot : 0 < (s.start input).scopes.depth := hs.live.depth_pos
  have hblock := runBlock_follows (nestedWith_follows fuel) input.program
  have hprogram := runProgram_follows (nestedWith_follows fuel) input.program
  obtain ⟨value, hdone⟩ | ⟨u, hu, rfl⟩ := Exec.session?_afterFailure h
  · -- the implicit result was taken out of the root frame
    rw [Exec.run_located_eq_done_iff, run_runProgram_eq_done_iff] at hdone
    obtain ⟨flow, u, hu, -, rfl⟩ := hdone
    have hkept := (hblock _ u (by rw [hu]; rfl)).kept hroot
    have htaken : s.Kept Frame.Filled u.withoutResult := ⟨hkept.scopes.takeResult, hkept.calls⟩
    exact hs.of_kept htaken Frame.Filled.toExtended (Scopes.implicit?_takeResult u.scopes)
  · -- it may still be there, and goes when the frames are unwound
    have hkept := (hprogram.located _ u hu).kept hroot
    have hbefore : s.Kept Frame.Extended u := ⟨hkept.scopes, hkept.calls⟩
    exact hs.recover hbefore

theorem Hosted.atRest (h : s.Hosted) : s.AtRest := by
  -- on how the session was made
  induction h with
  | fresh hglobals =>
    refine ⟨?_, ?_, fun frame hframe => ?_⟩
    · rw [hglobals]
      rfl
    · rw [hglobals]
      rfl
    · rw [hglobals] at hframe
      cases hframe
      exact ⟨rfl, rfl, rfl⟩
  | between _ hcourse ih => exact ih.of_course hcourse
  | execute _ hends ih => exact ih.execute hends

end Session

end DecimalScript
