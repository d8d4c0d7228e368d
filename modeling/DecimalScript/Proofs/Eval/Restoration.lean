import DecimalScript.Proofs.Eval.Course
import DecimalScript.Proofs.Scope.Kept

/-!
# Evaluation restores the frames and the call stack

However an evaluation ends, it leaves the frames and the call stack as it found them, but for what
its role allows it to do in the current frame (`evaluation_restores`). The proof is an induction on
the course of the evaluation (`Session.Course.kept`): each change keeps what its role keeps, and at
a call the body's frame is `Frame.Filled`, so that nothing of it passes to the caller.

The one hypothesis is that there is a root frame to come back to. It holds of a fresh session, and
no program, whether it succeeds or fails, makes it false (`depth_pos_of_execute`).
-/

namespace DecimalScript

/-- What an evaluation of the role may do to the current frame. -/
def Role.change : Role → Frame → Frame → Prop
  | expression => Frame.Kept
  | body => Frame.Filled
  | statement => Frame.Extended

theorem Role.change_trans (role : Role) {f g h : Frame} (hfg : role.change f g)
    (hgh : role.change g h) : role.change f h := by
  cases role with
  | expression => exact Frame.Kept.trans hfg hgh
  | body => exact Frame.Filled.trans hfg hgh
  | statement => exact Frame.Extended.trans hfg hgh

/-- What an evaluation keeps of the session, where `change` bounds what happens to the current
frame. -/
structure Session.Kept (change : Frame → Frame → Prop) (before after : Session) : Prop where
  scopes : before.scopes.Kept change after.scopes
  calls : after.calls = before.calls

namespace Session

/-- **Every course keeps what its role keeps.** -/
theorem Course.kept {role : Role} {s t : Session} (h : Course role s t)
    (hroot : 0 < s.scopes.depth) : s.Kept role.change t := by
  induction h with
  | @trans role s t u _ _ ihst ihtu =>
    -- the second part starts with as many frames as the first, so with a root frame
    have hst := ihst hroot
    have htu := ihtu (by rwa [hst.scopes.depth])
    exact ⟨hst.scopes.trans role.change_trans htu.scopes, htu.calls.trans hst.calls⟩
  | body_of_expression _ ih =>
    exact ⟨(ih hroot).scopes.mono Frame.Kept.filled, (ih hroot).calls⟩
  | statement_of_body _ ih =>
    exact ⟨(ih hroot).scopes.mono Frame.Filled.toExtended, (ih hroot).calls⟩
  | @elsewhere s t hscopes hcalls =>
    refine ⟨?_, hcalls⟩
    rw [hscopes]
    exact .refl Frame.Kept.refl s.scopes
  | assign h => exact ⟨Scopes.kept_assign h, rfl⟩
  | bind h => exact ⟨Scopes.kept_bind h, rfl⟩
  | bindClass h => exact ⟨Scopes.kept_bindClass h, rfl⟩
  | setResult s value => exact ⟨Scopes.kept_setResult s.scopes value, rfl⟩
  | takeResult _ ih => exact ⟨(ih hroot).scopes.takeResult, (ih hroot).calls⟩
  | call hpush _ ih =>
    refine ⟨(ih hroot).scopes, ?_⟩
    rw [(ih hroot).calls]
    exact CallStack.pop_of_push hpush
  | callFrame _ ih =>
    -- the frame of a call starts without an implicit result, so it ends without one
    have hbody := ih (by simp)
    exact ⟨hbody.scopes.pop_call hroot rfl rfl, hbody.calls⟩
  | block _ ih =>
    -- the frame of a block may hand its implicit result on
    have hblock := ih (by simp)
    exact ⟨hblock.scopes.pop_block hroot rfl, hblock.calls⟩
  | turn _ ih =>
    have hturn := ih (by simp [Scopes.setTurn])
    refine ⟨?_, hturn.calls⟩
    have hscopes := hturn.scopes
    rw [Scopes.setTurn_push] at hscopes
    exact hscopes.pop_block hroot rfl

end Session

/-- **Evaluation restores the frames and the call stack on every outcome.** Whether it ends with a
value or with a failure, the call stack is the same and the frames are the same in number, with the
same one current. An expression leaves every frame as it was but for the values of variables, and
so do a statement and a block with every frame but the current one, to which they may add names and
classes and which may hold another implicit result. -/
theorem evaluation_restores {fuel : Nat} {session : Session} (hroot : 0 < session.scopes.depth) :
    (∀ e after, ((evalExpr fuel e).run session).session? = some after →
      session.Kept Frame.Kept after) ∧
    (∀ stmt after, ((execStmt fuel stmt).run session).session? = some after →
      session.Kept Frame.Extended after) ∧
    (∀ block after, ((runBlock (nestedWith fuel) block).run session).session? = some after →
      session.Kept Frame.Extended after) := by
  -- what is kept is read off the course of each of the three
  have hnested := nestedWith_follows fuel
  refine ⟨fun e after h => ?_, fun stmt after h => ?_, fun block after h => ?_⟩
  · exact (hnested.eval e session after h).kept hroot
  · exact (hnested.exec stmt session after h).kept hroot
  · exact (runBlock_follows hnested block session after h).kept hroot

/-- A program with a call that fails after the callee has bound its parameter and set its implicit
result. -/
def failingProgram : Block :=
  [{ line := 1
     kind := .function
      { name := "f"
        params := [⟨"x", false⟩]
        body := [⟨.evaluate (.name "x"), 2⟩, ⟨.evaluate (.name "y"), 3⟩] } },
    ⟨.evaluate (.call (.name "f") [.string "a"]), 4⟩]

/-- The failure within the callee leaves no frame, no call and no implicit result behind. -/
theorem failingProgram_restores :
    ∃ after, ((runBlock (nestedWith 4) failingProgram).run (.fresh .empty .empty)).session? =
        some after ∧
      ((runBlock (nestedWith 4) failingProgram).run (.fresh .empty .empty)).cause? =
        some (.undefinedName "y") ∧
      0 < (Session.fresh .empty .empty).scopes.depth ∧
      (Session.fresh .empty .empty).Kept Frame.Extended after := by
  have hends : ((runBlock (nestedWith 4) failingProgram).run
      (.fresh .empty .empty)).session?.isSome = true := by decide +kernel
  obtain ⟨after, hafter⟩ := Option.isSome_iff_exists.1 hends
  -- the frame that the program needs is the root frame, which a new session has
  have hroot : 0 < (Session.fresh .empty .empty).scopes.depth := by decide
  exact ⟨after, hafter, by decide +kernel, hroot, (evaluation_restores hroot).2.2 _ _ hafter⟩

/-! ### The root frame -/

theorem Scopes.depth_unwind {s : Scopes} (hroot : 0 < s.depth) : 0 < s.unwind.depth := by
  have hsize : s.unwind.depth = min 1 s.depth := by simp [depth, unwind]
  omega

/-- No program, whether it succeeds or fails, drops the root frame. -/
theorem depth_pos_of_execute {fuel : Nat} {input : Input} {session after : Session}
    (hroot : 0 < session.scopes.depth)
    (h : (session.execute fuel input).session? = some after) : 0 < after.scopes.depth := by
  have hprogram := runProgram_follows (nestedWith_follows fuel) input.program
  have hkept : ∀ t, ((runProgram (nestedWith fuel) input.program).located.run
      (session.start input)).session? = some t → 0 < t.scopes.depth := fun t ht => by
    rw [((hprogram.located _ t ht).kept hroot).scopes.depth]
    exact hroot
  obtain ⟨value, hdone⟩ | ⟨t, ht, rfl⟩ := Exec.session?_afterFailure h
  · exact hkept after (by rw [hdone]; rfl)
  · -- upon failure the scopes are unwound to the root frame
    exact Scopes.depth_unwind (hkept t ht)

end DecimalScript
