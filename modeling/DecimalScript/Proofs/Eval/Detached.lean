import DecimalScript.Proofs.Eval.Congruence

/-!
# Steps that leave the call stack alone

Most steps of the evaluator neither read nor change the call stack: with another call stack they end
with the same value or the same failure, and in the same session but for the call stack
(`Exec.Detached`). Only calls and constructions are not among them.
-/

namespace DecimalScript

variable {α : Type}

/-- The outcome with its session changed. -/
def Outcome.mapSession (f : Session → Session) : Outcome α → Outcome α
  | done value session => .done value (f session)
  | failed failure session => .failed failure (f session)
  | outOfFuel => .outOfFuel

namespace Exec

variable {x : Exec α}

/-- The evaluation neither reads nor changes the call stack. -/
def Detached (x : Exec α) : Prop :=
  ∀ s calls, x.run { s with calls } = (x.run s).mapSession fun t => { t with calls }

theorem Detached.pure (value : α) : (pure value : Exec α).Detached :=
  fun _ _ => rfl

theorem Detached.fail (cause : Cause) : (Exec.fail cause : Exec α).Detached :=
  fun _ _ => rfl

theorem Detached.read {f : Session → α} (hf : ∀ s calls, f { s with calls } = f s) :
    (Exec.read f).Detached := by
  intro s calls
  rw [run_read, run_read, hf]
  rfl

theorem Detached.modify {f : Session → Session}
    (hf : ∀ s calls, f { s with calls } = { f s with calls }) : (Exec.modify f).Detached := by
  intro s calls
  rw [run_modify, run_modify, hf]
  rfl

theorem Detached.onHeap (f : Heap → α × Heap) : (Exec.onHeap f).Detached :=
  fun _ _ => rfl

theorem Detached.tryHeap (f : Heap → Except Cause (α × Heap)) : (Exec.tryHeap f).Detached := by
  intro s calls
  simp only [Exec.tryHeap, Exec.run]
  cases f s.heap <;> rfl

theorem Detached.tryScopes (f : Scopes → Except Cause Scopes) : (Exec.tryScopes f).Detached := by
  intro s calls
  simp only [Exec.tryScopes, Exec.run]
  cases f s.scopes <;> rfl

/-- The session that such a step ends with has the call stack of the one it started with. -/
theorem Detached.calls_eq (hx : x.Detached) {s t : Session}
    (h : (x.run s).session? = some t) : t.calls = s.calls := by
  -- the run is compared with itself, with the call stack that it has
  have hself := hx s s.calls
  rw [show ({ s with calls := s.calls } : Session) = s from rfl] at hself
  cases hrun : x.run s with
  | done value u =>
    rw [hrun] at h hself
    obtain rfl : u = t := Option.some.inj h
    have heq := congrArg Session.calls (Outcome.done.inj hself).2
    exact heq
  | failed failure u =>
    rw [hrun] at h hself
    obtain rfl : u = t := Option.some.inj h
    have heq := congrArg Session.calls (Outcome.failed.inj hself).2
    exact heq
  | outOfFuel =>
    rw [hrun] at h
    cases h

/-- No primitive step of the evaluator looks at the call stack. -/
theorem IsStep.detached (hx : x.IsStep) : x.Detached := by
  cases hx with
  | pure value => exact .pure value
  | fail cause => exact .fail cause
  | outOfFuel => exact fun _ _ => rfl
  | read hf => exact .read hf
  | onHeap f => exact .onHeap f
  | tryHeap f => exact .tryHeap f
  | setHeap f => exact .modify fun _ _ => rfl
  | print f => exact .modify fun _ _ => rfl
  | probe tag value => exact .modify fun _ _ => rfl
  | setLine line => exact .modify fun _ _ => rfl
  | bindName name value constant => exact .tryScopes _
  | bindClass decl => exact .tryScopes _
  | assign name value => exact .tryScopes _
  | setTurn index value => exact .modify fun _ _ => rfl
  | setResult value => exact .modify fun _ _ => rfl
  | takeResult => exact fun _ _ => rfl

end Exec

end DecimalScript
