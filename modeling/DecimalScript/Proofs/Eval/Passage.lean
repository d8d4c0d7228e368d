import DecimalScript.Proofs.Eval.Congruence
import DecimalScript.Proofs.Scope.Environment

/-!
# What an evaluation passes through

`y.Runs u x s` says that the evaluation `x`, started in the session `s`, runs the evaluation `y`
within itself, started in the session `u`. It follows the way in which `x` is put together: a part
that comes second is run in the session in which the first one ended, and what runs in a frame or in
a call of its own is run with the frame or the call pushed. Nothing is said of how `x` ends, so an
evaluation that fails or goes on without end passes through sessions too (`Exec.PassesThrough`).

Two things carry over from the parts to the whole. A property of sessions that no step of the
evaluator ends (`Session.Invariant`) holds of every session that a run passes through, if it holds
where the run starts (`Invariant.of_passesThrough`). And a part that fails with a located failure
makes the whole fail with it (`Runs.failed_of_failed`), since nothing in the evaluator turns a
failure into anything else.
-/

namespace DecimalScript

variable {α β : Type}

/-! ### Failures that pass through -/

namespace Exec

variable {x : Exec α} {s t : Session} {failure : Failure}

theorem run_located_eq_failed_iff :
    x.located.run s = .failed failure t ↔
      ∃ raised, x.run s = .failed raised t ∧ failure = t.locate raised := by
  simp only [located, run]
  -- only a failure is located
  cases x s with
  | failed raised u =>
    constructor
    · rintro ⟨⟩
      exact ⟨raised, rfl, rfl⟩
    · rintro ⟨_, ⟨⟩, rfl⟩
      rfl
  | _ => simp

theorem run_afterFailure_eq_failed_iff {f : Session → Session} :
    (x.afterFailure f).run s = .failed failure t ↔
      ∃ u, x.run s = .failed failure u ∧ t = f u := by
  simp only [afterFailure, run]
  -- only after a failure is anything done
  cases x s with
  | failed raised u =>
    constructor
    · rintro ⟨⟩
      exact ⟨u, rfl, rfl⟩
    · rintro ⟨_, ⟨⟩, rfl⟩
      rfl
  | _ => simp

theorem run_afterwards_eq_failed_iff {f : Session → Session} :
    (x.afterwards f).run s = .failed failure t ↔
      ∃ u, x.run s = .failed failure u ∧ t = f u := by
  -- upon failure there is no difference
  rw [← run_afterFailure_eq_failed_iff]
  simp only [afterwards, afterFailure, run]
  cases x s <;> simp

/-- The line that the statement set is the one that a failure without a location gets. -/
theorem run_atLine_eq_failed_iff {line : Nat} :
    (Exec.atLine line x).run s = .failed failure t ↔
      ∃ raised u, x.run { s with line } = .failed raised u ∧
        failure = ({ u with line } : Session).locate raised ∧ t = { u with line } := by
  -- the line is set before and again after, and the failure is located in between
  change (x.afterFailure fun session => { session with line }).located.run { s with line } = _ ↔ _
  rw [run_located_eq_failed_iff]
  constructor
  · rintro ⟨raised, hraised, rfl⟩
    obtain ⟨u, hu, rfl⟩ := run_afterFailure_eq_failed_iff.1 hraised
    exact ⟨raised, u, hu, rfl, rfl⟩
  · rintro ⟨raised, u, hu, rfl, rfl⟩
    exact ⟨raised, run_afterFailure_eq_failed_iff.2 ⟨u, hu, rfl⟩, rfl⟩

theorem run_inFrame_eq_failed_iff {receiver : Option Value} :
    (Exec.inFrame receiver x).run s = .failed failure t ↔
      ∃ u, x.run { s with scopes := s.scopes.push receiver } = .failed failure u ∧
        t = { u with scopes := u.scopes.pop } := by
  rw [inFrame, run_bind, run_modify]
  exact run_afterwards_eq_failed_iff

/-- A failure that has a location passes through as it is. -/
theorem run_located_of_location {location : Location} (hfailed : x.run s = .failed failure t)
    (hlocation : failure.location = some location) : x.located.run s = .failed failure t :=
  run_located_eq_failed_iff.2 ⟨failure, hfailed, (Session.locate_of_location hlocation t).symm⟩

end Exec

/-! ### Properties that no step ends -/

/-- A property of sessions that every step of the evaluator keeps. -/
structure Session.Invariant (holds : Session → Prop) : Prop where
  /-- It is a property of the scopes and of the program that runs. -/
  elsewhere {s : Session} (hs : holds s) (t : Session) : t.scopes = s.scopes →
    t.file = s.file → t.source = s.source → holds t
  /-- Every operation on the scopes keeps it. -/
  scopes {s : Session} (op : ScopeOp) : holds s → holds { s with scopes := (s.scopes.step op).2 }

variable {holds : Session → Prop}

/-- A step on the scopes that may fail leaves them as the operation does. -/
theorem Session.Invariant.tryScopes (hinv : Session.Invariant holds) {s t : Session} (op : ScopeOp)
    {f : Scopes → Except Cause Scopes}
    (hop : s.scopes.step op = tried s.scopes (f s.scopes)) (hs : holds s)
    (h : ((Exec.tryScopes f).run s).session? = some t) : holds t := by
  have hstep := hinv.scopes op hs
  rw [hop] at hstep
  simp only [Exec.tryScopes, Exec.run] at h
  -- whether the operation went through or not, the scopes are those of its step
  cases hf : f s.scopes with
  | ok scopes =>
    rw [hf] at h hstep
    cases h
    exact hstep
  | error cause =>
    rw [hf] at h
    cases h
    exact hs

namespace Session.Invariant

variable (hinv : Session.Invariant holds)
include hinv

theorem of_isStep {x : Exec α} (hx : x.IsStep) {s t : Session} (hs : holds s)
    (h : (x.run s).session? = some t) : holds t := by
  -- what concerns no scopes keeps what holds, as long as the program is the same
  have helsewhere : ∀ u : Session, u.scopes = s.scopes → u.file = s.file → u.source = s.source →
      holds u := hinv.elsewhere hs
  cases hx with
  | pure value => cases h; exact hs
  | fail cause => cases h; exact hs
  | outOfFuel => cases h
  | read hf => cases h; exact hs
  | onHeap f => cases h; exact helsewhere _ rfl rfl rfl
  | tryHeap f =>
    simp only [Exec.tryHeap, Exec.run] at h
    split at h <;> cases h <;> exact helsewhere _ rfl rfl rfl
  | setHeap f => cases h; exact helsewhere _ rfl rfl rfl
  | print f => cases h; exact helsewhere _ rfl rfl rfl
  | probe tag value => cases h; exact helsewhere _ rfl rfl rfl
  | setLine line => cases h; exact helsewhere _ rfl rfl rfl
  | bindName name value constant => exact hinv.tryScopes (.bind name value constant) rfl hs h
  | bindClass decl => exact hinv.tryScopes (.bindClass decl) rfl hs h
  | assign name value => exact hinv.tryScopes (.assign name value) rfl hs h
  | setTurn index value => cases h; exact hinv.scopes (.setTurn index value) hs
  | setResult value => cases h; exact hinv.scopes (.setResult value) hs
  | takeResult => cases h; exact hinv.scopes .takeResult hs

/-- **What no step ends, no evaluation ends.** -/
theorem of_built {x : Exec α} (hx : x.Built) {s t : Session} (hs : holds s)
    (h : (x.run s).session? = some t) : holds t := by
  -- on how the evaluation is built
  induction hx generalizing s t with
  | step hx => exact hinv.of_isStep hx hs h
  | @bind α β x f _ _ ihx ihf =>
    rw [Exec.run_bind] at h
    cases hrun : x.run s with
    | done value u =>
      rw [hrun] at h
      exact ihf value (ihx hs (by rw [hrun]; rfl)) h
    | failed failure u =>
      rw [hrun] at h
      exact ihx hs (by rw [hrun]; exact h)
    | outOfFuel =>
      rw [hrun] at h
      cases h
  | located _ ih => exact ih hs (by rwa [Exec.session?_located] at h)
  | droppingResult _ ih =>
    obtain ⟨value, hdone⟩ | ⟨u, hu, rfl⟩ := Exec.session?_afterFailure h
    · exact ih hs (by rw [hdone]; rfl)
    · exact hinv.scopes .takeResult (ih hs hu)
  | @atLine α x line _ ih =>
    change ((x.afterFailure fun session => { session with line }).located.run
      { s with line }).session? = some t at h
    rw [Exec.session?_located] at h
    have hstart : holds { s with line } := hinv.elsewhere hs _ rfl rfl rfl
    obtain ⟨value, hdone⟩ | ⟨u, hu, rfl⟩ := Exec.session?_afterFailure h
    · exact ih hstart (by rw [hdone]; rfl)
    · exact hinv.elsewhere (ih hstart hu) _ rfl rfl rfl
  | inFrame receiver _ ih =>
    obtain ⟨u, hu, rfl⟩ := Exec.session?_inFrame h
    exact hinv.scopes .pop (ih (hinv.scopes (.push receiver) hs) hu)
  | @inCall α x name _ ih =>
    -- a call that is refused changes nothing, and another one is taken back at its end
    simp only [Exec.inCall, Exec.run] at h
    split at h
    · cases h
      exact hs
    · next calls hpush =>
      have hends := (Exec.session?_afterwards x _ { s with calls }).symm.trans h
      obtain ⟨u, hu, rfl⟩ := Option.map_eq_some_iff.1 hends
      have hstart : holds { s with calls } := hinv.elsewhere hs _ rfl rfl rfl
      exact hinv.elsewhere (ih hstart hu) _ rfl rfl rfl

end Session.Invariant

/-! ### What runs within an evaluation -/

/-- The evaluation `x`, started in `s`, runs `y` within itself, started in `u`. -/
inductive Exec.Runs {β : Type} (y : Exec β) (u : Session) :
    {α : Type} → Exec α → Session → Prop where
  | self (hy : y.Built) : Runs y u y u
  | inFirst {α γ : Type} {x : Exec α} {f : α → Exec γ} {s : Session} (h : Runs y u x s) :
      Runs y u (x >>= f) s
  | inSecond {α γ : Type} {x : Exec α} {f : α → Exec γ} {s t : Session} {value : α} (hx : x.Built)
      (hdone : x.run s = .done value t) (h : Runs y u (f value) t) : Runs y u (x >>= f) s
  | located {α : Type} {x : Exec α} {s : Session} (h : Runs y u x s) : Runs y u x.located s
  | droppingResult {α : Type} {x : Exec α} {s : Session} (h : Runs y u x s) :
      Runs y u x.droppingResult s
  | atLine {α : Type} {x : Exec α} {s : Session} (line : Nat) (h : Runs y u x { s with line }) :
      Runs y u (Exec.atLine line x) s
  | inFrame {α : Type} {x : Exec α} {s : Session} {receiver : Option Value}
      (h : Runs y u x { s with scopes := s.scopes.push receiver }) :
      Runs y u (Exec.inFrame receiver x) s
  | inCall {α : Type} {x : Exec α} {s : Session} {name : String} {calls : CallStack}
      (hpush : s.calls.push name = .ok calls) (h : Runs y u x { s with calls }) :
      Runs y u (Exec.inCall name x) s

/-- A session in which something that the evaluation runs starts or ends. -/
def Exec.PassesThrough (x : Exec α) (s t : Session) : Prop :=
  ∃ (β : Type) (y : Exec β) (u : Session), y.Runs u x s ∧
    (t = u ∨ (y.run u).session? = some t)

variable {x : Exec α} {y : Exec β} {s t u : Session}

theorem Session.Invariant.of_runs (hinv : Session.Invariant holds) (h : y.Runs u x s)
    (hs : holds s) : holds u := by
  -- on the way to the part that runs: each step leads to a state of which it holds
  induction h with
  | self _ => exact hs
  | inFirst _ ih => exact ih hs
  | inSecond hx hdone _ ih => exact ih (hinv.of_built hx hs (by rw [hdone]; rfl))
  | located _ ih => exact ih hs
  | droppingResult _ ih => exact ih hs
  | @atLine _ _ s line _ ih => exact ih (hinv.elsewhere hs { s with line } rfl rfl rfl)
  | inFrame _ ih => exact ih (hinv.scopes (.push _) hs)
  | @inCall _ _ s _ calls _ _ ih => exact ih (hinv.elsewhere hs { s with calls } rfl rfl rfl)

theorem Exec.Runs.built (h : y.Runs u x s) : y.Built := by
  induction h with
  | self hy => exact hy
  | _ => assumption

/-- **What no step ends holds of every session that a run passes through.** -/
theorem Session.Invariant.of_passesThrough (hinv : Session.Invariant holds)
    (h : x.PassesThrough s t) (hs : holds s) : holds t := by
  obtain ⟨β, y, u, hruns, rfl | hends⟩ := h
  · exact hinv.of_runs hruns hs
  · exact hinv.of_built hruns.built (hinv.of_runs hruns hs) hends

/-- **A located failure of a part is the failure of the whole.** -/
theorem Exec.Runs.failed_of_failed (h : y.Runs u x s) {failure : Failure} {location : Location}
    {v : Session} (hfailed : y.run u = .failed failure v)
    (hlocation : failure.location = some location) : ∃ t, x.run s = .failed failure t := by
  -- on the way to the part that fails: each step outwards passes the failure on
  induction h with
  | self _ => exact ⟨v, hfailed⟩
  | inFirst _ ih =>
    obtain ⟨t, ht⟩ := ih
    exact ⟨t, by rw [Exec.run_bind, ht]⟩
  | inSecond _ hdone _ ih =>
    obtain ⟨t, ht⟩ := ih
    exact ⟨t, by rw [Exec.run_bind, hdone]; exact ht⟩
  | @located _ x s _ ih =>
    -- the location that is there stays
    obtain ⟨t, ht⟩ := ih
    exact ⟨t, Exec.run_located_of_location ht hlocation⟩
  | droppingResult _ ih =>
    obtain ⟨t, ht⟩ := ih
    exact ⟨_, Exec.run_afterFailure_eq_failed_iff.2 ⟨t, ht, rfl⟩⟩
  | @atLine _ x s line _ ih =>
    obtain ⟨t, ht⟩ := ih
    exact ⟨_, Exec.run_atLine_eq_failed_iff.2
      ⟨failure, t, ht, (Session.locate_of_location hlocation _).symm, rfl⟩⟩
  | inFrame _ ih =>
    obtain ⟨t, ht⟩ := ih
    exact ⟨_, Exec.run_inFrame_eq_failed_iff.2 ⟨t, ht, rfl⟩⟩
  | inCall hpush _ ih =>
    obtain ⟨t, ht⟩ := ih
    refine ⟨{ t with calls := t.calls.pop }, ?_⟩
    simp only [Exec.inCall, Exec.run, hpush]
    exact Exec.run_afterwards_eq_failed_iff.2 ⟨t, ht, rfl⟩

/-! ### Programs -/

/-- What is run for a program, in a session that has been prepared for it. -/
def Input.evaluation (input : Input) (fuel : Nat) : Exec Value :=
  (runProgram (nestedWith fuel) input.program).located

theorem Input.evaluation_built (input : Input) (fuel : Nat) : (input.evaluation fuel).Built :=
  .located (Exec.built_congruence.runProgram (nestedWith_built fuel) input.program)

/-- A session that a program passes through when it is run in this one. -/
def Session.PassesThrough (session : Session) (fuel : Nat) (input : Input) (t : Session) : Prop :=
  (input.evaluation fuel).PassesThrough (session.start input) t

/-- A program that is run in this session runs the statement, started in `u`, with the given fuel
for its parts. -/
def Session.RunsStmt (session : Session) (fuel : Nat) (input : Input) (stmt : Stmt) (parts : Nat)
    (u : Session) : Prop :=
  (execStmt (parts + 1) stmt).Runs u (input.evaluation fuel) (session.start input)

end DecimalScript
