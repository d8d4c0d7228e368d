import DecimalScript.Proofs.Eval.Detached

/-!
# The limit on calls and the fuel

Two evaluations are compared step by step: one under a limit on calls, and one under a limit that
allows more, with at least as much fuel. As long as the first one neither runs out of fuel nor is
refused a call, both are in the same session but for the limit (`Outcome.Agrees`). A refused call
fails, and since nothing that runs around a call turns a failure into anything else, the whole
evaluation then fails for that reason. So the limit can only replace the end of an evaluation by a
failure that names it (`limit_changes_no_meaning`).

Only `CallStack.push` reads the limit. A step that is `Exec.Detached` from the call stack is related
to itself, and a call is the one combinator that looks at it, so the relation is an
`Exec.Congruence` (`Exec.agrees_congruence`); the induction on the fuel is in `nestedWith_agrees`.
Where the two limits are the same, the statement is that more fuel keeps an answer
(`Outcome.Agrees.eq_of_ends`).
-/

namespace DecimalScript

variable {α β : Type}

/-! ### Sessions under another limit -/

/-- The session under another limit on calls. -/
def Session.withLimit (session : Session) (limit : Option Nat) : Session :=
  { session with calls := { session.calls with limit } }

/-- Every call that the first limit allows is allowed by the second one; no limit allows every
call. -/
def LimitLE (low high : Option Nat) : Prop :=
  ∀ most, high = some most → ∃ least, low = some least ∧ least ≤ most

theorem LimitLE.refl (limit : Option Nat) : LimitLE limit limit :=
  fun most h => ⟨most, h, Nat.le_refl most⟩

@[simp] theorem Session.limit_withLimit (session : Session) (limit : Option Nat) :
    (session.withLimit limit).calls.limit = limit := rfl

theorem Session.withLimit_self {session : Session} {limit : Option Nat}
    (h : session.calls.limit = limit) : session.withLimit limit = session := by
  subst h
  rfl

namespace Outcome

/-- The outcome in a session under another limit. -/
def withLimit (limit : Option Nat) : Outcome α → Outcome α :=
  mapSession fun session => session.withLimit limit

/-- The evaluation ended, with a value or with a failure. -/
def Ends (outcome : Outcome α) : Prop :=
  outcome.session?.isSome

instance (outcome : Outcome α) : Decidable outcome.Ends :=
  inferInstanceAs (Decidable (outcome.session?.isSome = true))

/-- The evaluation failed for a call that its limit did not allow. -/
def Refused (outcome : Outcome α) : Prop :=
  ∃ limit, outcome.cause? = some (.callsTooDeep limit)

/-- How an evaluation under the limit `low` ends, and one under the limit `high` that may use more
fuel: in the same way, but for the limit. Nothing is said where the first one is refused a call or
runs out of fuel. -/
inductive Agrees (low high : Option Nat) : Outcome α → Outcome α → Prop where
  | done (value : α) {s : Session} (hlimit : s.calls.limit = low) :
      Agrees low high (.done value s) (.done value (s.withLimit high))
  | failed (failure : Failure) {s : Session} (hlimit : s.calls.limit = low) :
      Agrees low high (.failed failure s) (.failed failure (s.withLimit high))
  /-- Under one limit both are refused the same calls. -/
  | refused {failure : Failure} {limit : Nat} (hcause : failure.cause = .callsTooDeep limit)
      (hne : high ≠ low) (s : Session) (other : Outcome α) :
      Agrees low high (.failed failure s) other
  | outOfFuel (other : Outcome α) : Agrees low high .outOfFuel other

variable {low high : Option Nat} {outcome other : Outcome α}

theorem Agrees.eq_withLimit (h : outcome.Agrees low high other) (hends : outcome.Ends)
    (hrefused : ¬outcome.Refused) : other = outcome.withLimit high := by
  -- on how the two evaluations agree: two ways are excluded by hypothesis
  cases h with
  | done value hlimit => rfl
  | failed failure hlimit => rfl
  | @refused failure limit hcause hne s other =>
    have : (Outcome.failed failure s : Outcome α).Refused := ⟨limit, congrArg some hcause⟩
    exact absurd this hrefused
  | outOfFuel other => cases hends

/-- Under one limit an evaluation that ended ends in the same way with more fuel. -/
theorem Agrees.eq_of_ends (h : outcome.Agrees low low other) (hends : outcome.Ends) :
    other = outcome := by
  cases h with
  | done value hlimit => rw [Session.withLimit_self hlimit]
  | failed failure hlimit => rw [Session.withLimit_self hlimit]
  | refused hcause hne s other => exact absurd rfl hne
  | outOfFuel other => cases hends

end Outcome

namespace Exec

variable {low high : Option Nat} {x y : Exec α}

/-! ### Two evaluations under two limits -/

/-- From every session under the limit `low`, the second evaluation goes on under the limit `high`
as the first one does. -/
def Agrees (low high : Option Nat) (x y : Exec α) : Prop :=
  ∀ s, s.calls.limit = low → (x.run s).Agrees low high (y.run (s.withLimit high))

theorem Agrees.outOfFuel (y : Exec α) : Agrees low high Exec.outOfFuel y :=
  fun _ _ => .outOfFuel _

theorem Detached.agrees (hx : x.Detached) : Agrees low high x x := by
  -- what does not look at the call stack takes the new limit through as it is
  intro s hlimit
  have hcalls : ∀ t, (x.run s).session? = some t → t.calls = s.calls := fun t => hx.calls_eq
  have hrun : x.run (s.withLimit high) = _ := hx s { s.calls with limit := high }
  rw [hrun]
  cases hx : x.run s with
  | done value t =>
    rw [hx] at hcalls
    rw [← hcalls t rfl] at hlimit ⊢
    exact .done value hlimit
  | failed failure t =>
    rw [hx] at hcalls
    rw [← hcalls t rfl] at hlimit ⊢
    exact .failed failure hlimit
  | outOfFuel => exact .outOfFuel _

theorem Agrees.bind {f g : α → Exec β} (hxy : Agrees low high x y)
    (hfg : ∀ value, Agrees low high (f value) (g value)) :
    Agrees low high (x >>= f) (y >>= g) := by
  -- on the first evaluation; where it was refused or did not end, nothing is said of the rest
  intro s hlimit
  have h := hxy s hlimit
  rw [run_bind, run_bind]
  generalize x.run s = outcome at h
  generalize y.run (s.withLimit high) = other at h
  cases h with
  | done value hlimit => exact hfg value _ hlimit
  | failed failure hlimit => exact .failed failure hlimit
  | refused hcause hne t other => exact .refused hcause hne t _
  | outOfFuel other => exact .outOfFuel _

/-- A failure that is located keeps its cause. -/
theorem Agrees.located (hxy : Agrees low high x y) : Agrees low high x.located y.located := by
  -- a location is added in both, which does not look at the limit
  intro s hlimit
  have h := hxy s hlimit
  simp only [Exec.located, Exec.run] at h ⊢
  generalize x s = outcome at h
  generalize y (s.withLimit high) = other at h
  cases h with
  | done value hlimit => exact .done value hlimit
  | failed failure hlimit => exact .failed _ hlimit
  | refused hcause hne t other =>
    exact .refused ((Session.cause_locate t _).trans hcause) hne t _
  | outOfFuel other => exact .outOfFuel _

section Change

variable {f : Session → Session} (hkeeps : ∀ s, (f s).calls.limit = s.calls.limit)
  (hf : ∀ s, f (s.withLimit high) = (f s).withLimit high)
include hkeeps hf

theorem Agrees.afterwards (hxy : Agrees low high x y) :
    Agrees low high (x.afterwards f) (y.afterwards f) := by
  -- what is done afterwards changes the limit of neither state
  intro s hlimit
  have h := hxy s hlimit
  simp only [Exec.afterwards, Exec.run] at h ⊢
  generalize x s = outcome at h
  generalize y (s.withLimit high) = other at h
  cases h with
  | done value hlimit =>
    simp only [hf]
    exact .done value ((hkeeps _).trans hlimit)
  | failed failure hlimit =>
    simp only [hf]
    exact .failed failure ((hkeeps _).trans hlimit)
  | refused hcause hne t other => exact .refused hcause hne _ _
  | outOfFuel other => exact .outOfFuel _

theorem Agrees.afterFailure (hxy : Agrees low high x y) :
    Agrees low high (x.afterFailure f) (y.afterFailure f) := by
  -- the same for what is done after a failure only
  intro s hlimit
  have h := hxy s hlimit
  simp only [Exec.afterFailure, Exec.run] at h ⊢
  generalize x s = outcome at h
  generalize y (s.withLimit high) = other at h
  cases h with
  | done value hlimit => exact .done value hlimit
  | failed failure hlimit =>
    simp only [hf]
    exact .failed failure ((hkeeps _).trans hlimit)
  | refused hcause hne t other => exact .refused hcause hne _ _
  | outOfFuel other => exact .outOfFuel _

end Change

theorem Agrees.atLine (line : Nat) (hxy : Agrees low high x y) :
    Agrees low high (Exec.atLine line x) (Exec.atLine line y) := by
  refine .bind (Detached.modify fun _ _ => rfl).agrees fun _ => .located ?_
  exact .afterFailure (fun _ => rfl) (fun _ => rfl) hxy

theorem Agrees.inFrame (receiver : Option Value) (hxy : Agrees low high x y) :
    Agrees low high (Exec.inFrame receiver x) (Exec.inFrame receiver y) := by
  refine .bind (Detached.modify fun _ _ => rfl).agrees fun _ => ?_
  exact .afterwards (fun _ => rfl) (fun _ => rfl) hxy

/-- A call that is not refused is not refused under a limit that allows more. -/
theorem exceeded?_of_limitLE (hle : LimitLE low high) {calls : CallStack}
    (hlimit : calls.limit = low) (h : calls.exceeded? = none) :
    ({ calls with limit := high } : CallStack).exceeded? = none := by
  -- a depth below the lower limit is below the higher one
  rw [CallStack.exceeded?, Option.filter_eq_none_iff] at h ⊢
  intro most hmost
  obtain ⟨least, hleast, hle⟩ := hle most hmost
  have hdepth := h least (hlimit.trans hleast)
  simp only [decide_eq_true_eq, Nat.not_le] at hdepth ⊢
  exact Nat.lt_of_lt_of_le hdepth hle

/-- Here the limits are read. -/
theorem Agrees.inCall (hle : LimitLE low high) (name : String) (hxy : Agrees low high x y) :
    Agrees low high (Exec.inCall name x) (Exec.inCall name y) := by
  -- on whether the lower limit lets the call through
  intro s hlimit
  cases hexceeded : s.calls.exceeded? with
  | none =>
    -- both calls go through, on call stacks that differ in the limit only
    have hhigh := exceeded?_of_limitLE hle hlimit hexceeded
    let pushed : CallStack := { s.calls with names := name :: s.calls.names }
    have hpush : s.calls.push name = .ok pushed := CallStack.push_eq_ok_iff.2 ⟨hexceeded, rfl⟩
    have hpush' : ({ s.calls with limit := high } : CallStack).push name =
        .ok { pushed with limit := high } := CallStack.push_eq_ok_iff.2 ⟨hhigh, rfl⟩
    have hbody := hxy.afterwards (f := fun s => { s with calls := s.calls.pop })
      (fun _ => rfl) (fun _ => rfl) { s with calls := pushed } hlimit
    simp only [Exec.inCall, Exec.run, Session.withLimit, hpush, hpush']
    exact hbody
  | some limit =>
    have hpush : s.calls.push name = .error (.callsTooDeep limit) := by
      rw [CallStack.push, hexceeded]
    by_cases hsame : high = low
    · -- the same limit refuses the same call
      subst hsame
      rw [Session.withLimit_self hlimit]
      simp only [Exec.inCall, Exec.run, hpush]
      have hfailed : Outcome.Agrees high high (.failed (.ofCause (.callsTooDeep limit)) s)
          (.failed (.ofCause (.callsTooDeep limit)) (s.withLimit high) : Outcome α) :=
        .failed _ hlimit
      rwa [Session.withLimit_self hlimit] at hfailed
    · -- the second evaluation may go on, but the first one is over
      simp only [Exec.inCall, Exec.run, hpush]
      exact .refused rfl hsame s _

/-- The steps of the evaluator keep what two limits have to do with each other. -/
theorem agrees_congruence (hle : LimitLE low high) : Exec.Congruence fun _ => Agrees low high where
  step hx := hx.detached.agrees
  bind := Agrees.bind
  located := Agrees.located
  droppingResult := Agrees.afterFailure (fun _ => rfl) fun _ => rfl
  atLine := Agrees.atLine
  inFrame := Agrees.inFrame
  inCall := Agrees.inCall hle

end Exec

/-! ### With fuel -/

variable {low high : Option Nat}

open Exec (agrees_congruence)

/-- By induction on the fuel of the first evaluation; the second one has at least as much. -/
theorem nestedWith_agrees (hle : LimitLE low high) {fuel more : Nat} (hmore : fuel ≤ more) :
    (nestedWith fuel).Related (fun _ => Exec.Agrees low high) (nestedWith more) := by
  have hrel := agrees_congruence hle
  -- on the fuel of the first evaluation; the second one has at least as much
  induction fuel generalizing more with
  | zero => exact hrel.related (fun _ => .outOfFuel _) fun _ => .outOfFuel _
  | succ fuel ih =>
    obtain ⟨more, rfl⟩ : ∃ n, more = n + 1 := ⟨more - 1, by omega⟩
    have hturns := Nat.le_of_succ_le_succ hmore
    have hnested := ih hturns
    exact hrel.related (fun e => hrel.compatible.evalExprWith hnested e) fun stmt =>
      hrel.execStmtWith hnested (.inr ⟨hturns, .outOfFuel⟩) stmt

theorem execute_agrees (hle : LimitLE low high) {fuel more : Nat} (hmore : fuel ≤ more)
    (input : Input) {session : Session} (hlimit : session.calls.limit = low) :
    (session.execute fuel input).Agrees low high
      ((session.withLimit high).execute more input) :=
  Exec.Agrees.afterFailure (f := Session.recover) (fun _ => rfl) (fun _ => rfl)
    (.located ((agrees_congruence hle).runProgram (nestedWith_agrees hle hmore) input.program))
    (session.start input) hlimit

/-- **The limit on calls changes no meaning.** If a program, an expression or a statement ends under
one limit without being refused a call, then under a limit that allows more, or under none, it ends
with the same value or the same failure, and in the same session but for the limit. -/
theorem limit_changes_no_meaning (hle : LimitLE low high) {fuel more : Nat} (hmore : fuel ≤ more)
    (session : Session) :
    (∀ input, ((session.withLimit low).execute fuel input).Ends →
      ¬((session.withLimit low).execute fuel input).Refused →
      (session.withLimit high).execute more input =
        ((session.withLimit low).execute fuel input).withLimit high) ∧
    (∀ e, ((evalExpr fuel e).run (session.withLimit low)).Ends →
      ¬((evalExpr fuel e).run (session.withLimit low)).Refused →
      (evalExpr more e).run (session.withLimit high) =
        ((evalExpr fuel e).run (session.withLimit low)).withLimit high) ∧
    (∀ stmt, ((execStmt fuel stmt).run (session.withLimit low)).Ends →
      ¬((execStmt fuel stmt).run (session.withLimit low)).Refused →
      (execStmt more stmt).run (session.withLimit high) =
        ((execStmt fuel stmt).run (session.withLimit low)).withLimit high) := by
  -- from the agreement to the equation, in each of the three
  have hnested := nestedWith_agrees hle hmore
  have hlimit := session.limit_withLimit low
  refine ⟨fun input => ?_, fun e => ?_, fun stmt => ?_⟩
  · exact (execute_agrees hle hmore input hlimit).eq_withLimit
  · exact (hnested.eval e _ hlimit).eq_withLimit
  · exact (hnested.exec stmt _ hlimit).eq_withLimit

/-- A function calls another one, which fails: two calls at a time. -/
def nestedCalls : Input where
  program :=
    [⟨.function { name := "f", params := [], body := [⟨.evaluate (.name "x"), 1⟩] }, 1⟩,
      ⟨.function { name := "g", params := [], body := [⟨.evaluate (.call (.name "f") []), 3⟩] }, 2⟩,
      ⟨.evaluate (.call (.name "g") []), 4⟩]
  file := none
  source := none

/-- Under a limit of two the program fails in the inner call, and so it does under no limit; under a
limit of one it is refused that call. -/
theorem nestedCalls_under_limits :
    let run := fun limit => ((Session.fresh .empty .empty).withLimit limit).execute 9 nestedCalls
    LimitLE (some 2) none ∧ (run (some 2)).cause? = some (.undefinedName "x") ∧
      run none = (run (some 2)).withLimit none ∧ (run (some 1)).Refused := by
  intro run
  have hle : LimitLE (some 2) none := fun _ h => by cases h
  have hcause : (run (some 2)).cause? = some (.undefinedName "x") := by decide +kernel
  refine ⟨hle, hcause, ?_, ⟨1, by decide +kernel⟩⟩
  refine (limit_changes_no_meaning hle (Nat.le_refl 9) (.fresh .empty .empty)).1 _ ?_ ?_
  · show (run (some 2)).Ends
    decide +kernel
  · show ¬(run (some 2)).Refused
    rintro ⟨limit, hlimit⟩
    rw [hcause] at hlimit
    cases hlimit

end DecimalScript
