import DecimalScript.Proofs.Eval.Constructs
import DecimalScript.Proofs.Eval.ImplicitResult
import DecimalScript.Proofs.Eval.Reach
import DecimalScript.Proofs.Syntax.Interrupts

/-!
# Interrupts never leave a body

A break and a continue travel as the way in which a statement ends: a branch passes them on, a loop
and an iteration take them, and at the end of a body one that is left over is a failure. So a
statement in which every interrupt is in its place ends with one only if a loop stands around it
(`Realm.HasFlow`), and a body, around which none stands, never does.

Which bodies are run is not a matter of syntax, for functions travel as values and classes with
their instances. That all of them are in order is what the realm of the placed code says
(`Realm.placed`), in which no failure is a stray interrupt. Nothing but the bodies of functions
counts: first values of properties are expressions.
-/

namespace DecimalScript

/-! ### The code that is run -/

/-- The functions in which every interrupt is in its place. No interrupt may be a failure. -/
def Realm.placed : Realm where
  HasArray _ := True
  HasMap _ := True
  HasObject _ := True
  HasFunction decl := decl.isPlaced = true
  HasInitial _ := True
  MayFail cause := cause.isStray = false
  MayStop := True
  HasHeap _ := True
  mayFail _ h := h
  hasHeap_step _ _ := trivial

/-- The ways in which placed statements may end: with an interrupt only inside a loop. -/
def Realm.HasFlow (realm : Realm) (inLoop : Bool) : Flow → Prop
  | .normal => True
  | .result value => realm.HasValue value
  | .breakLoop => inLoop = true
  | .continueLoop => inLoop = true

/-- Outside of loops placed statements end as a body may. -/
theorem Realm.HasFlow.hasEnd {realm : Realm} {flow : Flow} (h : realm.HasFlow false flow) :
    realm.HasEnd flow := by
  cases flow with
  | normal => trivial
  | result value => exact h
  | breakLoop => cases h
  | continueLoop => cases h

section Code

variable {s : Session}

/-- A class in order has functions of the realm. -/
theorem hasClass_of_placed {decl : ClassDecl} (hplaced : interruptRule.onClass decl = true) :
    (Realm.placed.reachedFrom s).HasClass decl := by
  obtain ⟨hgetters, hmethods⟩ := CodeRule.onClass_iff.1 hplaced
  exact ⟨fun _ _ => trivial, hgetters, hmethods⟩

theorem declares_of_isPlaced {inLoop : Bool} {stmt : Stmt} (hplaced : stmt.isPlaced inLoop = true) :
    (Realm.placed.reachedFrom s).Declares stmt := by
  unfold Realm.Declares
  split
  · next decl hkind => exact CodeRule.onFunction_of_onStmt hplaced hkind
  · next decl hkind => exact hasClass_of_placed (CodeRule.onClass_of_onStmt hplaced hkind)
  · trivial

end Code

/-! ### Expressions and statements -/

/-- Expressions and placed statements stay within the realm, and a statement ends with an interrupt
only if a loop stands around it. -/
structure Nested.Places (realm : Realm) (nested : Nested) : Prop where
  eval : ∀ calls e, nested.EvalStays realm calls e
  exec : ∀ calls inLoop stmt, stmt.isPlaced inLoop = true →
    (nested.exec stmt).Stays realm calls (realm.HasFlow inLoop)

section Nested

variable {s : Session} {nested : Nested} (hnested : nested.Places (Realm.placed.reachedFrom s))
  (calls : CallStack)
include hnested

theorem block_stays_of_places {inLoop : Bool} {block : Block}
    (hplaced : blockPlaced inLoop block = true) :
    (runBlock nested block).Stays (Realm.placed.reachedFrom s) calls
      ((Realm.placed.reachedFrom s).HasFlow inLoop) := by
  have hplaced := CodeRule.onBlock_iff.1 hplaced
  -- both what is hoisted and what is executed is said of each statement of the block
  refine runBlock_stays trivial (fun stmt hstmt => ?_) fun stmt hstmt _ => ?_
  · exact declares_of_isPlaced (hplaced stmt hstmt)
  · exact hnested.exec calls inLoop stmt (hplaced stmt hstmt)

/-- No loop of the caller stands around a body. -/
theorem body_stays_of_places {body : Block} (hplaced : blockPlaced false body = true) :
    (runBlock nested body).Stays (Realm.placed.reachedFrom s) calls
      (Realm.placed.reachedFrom s).HasEnd :=
  (block_stays_of_places hnested calls hplaced).mono fun _ hflow => hflow.hasEnd

theorem ready_of_places : nested.Ready (Realm.placed.reachedFrom s) calls := by
  refine ⟨fun name deeper _ decl hdecl => ?_, fun name deeper _ e _ => hnested.eval deeper e⟩
  have hplaced : decl.isPlaced = true := hdecl
  exact body_stays_of_places hnested deeper (CodeRule.onFunction_iff.1 hplaced)

/-- A branch passes the interrupts of its blocks on, so they are placed as the branch is; around the
body of a loop a loop stands. -/
theorem runsBlocks_of_places {inLoop : Bool} {kind : StmtKind}
    (hallowed : interruptRule.allows inLoop kind = true)
    (hinside : interruptRule.inside inLoop kind = true) :
    nested.RunsBlocks (Realm.placed.reachedFrom s) calls
      ((Realm.placed.reachedFrom s).HasFlow true) ((Realm.placed.reachedFrom s).HasFlow inLoop)
      kind := by
  -- one case for each kind of statement that holds blocks; an interrupt has to be allowed where it
  -- stands
  cases kind with
  | branch first others otherwise =>
    obtain ⟨harms, hotherwise⟩ := CodeRule.inside_branch_iff.1 hinside
    refine ⟨fun arm harm => ?_, fun block hblock => ?_⟩
    · exact block_stays_of_places hnested calls (harms arm harm)
    · exact block_stays_of_places hnested calls (hotherwise block hblock)
  | loop condition body =>
    rw [CodeRule.inside] at hinside
    exact ⟨trivial, block_stays_of_places hnested calls hinside⟩
  | iterate target names body =>
    rw [CodeRule.inside] at hinside
    exact block_stays_of_places hnested calls hinside
  | breakLoop => exact hallowed
  | continueLoop => exact hallowed
  | _ => trivial

end Nested

/-- **Placed interrupts reach a loop**, by induction on the fuel. -/
theorem nestedWith_places (s : Session) (fuel : Nat) :
    (nestedWith fuel).Places (Realm.placed.reachedFrom s) := by
  induction fuel with
  | zero =>
    exact ⟨fun calls e => .outOfFuel trivial, fun calls inLoop stmt _ => .outOfFuel trivial⟩
  | succ fuel ih =>
    refine ⟨fun calls e => ?_, fun calls inLoop stmt hplaced => ?_⟩
    · exact evalExprWith_stays (ready_of_places ih calls) e fun part _ => ih.eval calls part
    · obtain ⟨hallowed, hinside⟩ := CodeRule.onStmt_iff.1 hplaced
      have hblocks := runsBlocks_of_places ih calls hallowed hinside
      -- a result passes through a loop, whatever stands around it
      have hthrough : ∀ v, (Realm.placed.reachedFrom s).HasFlow true (.result v) →
          (Realm.placed.reachedFrom s).HasFlow inLoop (.result v) := fun _ hvalue => hvalue
      exact .atLine stmt.line (execKindWith_stays (ready_of_places ih calls) trivial
        (fun _ hvalue => hvalue) hthrough fuel stmt.kind (fun part _ => ih.eval calls part) hblocks)

/-! ### Loops -/

/-- The statement is a loop or an iteration. -/
def StmtKind.isLoop : StmtKind → Bool
  | loop .. | iterate .. => true
  | _ => false

/-- The flow is a break or a continue. -/
def Flow.isInterrupt : Flow → Bool
  | breakLoop | continueLoop => true
  | _ => false

/-- No loop ends with an interrupt, since the one that ended a turn is taken. -/
theorem isInterrupt_of_endsLoop? {flow ended : Flow} (h : flow.endsLoop? = some ended) :
    ended.isInterrupt = false := by
  -- a loop passes on a result, and ends normally after a break
  cases flow with
  | normal => cases h
  | result value =>
    cases h
    rfl
  | breakLoop =>
    cases h
    rfl
  | continueLoop => cases h

section Loops

variable {nested : Nested} {body : Block} {s t : Session} {flow : Flow}

theorem isInterrupt_runLoop {condition : Expr} {turns : Nat}
    (h : (runLoop nested condition body turns).run s = .done flow t) :
    flow.isInterrupt = false := by
  -- on the turns: the one that ends the loop passes no interrupt on
  induction turns generalizing s with
  | zero => cases h
  | succ turns ih =>
    obtain ⟨holds, u, -, hturn⟩ := Exec.run_bind_eq_done_iff.1 h
    cases holds with
    | false =>
      cases hturn
      rfl
    | true =>
      obtain ⟨ended, v, -, hrest⟩ := Exec.run_bind_eq_done_iff.1 hturn
      cases hends : ended.endsLoop? with
      | some last =>
        rw [hends] at hrest
        cases hrest
        exact isInterrupt_of_endsLoop? hends
      | none =>
        rw [hends] at hrest
        exact ih hrest

theorem isInterrupt_runTurns {names : TurnNames} {entries : List (Value × Value)}
    (h : (runTurns nested names body entries).run s = .done flow t) : flow.isInterrupt = false := by
  -- on the entries that are left
  induction entries generalizing s with
  | nil =>
    cases h
    rfl
  | cons entry rest ih =>
    obtain ⟨ended, u, -, hrest⟩ := Exec.run_bind_eq_done_iff.1 h
    cases hends : ended.endsLoop? with
    | some last =>
      rw [hends] at hrest
      cases hrest
      exact isInterrupt_of_endsLoop? hends
    | none =>
      rw [hends] at hrest
      exact ih hrest

/-- A loop and an iteration end with an interrupt never, whatever their bodies are. -/
theorem isInterrupt_of_isLoop {fuel : Nat} {stmt : Stmt} (hloop : stmt.kind.isLoop = true)
    (h : (execStmt fuel stmt).run s = .done flow t) : flow.isInterrupt = false := by
  -- without fuel the loop does not end, and with some it is one of the two loops
  cases fuel with
  | zero => cases h
  | succ fuel =>
    obtain ⟨_, u, -, hrun⟩ := Exec.run_bind_eq_done_iff.1 h
    rw [Exec.run_located_eq_done_iff, Exec.run_afterFailure_eq_done_iff] at hrun
    cases hkind : stmt.kind with
    | loop condition body =>
      rw [hkind] at hrun
      exact isInterrupt_runLoop hrun
    | iterate target names body =>
      rw [hkind] at hrun
      obtain ⟨container, v, -, hturns⟩ := Exec.run_bind_eq_done_iff.1 hrun
      obtain ⟨found, w, -, hturns⟩ := Exec.run_bind_eq_done_iff.1 hturns
      obtain ⟨entries, x, -, hturns⟩ := Exec.run_bind_eq_done_iff.1 hturns
      exact isInterrupt_runTurns hturns
    | _ =>
      rw [hkind] at hloop
      cases hloop

end Loops

/-! ### Programs -/

/-- The cause of a failure is one that the realm has. -/
theorem Outcome.Within.mayFail {α : Type} {realm : Realm} {calls : CallStack} {p : α → Prop}
    {outcome : Outcome α} (h : outcome.Within realm calls p) {cause : Cause}
    (hcause : outcome.cause? = some cause) : realm.MayFail cause := by
  -- the cause is that of a failure
  cases outcome with
  | done value t => cases hcause
  | failed failure t =>
    cases hcause
    exact h.1
  | outOfFuel => cases hcause

/-- **Interrupts that are in their place never become failures.** If a loop of the same body stands
around every break and continue of the program and of the functions, methods and getters that the
session reaches, then no run of the program fails because of a stray one. And no loop, whatever its
body is, ends with a break or a continue. -/
theorem placed_interrupts_never_stray :
    (∀ session : Session, session.AtRest → ∀ input : Input,
      blockPlaced false input.program = true →
      (∀ decl, session.ReachesFunction decl → decl.isPlaced = true) →
      ∀ fuel, (session.execute fuel input).cause? ≠ some .strayBreak ∧
        (session.execute fuel input).cause? ≠ some .strayContinue) ∧
    (∀ fuel stmt (s t : Session) flow, stmt.kind.isLoop = true →
      (execStmt fuel stmt).run s = .done flow t → flow ≠ .breakLoop ∧ flow ≠ .continueLoop) := by
  refine ⟨fun session hrest input hprogram hreached fuel => ?_,
    fun fuel stmt s t flow hloop hrun => ?_⟩
  · -- the reachable code is placed, and so is the program, so only harmless causes are left
    have hwithin : session.Within (Realm.placed.reachedFrom session) :=
      hrest.within hreached fun _ _ _ _ => trivial
    have hbody := body_stays_of_places (nestedWith_places session fuel) session.calls hprogram
    have hrun := program_within hwithin hbody
    have hharmless : ∀ cause, (session.execute fuel input).cause? = some cause →
        cause.isStray = false := by
      intro cause hcause
      -- to recover after a failure changes the state, not the cause
      have hsame := Exec.cause?_afterFailure
        ((runProgram (nestedWith fuel) input.program).located) Session.recover
        (session.start input)
      exact hrun.mayFail (hsame.symm.trans hcause)
    constructor
    · intro hcause
      cases hharmless _ hcause
    · intro hcause
      cases hharmless _ hcause
  · have hflow := isInterrupt_of_isLoop hloop hrun
    constructor
    · rintro rfl
      cases hflow
    · rintro rfl
      cases hflow

/-- A function that leaves an iteration from inside a branch. -/
def searching : FunctionDecl where
  name := "search"
  params := [⟨"list", true⟩]
  body :=
    [⟨.iterate (.name "list") (.value "x")
      [⟨.branch ⟨.logic .eq (.name "x") (.string "b"), [⟨.breakLoop, 3⟩]⟩ []
        (some [⟨.continueLoop, 4⟩]), 2⟩], 1⟩]

/-- A loop that calls the function in each of its turns, of which a break ends the first. -/
def searchOnce : Stmt where
  kind := .loop (.logic .eq (.string "a") (.string "a"))
    [⟨.evaluate (.call (.name "search") [.array [.string "a", .string "b"]]), 2⟩, ⟨.breakLoop, 3⟩]
  line := 1

/-- The function is reached, the program calls it, and the loop around the call ends. -/
theorem searchOnce_never_strays :
    let session := Session.fresh .empty (Entries.empty.insert "search" (.func ⟨0, .declared searching⟩))
    session.AtRest ∧ session.ReachesFunction searching ∧ searching.isPlaced = true ∧
      blockPlaced false [searchOnce] = true ∧
      (∀ fuel, (session.execute fuel ⟨[searchOnce], none, none⟩).cause? ≠ some .strayBreak ∧
        (session.execute fuel ⟨[searchOnce], none, none⟩).cause? ≠ some .strayContinue) ∧
      ∃ flow t, (execStmt 12 searchOnce).run session = .done flow t ∧
        flow ≠ .breakLoop ∧ flow ≠ .continueLoop := by
  intro session
  have hrest : session.AtRest := (Session.Hosted.fresh rfl).atRest
  have hreached : ∀ decl, session.ReachesFunction decl → decl.isPlaced = true := by
    intro decl hdecl
    rw [hdecl.eq_of_fresh]
    decide
  have hprogram : blockPlaced false [searchOnce] = true := by decide
  have hreaches : session.Reaches (.func ⟨0, .declared searching⟩) :=
    .global (show session.scopes.globals.get? "search" = _ from rfl)
  have hends : ((execStmt 12 searchOnce).run session).value?.isSome = true := by decide +kernel
  obtain ⟨flow, hflow⟩ := Option.isSome_iff_exists.1 hends
  obtain ⟨t, hrun⟩ := Outcome.exists_of_value? hflow
  refine ⟨hrest, .value hreaches, by decide, hprogram, ?_, flow, t, hrun, ?_⟩
  · exact placed_interrupts_never_stray.1 session hrest ⟨[searchOnce], none, none⟩ hprogram hreached
  · exact placed_interrupts_never_stray.2 12 searchOnce session t flow rfl hrun

end DecimalScript
