import DecimalScript.Proofs.Eval.Constructs
import DecimalScript.Proofs.Eval.Limit
import DecimalScript.Proofs.Eval.Reach
import DecimalScript.Proofs.Syntax.LoopFree

/-!
# Termination under a limit on calls

Under a limit on calls a program ends if no loop stands in it or in any code that it can get to
(`terminates_of_loopFree`). The fuel that an expression or a statement needs is bounded by

  its size + `most` × the number of calls that may still be nested,

where `most` is a size that no body and no first value of a property exceeds. A part is smaller than
the whole, and has as many calls left. A body may be of any size up to `most`, but where it runs one
call less is left. The turns of an iteration and the elements that are copied, compared or written out
take no fuel: they are finite in number when they begin.

The code that calls get to is bounded by the realm of what the session reaches, where functions are
free of loops and of bounded size (`Realm.loopFree`), and where no evaluation may run out of fuel.
-/

namespace DecimalScript

/-! ### The code that is run -/

/-- The functions without loops and all code up to a size. No evaluation may run out of fuel. -/
def Realm.loopFree (most : Nat) : Realm where
  HasArray _ := True
  HasMap _ := True
  HasObject _ := True
  HasFunction decl := decl.isLoopFree = true ∧ sizeOf decl.body ≤ most
  HasInitial e := sizeOf e ≤ most
  MayFail _ := True
  MayStop := False
  HasHeap _ := True
  mayFail _ _ := trivial
  hasHeap_step _ _ := trivial

/-- How many calls may still be nested; none if the stack has no limit. -/
def CallStack.remaining (calls : CallStack) : Nat :=
  calls.limit.getD 0 - calls.depth

theorem CallStack.remaining_push {calls deeper : CallStack} {name : String} {limit : Nat}
    (hlimit : calls.limit = some limit) (h : calls.push name = .ok deeper) :
    deeper.limit = some limit ∧ deeper.remaining + 1 = calls.remaining := by
  obtain ⟨hallowed, rfl⟩ := CallStack.push_eq_ok_iff.1 h
  refine ⟨hlimit, ?_⟩
  -- there was room for the call, so one fewer may be open
  have hroom : calls.depth < limit := by
    simpa [CallStack.exceeded?, hlimit] using hallowed
  simp only [CallStack.remaining, CallStack.depth, hlimit, Option.getD_some,
    List.length_cons] at hroom ⊢
  omega

theorem Expr.sizeOf_pos (e : Expr) : 0 < sizeOf e := by
  cases e <;> exact Nat.zero_lt_of_ne_zero (by simp)

theorem Stmt.sizeOf_kind_lt (stmt : Stmt) : sizeOf stmt.kind < sizeOf stmt := by
  cases stmt
  simp only [Stmt.mk.sizeOf_spec]
  omega

theorem FunctionDecl.sizeOf_body_lt (decl : FunctionDecl) : sizeOf decl.body < sizeOf decl := by
  cases decl
  simp only [FunctionDecl.mk.sizeOf_spec]
  omega

section Code

variable {most : Nat} {s : Session}

/-- A class without loops has functions of the realm, for they are smaller than the class. -/
theorem hasClass_of_loopFree {decl : ClassDecl} (hfree : loopFreeRule.onClass decl = true)
    (hsize : sizeOf decl ≤ most) : ((Realm.loopFree most).reachedFrom s).HasClass decl := by
  -- what a class holds is smaller than the class, and its code is free of loops
  obtain ⟨hgetters, hmethods⟩ := CodeRule.onClass_iff.1 hfree
  have hspec : sizeOf decl.properties + sizeOf decl.getters + sizeOf decl.methods < sizeOf decl := by
    cases decl
    simp only [ClassDecl.mk.sizeOf_spec]
    omega
  refine ⟨fun property hproperty => ?_, fun getter hgetter => ?_, fun method hmethod => ?_⟩
  · have hmem := List.sizeOf_lt_of_mem hproperty
    have hinit : sizeOf property.init < sizeOf property := by
      cases property
      simp only [PropertyDecl.mk.sizeOf_spec]
      omega
    show sizeOf property.init ≤ most
    omega
  · have hmem := List.sizeOf_lt_of_mem hgetter
    have hbody : sizeOf getter.asFunction.body < sizeOf getter := by
      cases getter
      simp only [GetterDecl.asFunction, GetterDecl.mk.sizeOf_spec]
      omega
    exact ⟨hgetters getter hgetter, by omega⟩
  · have hmem := List.sizeOf_lt_of_mem hmethod
    have hbody := method.sizeOf_body_lt
    exact ⟨hmethods method hmethod, by omega⟩

theorem declares_of_isLoopFree {stmt : Stmt} (hfree : stmt.isLoopFree = true)
    (hsize : sizeOf stmt ≤ most) : ((Realm.loopFree most).reachedFrom s).Declares stmt := by
  -- a declaration holds a function or a class, which are smaller than the statement
  have hkind := stmt.sizeOf_kind_lt
  unfold Realm.Declares
  split
  · next decl heq =>
    rw [heq, StmtKind.function.sizeOf_spec] at hkind
    have hbody := decl.sizeOf_body_lt
    exact ⟨CodeRule.onFunction_of_onStmt hfree heq, by omega⟩
  · next decl heq =>
    rw [heq, StmtKind.classDecl.sizeOf_spec] at hkind
    exact hasClass_of_loopFree (CodeRule.onClass_of_onStmt hfree heq) (by omega)
  · trivial

end Code

/-! ### The fuel that is needed -/

/-- With the fuel, expressions and statements without loops that fit it do not run out of it. -/
structure Nested.Suffices (realm : Realm) (most : Nat) (calls : CallStack) (fuel : Nat)
    (nested : Nested) : Prop where
  eval : ∀ e, sizeOf e + most * calls.remaining ≤ fuel → nested.EvalStays realm calls e
  exec : ∀ stmt, stmt.isLoopFree = true → sizeOf stmt ≤ most →
    sizeOf stmt + most * calls.remaining ≤ fuel →
    (nested.exec stmt).Stays realm calls realm.HasEnd

section Fuel

variable {most fuel limit : Nat} {s : Session} {nested : Nested} {calls : CallStack}

/-- A block without loops that fits the fuel; its statements are smaller than it. -/
theorem block_stays_of_suffices
    (hnested : nested.Suffices ((Realm.loopFree most).reachedFrom s) most calls fuel)
    {block : Block} (hfree : blockLoopFree block = true) (hsize : sizeOf block ≤ most)
    (hfuel : sizeOf block + most * calls.remaining ≤ fuel) :
    (runBlock nested block).Stays ((Realm.loopFree most).reachedFrom s) calls
      ((Realm.loopFree most).reachedFrom s).HasEnd := by
  -- each statement is smaller than the block, so what suffices for the block suffices for it
  have hfree := CodeRule.onBlock_iff.1 hfree
  refine runBlock_stays trivial (fun stmt hstmt => ?_) fun stmt hstmt _ => ?_
  · have hmem := List.sizeOf_lt_of_mem hstmt
    exact declares_of_isLoopFree (hfree stmt hstmt) (by omega)
  · have hmem := List.sizeOf_lt_of_mem hstmt
    exact hnested.exec stmt (hfree stmt hstmt) (by omega) (by omega)

/-- Where a body runs one call less is left, so the fuel for `most` is there. -/
theorem ready_of_suffices (hlimit : calls.limit = some limit)
    (hnested : ∀ deeper : CallStack, deeper.limit = some limit →
      nested.Suffices ((Realm.loopFree most).reachedFrom s) most deeper fuel)
    (hfuel : most * calls.remaining ≤ fuel) :
    nested.Ready ((Realm.loopFree most).reachedFrom s) calls := by
  have hroom : ∀ name deeper, calls.push name = .ok deeper → deeper.limit = some limit ∧
      most + most * deeper.remaining ≤ fuel := by
    intro name deeper hpush
    obtain ⟨hdeeper, hremaining⟩ := CallStack.remaining_push hlimit hpush
    refine ⟨hdeeper, ?_⟩
    -- the call that is spent pays for the body
    calc most + most * deeper.remaining
      _ = most * (deeper.remaining + 1) := by rw [Nat.mul_succ, Nat.add_comm]
      _ = most * calls.remaining := by rw [hremaining]
      _ ≤ fuel := hfuel
  refine ⟨fun name deeper hpush decl hdecl => ?_, fun name deeper hpush e he => ?_⟩
  · obtain ⟨hdeeper, hleft⟩ := hroom name deeper hpush
    obtain ⟨hfree, hsize⟩ := hdecl
    exact block_stays_of_suffices (hnested deeper hdeeper) (CodeRule.onFunction_iff.1 hfree) hsize
      (by omega)
  · obtain ⟨hdeeper, hleft⟩ := hroom name deeper hpush
    have hsize : sizeOf e ≤ most := he
    exact (hnested deeper hdeeper).eval e (by omega)

/-- The blocks in a statement without loops fit if the statement does. -/
theorem runsBlocks_of_suffices
    (hnested : nested.Suffices ((Realm.loopFree most).reachedFrom s) most calls fuel)
    {kind : StmtKind} (hallowed : loopFreeRule.allows () kind = true)
    (hinside : loopFreeRule.inside () kind = true) (hsize : sizeOf kind ≤ most)
    (hfuel : sizeOf kind + most * calls.remaining ≤ fuel) :
    nested.RunsBlocks ((Realm.loopFree most).reachedFrom s) calls
      ((Realm.loopFree most).reachedFrom s).HasEnd ((Realm.loopFree most).reachedFrom s).HasEnd
      kind := by
  -- one case for each kind of statement that holds blocks; a loop is not allowed
  cases kind with
  | branch first others otherwise =>
    obtain ⟨harms, hotherwise⟩ := CodeRule.inside_branch_iff.1 hinside
    simp only [StmtKind.branch.sizeOf_spec] at hsize hfuel
    refine ⟨fun arm harm => ?_, fun block hblock => ?_⟩
    · have hmem := List.sizeOf_lt_of_mem harm
      have hpart : sizeOf arm.block < sizeOf arm := by
        cases arm
        simp only [Arm.mk.sizeOf_spec]
        omega
      simp only [List.cons.sizeOf_spec] at hmem
      exact block_stays_of_suffices hnested (harms arm harm) (by omega) (by omega)
    · cases hblock
      simp only [Option.some.sizeOf_spec] at hsize hfuel
      exact block_stays_of_suffices hnested (hotherwise block rfl) (by omega) (by omega)
  | loop condition body => cases hallowed
  | iterate target names body =>
    simp only [StmtKind.iterate.sizeOf_spec] at hsize hfuel
    rw [CodeRule.inside] at hinside
    exact block_stays_of_suffices hnested hinside (by omega) (by omega)
  | breakLoop => trivial
  | continueLoop => trivial
  | _ => trivial

/-- **Enough fuel**, by induction on it: what is inside an expression or a statement is smaller, and
a body has one call less left. -/
theorem nestedWith_suffices (most limit : Nat) (s : Session) (fuel : Nat) (calls : CallStack)
    (hlimit : calls.limit = some limit) :
    (nestedWith fuel).Suffices ((Realm.loopFree most).reachedFrom s) most calls fuel := by
  -- on the fuel, for any call stack: a part needs less since it is smaller, and a body since its
  -- call stack has less room
  induction fuel generalizing calls with
  | zero =>
    refine ⟨fun e hfuel => ?_, fun stmt _ _ hfuel => ?_⟩
    · have hpos := e.sizeOf_pos
      omega
    · have hpos := stmt.sizeOf_kind_lt
      omega
  | succ fuel ih =>
    refine ⟨fun e hfuel => ?_, fun stmt hfree hsize hfuel => ?_⟩
    · have hpos := e.sizeOf_pos
      have hready := ready_of_suffices hlimit ih (by omega)
      exact evalExprWith_stays hready e fun part hpart => (ih calls hlimit).eval part (by omega)
    · have hkind := stmt.sizeOf_kind_lt
      have hready := ready_of_suffices hlimit ih (by omega)
      obtain ⟨hallowed, hinside⟩ := CodeRule.onStmt_iff.1 hfree
      refine .atLine stmt.line (execKindWith_stays hready trivial (fun _ h => h) (fun _ h => h) fuel
        stmt.kind (fun part hpart => ?_) ?_)
      · exact (ih calls hlimit).eval part (by omega)
      · exact runsBlocks_of_suffices (ih calls hlimit) hallowed hinside (by omega) (by omega)

end Fuel

/-! ### Programs -/

/-- A session at rest that reaches no loop is within the realm of code up to its own size. -/
theorem Session.AtRest.within_loopFree {s : Session} (hs : s.AtRest)
    (hreached : ∀ decl, s.ReachesFunction decl → decl.isLoopFree = true) {most : Nat}
    (hmost : sizeOf s ≤ most) : s.Within ((Realm.loopFree most).reachedFrom s) := by
  -- what is reached is smaller than the session, so one bound serves for all of it
  refine hs.within (fun decl hdecl => ⟨hreached decl hdecl, ?_⟩) fun decl hdecl property hproperty => ?_
  · have hsize := hdecl.sizeOf_body_lt
    omega
  · have hsize := hdecl.sizeOf_initial_lt hproperty
    show sizeOf property.init ≤ most
    omega

theorem Outcome.Within.ends {α : Type} {realm : Realm} {calls : CallStack} {p : α → Prop}
    {outcome : Outcome α} (h : outcome.Within realm calls p) (hstop : ¬realm.MayStop) :
    outcome.Ends := by
  cases outcome with
  | done value t => rfl
  | failed failure t => rfl
  | outOfFuel => exact absurd h hstop

theorem Exec.ends_afterFailure {α : Type} {x : Exec α} {f : Session → Session} {s : Session}
    (h : (x.run s).Ends) : ((x.afterFailure f).run s).Ends := by
  simp only [Exec.afterFailure, Exec.run] at h ⊢
  cases hrun : x s with
  | done value t => rfl
  | failed failure t => rfl
  | outOfFuel =>
    rw [hrun] at h
    cases h

/-- How much fuel a program needs at most. -/
theorem execute_ends {session : Session} (hsession : session.AtRest) {limit : Nat}
    (hlimit : session.calls.limit = some limit) {input : Input}
    (hprogram : blockLoopFree input.program = true)
    (hreached : ∀ decl, session.ReachesFunction decl → decl.isLoopFree = true) {most fuel : Nat}
    (hmost : sizeOf session + sizeOf input.program ≤ most)
    (hfuel : most + most * session.calls.remaining ≤ fuel) :
    (session.execute fuel input).Ends := by
  -- the bound is large enough for the session and for the program together
  have hwithin := hsession.within_loopFree hreached (Nat.le_trans (Nat.le_add_right _ _) hmost)
  have hsuffices := nestedWith_suffices most limit session fuel session.calls hlimit
  have hblock := block_stays_of_suffices hsuffices hprogram (by omega) (by omega)
  exact Exec.ends_afterFailure ((program_within hwithin hblock).ends id)

/-- **Under a limit on calls a program without loops ends.** If no loop stands in the program or in
any function, method or getter that the session reaches, then some fuel suffices, and with more fuel
the program ends in the same way. Wherever a host runs a program the session is at rest
(`Session.Hosted.atRest`). -/
theorem terminates_of_loopFree {session : Session} (hsession : session.AtRest) {limit : Nat}
    (hlimit : session.calls.limit = some limit) {input : Input}
    (hprogram : blockLoopFree input.program = true)
    (hreached : ∀ decl, session.ReachesFunction decl → decl.isLoopFree = true) :
    ∃ fuel, (session.execute fuel input).Ends ∧
      ∀ more, fuel ≤ more → session.execute more input = session.execute fuel input := by
  -- the least bound that is large enough gives the fuel
  have hends := execute_ends hsession hlimit hprogram hreached (Nat.le_refl _) (Nat.le_refl _)
  refine ⟨_, hends, fun more hmore => ?_⟩
  have hagrees := execute_agrees (.refl (some limit)) hmore input hlimit
  rw [Session.withLimit_self hlimit] at hagrees
  exact hagrees.eq_of_ends hends

/-- Recursion without an end, from inside an iteration that adds to the array it runs over. -/
def growing : FunctionDecl where
  name := "grow"
  params := [⟨"list", true⟩]
  body :=
    [⟨.iterate (.name "list") .none
      [⟨.evaluate (.method (.name "list") "append" [.string "x"]), 2⟩,
        ⟨.evaluate (.call (.name "grow") [.name "list"]), 3⟩], 1⟩]

/-- A call of the function, which is a global name. -/
def growingCall : Input where
  program := [⟨.evaluate (.call (.name "grow") [.array [.string "x"]]), 1⟩]
  file := none
  source := none

/-- The call ends in a fresh session that reaches the function. -/
theorem growingCall_ends :
    let session := Session.fresh .empty (Entries.empty.insert "grow" (.func ⟨0, .declared growing⟩))
    session.AtRest ∧ session.calls.limit = some Session.defaultCallLimit ∧
      session.ReachesFunction growing ∧
      ∃ fuel, (session.execute fuel growingCall).Ends ∧
        ∀ more, fuel ≤ more → session.execute more growingCall = session.execute fuel growingCall := by
  intro session
  have hrest : session.AtRest := (Session.Hosted.fresh rfl).atRest
  have hreaches : session.Reaches (.func ⟨0, .declared growing⟩) :=
    .global (show session.scopes.globals.get? "grow" = _ from rfl)
  refine ⟨hrest, rfl, .value hreaches, terminates_of_loopFree hrest rfl (by decide) ?_⟩
  intro decl hdecl
  rw [hdecl.eq_of_fresh]
  decide

end DecimalScript
