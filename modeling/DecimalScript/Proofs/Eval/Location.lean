import DecimalScript.Proofs.Eval.Passage
import Mathlib.Data.List.DropRight

/-!
# Where a failure is located

A failure gets its location from the session: the line of the innermost statement that was running,
and the file and the source text of the program that the host is running. The line travels with the
statement, but the file and the source do not. So where the body of a function is run that an
earlier program declared, the location combines the line of that program with the file and the text
of the one that calls.

`failure_located_in_running_program` says this of all failures of all programs, and when such a
location is the one of the statement in the program that declared it: when both programs have the
same file name and show the same text at the line. `callee_located_in_caller` is a run in which they
do not.
-/

namespace DecimalScript

variable {α : Type}

/-! ### Locations that are the same -/

/-- A line that is blank begins and ends with blanks only. -/
theorem Text.trim_eq_nil_iff {text : List Char} : trim text = [] ↔ trimEnd text = [] := by
  have hend : ∀ chars, trimEnd chars = [] ↔ ∀ c ∈ chars, isBlank c = true :=
    fun _ => List.rdropWhile_eq_nil_iff
  unfold trim
  rw [hend, hend]
  -- what is trimmed in front is blank, so it decides nothing about the rest
  constructor
  · intro h c hc
    rw [← List.takeWhile_append_dropWhile (p := isBlank) (l := text)] at hc
    rcases List.mem_append.1 hc with hc | hc
    · exact List.mem_takeWhile_imp hc
    · exact h c hc
  · exact fun h c hc => h c ((List.dropWhile_sublist isBlank).mem hc)

/-- The blanks at its end do not count to the indentation of a line that is not blank. -/
theorem Text.indent_trimEnd {text : List Char} (h : trimEnd text ≠ []) :
    indent (trimEnd text) = indent text := by
  -- the blanks are dropped from the end, one after the other
  induction text using List.reverseRecOn with
  | nil => rfl
  | append_singleton init last ih =>
    by_cases hlast : isBlank last = true
    · have hdrop : trimEnd (init ++ [last]) = trimEnd init :=
        List.rdropWhile_concat_pos isBlank init last hlast
      rw [hdrop] at h ⊢
      rw [ih h]
      -- a line with something on it has an end to its indentation
      have hinit : ¬ (init.takeWhile isBlank).length = init.length := by
        intro hlength
        have hall := List.takeWhile_eq_self_iff.1
          ((List.takeWhile_prefix isBlank).eq_of_length hlength)
        exact h (List.rdropWhile_eq_nil_iff.2 hall)
      unfold indent
      rw [List.takeWhile_append, if_neg hinit]
    · have hkeep : trimEnd (init ++ [last]) = init ++ [last] :=
        List.rdropWhile_concat_neg isBlank init last hlast
      rw [hkeep]

/-- Two locations are the same if file, line and the text shown are: the column follows. -/
theorem Location.atLine_eq_atLine_iff {file file' source source' : Option String} {line : Nat} :
    atLine file line source = atLine file' line source' ↔
      file = file' ∧
        Text.trimEnd (lineText source line) = Text.trimEnd (lineText source' line) := by
  -- the column is counted in the trimmed text, and trimming the end moves no first character
  have hcolumn : ∀ chars, (if (Text.trim chars).isEmpty then 0 else Text.indent chars + 1) =
      if (Text.trimEnd chars).isEmpty then 0 else Text.indent (Text.trimEnd chars) + 1 := by
    intro chars
    simp only [List.isEmpty_iff, Text.trim_eq_nil_iff]
    split
    · rfl
    · next hshown => rw [Text.indent_trimEnd hshown]
  unfold atLine
  simp only [hcolumn, Location.mk.injEq, String.ofList_inj]
  constructor
  · exact fun h => ⟨h.1, h.2.2.2⟩
  · rintro ⟨rfl, htext⟩
    simp [htext]

/-! ### The running program -/

/-- The file and the source text of the running program stay while it runs. -/
theorem program_invariant (file source : Option String) :
    Session.Invariant fun s => s.file = file ∧ s.source = source where
  elsewhere hs _ _ hfile hsource := ⟨hfile.trans hs.1, hsource.trans hs.2⟩
  scopes _ hs := hs

theorem Exec.Built.program_eq {x : Exec α} (hx : x.Built) {s t : Session}
    (h : (x.run s).session? = some t) : t.file = s.file ∧ t.source = s.source :=
  (program_invariant s.file s.source).of_built hx ⟨rfl, rfl⟩ h

/-! ### Locations of failures -/

/-- If the failure has a location, it is a line of this file and source text. -/
def Failure.LocatedIn (file source : Option String) (failure : Failure) : Prop :=
  ∀ location, failure.location = some location → ∃ line, location = .atLine file line source

/-- A failure has a location once it has been located. -/
theorem Session.exists_location_locate (s : Session) (failure : Failure) :
    ∃ location, (s.locate failure).location = some location := by
  -- a failure that has a location keeps it
  cases hlocation : failure.location with
  | some location =>
    rw [Session.locate_of_location hlocation]
    exact ⟨location, hlocation⟩
  | none =>
    rw [Session.locate, hlocation]
    exact ⟨_, rfl⟩

theorem Failure.LocatedIn.locate {file source : Option String} {s : Session} {failure : Failure}
    (h : failure.LocatedIn file source) (hs : s.file = file ∧ s.source = source) :
    (s.locate failure).LocatedIn file source := by
  obtain ⟨rfl, rfl⟩ := hs
  -- and it is in the program already; else the location is that of the line
  cases hlocation : failure.location with
  | some location => rwa [Session.locate_of_location hlocation]
  | none =>
    intro location heq
    rw [Session.locate, hlocation] at heq
    exact ⟨s.line, (Option.some.inj heq).symm⟩

/-- A primitive step leaves it to others to locate its failure. -/
theorem Exec.IsStep.location_eq_none {x : Exec α} (hx : x.IsStep) {s t : Session}
    {failure : Failure} (h : x.run s = .failed failure t) : failure.location = none := by
  -- the operations on the scopes fail alike, with a bare cause
  have htryScopes : ∀ f, (Exec.tryScopes f).run s = .failed failure t →
      failure.location = none := by
    intro f hf
    simp only [Exec.tryScopes, Exec.run] at hf
    split at hf
    · cases hf
    · cases hf
      rfl
  cases hx with
  | fail cause => cases h; rfl
  | tryHeap f =>
    simp only [Exec.tryHeap, Exec.run] at h
    split at h
    · cases h
    · cases h
      rfl
  | bindName name value constant => exact htryScopes _ h
  | bindClass decl => exact htryScopes _ h
  | assign name value => exact htryScopes _ h
  | _ => cases h

/-- **Every failure is located in the running program**, if it has been located. -/
theorem Exec.Built.locatedIn {x : Exec α} (hx : x.Built) {s t : Session} {failure : Failure}
    (h : x.run s = .failed failure t) : failure.LocatedIn s.file s.source := by
  -- on how the evaluation is built: a location is only given by `located` and `atLine`, and both
  -- take it from the session
  induction hx generalizing s t failure with
  | step hx =>
    intro location hlocation
    rw [hx.location_eq_none h] at hlocation
    cases hlocation
  | @bind α β x f hx _ ihx ihf =>
    rw [run_bind] at h
    cases hrun : x.run s with
    | done value u =>
      -- the second part runs in the same program as the first
      rw [hrun] at h
      have hsame := hx.program_eq (show (x.run s).session? = some u by rw [hrun]; rfl)
      have hlocated := ihf value h
      rwa [hsame.1, hsame.2] at hlocated
    | failed raised u =>
      rw [hrun] at h
      cases h
      exact ihx hrun
    | outOfFuel =>
      rw [hrun] at h
      cases h
  | @located α x hx ih =>
    obtain ⟨raised, hraised, rfl⟩ := run_located_eq_failed_iff.1 h
    exact (ih hraised).locate (hx.program_eq (by rw [hraised]; rfl))
  | droppingResult _ ih =>
    obtain ⟨u, hfailed, rfl⟩ := run_afterFailure_eq_failed_iff.1 h
    exact ih hfailed
  | @atLine α x line hx ih =>
    obtain ⟨raised, u, hfailed, rfl, rfl⟩ := run_atLine_eq_failed_iff.1 h
    have hsame := hx.program_eq
      (show (x.run { s with line }).session? = some u by rw [hfailed]; rfl)
    exact (ih hfailed).locate hsame
  | @inFrame α x receiver _ ih =>
    obtain ⟨u, hfailed, rfl⟩ := run_inFrame_eq_failed_iff.1 h
    have hlocated := ih hfailed
    exact hlocated
  | @inCall α x name _ ih =>
    simp only [Exec.inCall, Exec.run] at h
    split at h
    · -- there is no room for the call
      cases h
      intro location hlocation
      cases hlocation
    · obtain ⟨u, hfailed, rfl⟩ := run_afterwards_eq_failed_iff.1 h
      have hlocated := ih hfailed
      exact hlocated

/-! ### Statements that fail -/

/-- A statement whose own step raises a failure, which nothing within it has located, locates it at
its line. -/
theorem execStmt_failed {parts : Nat} {stmt : Stmt} {u v : Session} {cause : Cause}
    (h : (execKindWith (nestedWith parts) parts stmt.kind).run { u with line := stmt.line } =
      .failed (.ofCause cause) v) :
    (execStmt (parts + 1) stmt).run u =
      .failed ⟨cause, some (.atLine u.file stmt.line u.source)⟩ { v with line := stmt.line } := by
  -- the file and the source are those that the session had before
  have hsame := (Exec.built_congruence.compatible.execKindWith (nestedWith_built parts) (.inl rfl)
    stmt.kind).program_eq (show _ = some v by rw [h]; rfl)
  refine Exec.run_atLine_eq_failed_iff.2 ⟨_, v, h, ?_, rfl⟩
  change _ = (⟨cause, some (.atLine v.file stmt.line v.source)⟩ : Failure)
  rw [hsame.1, hsame.2]

/-- A declaration that cannot be bound locates its failure at its line. -/
theorem hoistStmt_failed {stmt : Stmt} {u v : Session} {failure : Failure}
    (h : (hoistStmt stmt).run u = .failed failure v) :
    failure.location = some (.atLine u.file stmt.line u.source) := by
  -- both kinds of declaration are bound at the end, when their line has been recorded
  have hbound : ∀ (f : Scopes → Except Cause Scopes) (heap : Heap),
      (Exec.tryScopes f).located.run { u with heap, line := stmt.line } = .failed failure v →
        failure.location = some (.atLine u.file stmt.line u.source) := by
    intro f heap hf
    obtain ⟨raised, hraised, rfl⟩ := Exec.run_located_eq_failed_iff.1 hf
    simp only [Exec.tryScopes, Exec.run] at hraised
    split at hraised
    · cases hraised
    · cases hraised
      rfl
  unfold hoistStmt at h
  split at h
  · exact hbound _ _ h
  · exact hbound _ _ h
  · cases h

namespace Session

/-- The location of a line of a program. -/
def lineOf (session : Session) (input : Input) (line : Nat) : Location :=
  .atLine (input.file.or session.defaultFile) line input.source

/-- A program that is run in this session gets to a statement that fails for this cause, and not
because of a statement within it. -/
inductive FailsAt (session : Session) (fuel : Nat) (input : Input) (stmt : Stmt) (cause : Cause) :
    Prop where
  /-- The statement runs and fails. -/
  | running {parts : Nat} {u v : Session} (hruns : session.RunsStmt fuel input stmt parts u)
      (hraised : (execKindWith (nestedWith parts) parts stmt.kind).run
        { u with line := stmt.line } = .failed (.ofCause cause) v)
  /-- The statement is a declaration, and what it declares cannot be bound. -/
  | declaring {u v : Session} {location : Option Location}
      (hruns : (hoistStmt stmt).Runs u (input.evaluation fuel) (session.start input))
      (hraised : (hoistStmt stmt).run u = .failed ⟨cause, location⟩ v)

/-- What a session runs for a program is the evaluation of the program, with its recovery. -/
theorem execute_eq (session : Session) (fuel : Nat) (input : Input) :
    session.execute fuel input =
      ((input.evaluation fuel).afterFailure recover).run (session.start input) := rfl

variable {session : Session} {fuel : Nat} {input : Input}

/-- A failure of a program has a location, which is a line of the program. -/
theorem located_of_execute_eq_failed {failure : Failure} {after : Session}
    (h : session.execute fuel input = .failed failure after) :
    ∃ line, failure.location = some (session.lineOf input line) := by
  rw [execute_eq] at h
  obtain ⟨t, hfailed, rfl⟩ := Exec.run_afterFailure_eq_failed_iff.1 h
  -- the whole evaluation is located at its end, so a failure of it has a location
  have hlocated : failure.LocatedIn (input.file.or session.defaultFile) input.source :=
    (input.evaluation_built fuel).locatedIn hfailed
  obtain ⟨raised, -, rfl⟩ := Exec.run_located_eq_failed_iff.1 hfailed
  obtain ⟨location, hlocation⟩ := exists_location_locate t raised
  obtain ⟨line, rfl⟩ := hlocated location hlocation
  exact ⟨line, hlocation⟩

/-- The failure of a statement that a program runs is the failure of the program. -/
theorem FailsAt.execute_eq_failed {stmt : Stmt} {cause : Cause}
    (h : session.FailsAt fuel input stmt cause) :
    ∃ after, session.execute fuel input =
      .failed ⟨cause, some (session.lineOf input stmt.line)⟩ after := by
  -- what runs before the statement fails changes neither the file nor the source
  have hprogram := program_invariant (session.start input).file (session.start input).source
  cases h with
  | @running parts u v hruns hraised =>
    have hsame := hprogram.of_runs hruns ⟨rfl, rfl⟩
    have hfailed := execStmt_failed hraised
    rw [hsame.1, hsame.2] at hfailed
    obtain ⟨t, ht⟩ := hruns.failed_of_failed hfailed rfl
    exact ⟨t.recover, Exec.run_afterFailure_eq_failed_iff.2 ⟨t, ht, rfl⟩⟩
  | @declaring u v location hruns hraised =>
    have hsame := hprogram.of_runs hruns ⟨rfl, rfl⟩
    have hlocation := hoistStmt_failed hraised
    rw [hsame.1, hsame.2] at hlocation
    obtain ⟨t, ht⟩ := hruns.failed_of_failed hraised hlocation
    cases hlocation
    exact ⟨t.recover, Exec.run_afterFailure_eq_failed_iff.2 ⟨t, ht, rfl⟩⟩

/-! ### The location of a failure -/

/-- **A failure is located in the program that runs.** Every failure of a program is located at a line
of that program. A statement that fails gives its own line, so the failure is located where the
statement was declared just if the program that declared it has the same file name and shows the same
text at this line as the one that runs. -/
theorem failure_located_in_running_program (session : Session) (fuel : Nat) (input : Input) :
    (∀ failure after, session.execute fuel input = .failed failure after →
      ∃ line, failure.location = some (session.lineOf input line)) ∧
    ∀ stmt cause, session.FailsAt fuel input stmt cause →
      ∃ failure after, session.execute fuel input = .failed failure after ∧
        failure.cause = cause ∧
        failure.location = some (session.lineOf input stmt.line) ∧
        ∀ declared : Input, failure.location = some (session.lineOf declared stmt.line) ↔
          input.file.or session.defaultFile = declared.file.or session.defaultFile ∧
            Text.trimEnd (Location.lineText input.source stmt.line) =
              Text.trimEnd (Location.lineText declared.source stmt.line) := by
  refine ⟨fun failure after h => located_of_execute_eq_failed h, fun stmt cause h => ?_⟩
  obtain ⟨after, hafter⟩ := h.execute_eq_failed
  refine ⟨_, after, hafter, rfl, rfl, fun declared => ?_⟩
  rw [Option.some_inj]
  exact Location.atLine_eq_atLine_iff

end Session

/-! ### A function that is called from another program -/

theorem hoist_eq_pure {block : Block} (h : ∀ stmt ∈ block, stmt.isHoisted = false) :
    hoist block = pure () := by
  -- on the block, each statement of which does nothing here
  induction block with
  | nil => rfl
  | cons stmt rest ih =>
    obtain ⟨hstmt, hrest⟩ := List.forall_mem_cons.1 h
    have hnone : hoistStmt stmt = pure () := by
      unfold hoistStmt
      split
      · next hkind => simp [Stmt.isHoisted, hkind] at hstmt
      · next hkind => simp [Stmt.isHoisted, hkind] at hstmt
      · rfl
    unfold hoist
    rw [hnone]
    exact ih hrest

namespace Exec.Runs

variable {β : Type} {y : Exec β} {nested : Nested} {s u : Session}

/-- A block without declarations begins with its first statement. -/
theorem runBlock {stmt : Stmt} {rest : Block}
    (hblock : ∀ other ∈ stmt :: rest, other.isHoisted = false)
    (h : y.Runs u (nested.exec stmt) s) :
    y.Runs u (DecimalScript.runBlock nested (stmt :: rest)) s := by
  unfold DecimalScript.runBlock
  -- nothing is hoisted, so the first statement is where the block begins
  rw [hoist_eq_pure hblock]
  refine .inSecond (.step (.pure ())) rfl ?_
  unfold runStmts
  rw [if_neg (by simp [hblock stmt (List.mem_cons_self ..)])]
  exact .inFirst h

/-- Where the receiver has no method of a name, what the name is bound to is called. -/
theorem callName {name : String} {args : List Value} {f : Closure}
    (hmethod : receiverMethod? s name = none) (hfind : s.scopes.find name = .ok (.func f))
    (h : y.Runs u (DecimalScript.invoke nested f.routine none args) s) :
    y.Runs u (DecimalScript.callName nested name args) s := by
  unfold DecimalScript.callName
  -- the name is looked up in two steps, and each of them is a step of the path
  have hcallee : (Exec.ofExcept (s.scopes.find name)).run s = .done (.func f) s := by
    rw [hfind]
    rfl
  refine .inSecond (.step (.read fun _ _ => rfl)) (run_read _ s) ?_
  rw [hmethod]
  refine .inSecond (.step (.read fun _ _ => rfl)) (run_read _ s) ?_
  exact .inSecond (.step (.ofExcept _)) hcallee h

/-- A call of a function without parameters runs its body in a frame and a call of its own. -/
theorem invoke {decl : FunctionDecl} {receiver : Option Value} {calls : CallStack}
    (hparams : decl.params = []) (hpush : s.calls.push decl.name = .ok calls)
    (h : y.Runs u (DecimalScript.runBlock nested decl.body)
      { s with calls, scopes := s.scopes.push receiver }) :
    y.Runs u (DecimalScript.invoke nested (.declared decl) receiver []) s := by
  unfold DecimalScript.invoke
  refine .inCall hpush (.inFrame ?_)
  rw [hparams]
  refine .inSecond (Exec.built_congruence.compatible.bindParams decl.name [] []) rfl ?_
  exact .inFirst (.droppingResult h)

end Exec.Runs

namespace Session

/-- A program that calls a function gets to the statement in the body of the function, whatever
program declared it. -/
theorem runsStmt_of_call (decl : FunctionDecl) {session : Session} {fuel : Nat} {input : Input}
    {stmt : Stmt} {id line : Nat} {calls : CallStack}
    (hprogram : input.program = [⟨.evaluate (.call (.name decl.name) []), line⟩])
    (hparams : decl.params = []) (hbody : decl.body = [stmt]) (hstmt : stmt.isHoisted = false)
    (hmethod : receiverMethod? session decl.name = none)
    (hfind : session.scopes.find decl.name = .ok (.func ⟨id, .declared decl⟩))
    (hpush : session.calls.push decl.name = .ok calls) :
    session.RunsStmt (fuel + 3) input stmt fuel
      { session.start input with line, calls, scopes := session.scopes.push none } := by
  unfold RunsStmt Input.evaluation
  rw [hprogram]
  -- down the path: the program, its one statement, the call, the body and its one statement
  refine .located (.inFirst (.runBlock (by simp [Stmt.isHoisted]) (.atLine line (.inFirst ?_))))
  refine .inSecond (.step (.pure ([] : List Value))) rfl ?_
  refine .callName hmethod hfind (.invoke hparams hpush ?_)
  rw [hbody]
  refine .runBlock (by simpa using hstmt) ?_
  exact .self ((nestedWith_built (fuel + 1)).exec stmt)

end Session

/-- A name that cannot be looked up fails as a statement. -/
theorem evaluate_name_failed {fuel turns : Nat} {name : String} {cause : Cause} {s : Session}
    (h : s.scopes.find name = .error cause) :
    (execKindWith (nestedWith (fuel + 1)) turns (.evaluate (.name name))).run s =
      .failed (.ofCause cause) s := by
  have hname : ((nestedWith (fuel + 1)).eval (.name name)).run s = .failed (.ofCause cause) s := by
    change (Exec.ofExcept (s.scopes.find name)).run s = _
    rw [h]
    rfl
  unfold execKindWith
  rw [Exec.run_bind, hname]

/-- A statement that fails. -/
def missing : Stmt :=
  ⟨.evaluate (.name "missing"), 2⟩

/-- A program that declares a function whose body fails. -/
def declaring : Input where
  program := [⟨.function ⟨"f", [], [missing]⟩, 1⟩]
  file := some "lib.zn"
  source := some "fn f() \x7b\n    missing\n\x7d\n"

/-- A program that calls the function. -/
def calling : Input where
  program := [⟨.evaluate (.call (.name "f") []), 1⟩]
  file := some "main.zn"
  source := some "f()\n"

/-- The function stays in the session, and the program that calls it gets to the statement. -/
theorem calling_failsAt_missing :
    ∃ library, (Session.fresh .empty .empty).execute 9 declaring = .done .null library ∧
      library.FailsAt 9 calling missing (.undefinedName "missing") := by
  -- what the first program leaves behind is found by computation
  have hlibrary : ∃ library calls,
      (Session.fresh .empty .empty).execute 9 declaring = .done .null library ∧
      receiverMethod? library "f" = none ∧
      library.scopes.find "f" = .ok (.func ⟨0, .declared ⟨"f", [], [missing]⟩⟩) ∧
      (library.scopes.push none).find "missing" = .error (.undefinedName "missing") ∧
      library.calls.push "f" = .ok calls :=
    ⟨_, _, rfl, rfl, rfl, rfl, rfl⟩
  obtain ⟨library, calls, hdeclared, hmethod, hfind, hmissing, hpush⟩ := hlibrary
  refine ⟨library, hdeclared, ?_⟩
  have hruns : library.RunsStmt 9 calling missing 6 _ :=
    Session.runsStmt_of_call ⟨"f", [], [missing]⟩ rfl rfl rfl rfl hmethod hfind hpush
  exact .running hruns (evaluate_name_failed hmissing)

/-- The failure is located at a line that the calling program does not even have. -/
theorem calling_located_past_end :
    ∃ library : Session, library.FailsAt 9 calling missing (.undefinedName "missing") ∧
      ∃ failure after, library.execute 9 calling = .failed failure after ∧
        failure.location = some ⟨some "main.zn", 2, 0, ""⟩ := by
  obtain ⟨library, -, hfails⟩ := calling_failsAt_missing
  obtain ⟨failure, after, hfailed, -, hlocation, -⟩ :=
    (Session.failure_located_in_running_program library 9 calling).2 missing _ hfails
  have hline : Location.atLine (some "main.zn") 2 (some "f()\n") = ⟨some "main.zn", 2, 0, ""⟩ := by
    decide +kernel
  refine ⟨library, hfails, failure, after, hfailed, ?_⟩
  rw [hlocation, ← hline]
  rfl

/-- **A failure is not always located where the statement that failed was declared.** -/
theorem callee_located_in_caller :
    ∃ library, (Session.fresh .empty .empty).execute 9 declaring = .done .null library ∧
      library.FailsAt 9 calling missing (.undefinedName "missing") ∧
      ∃ failure after, library.execute 9 calling = .failed failure after ∧
        failure.location ≠ some (library.lineOf declaring missing.line) := by
  obtain ⟨library, hdeclared, hfails⟩ := calling_failsAt_missing
  obtain ⟨after, hafter⟩ := hfails.execute_eq_failed
  refine ⟨library, hdeclared, hfails, _, after, hafter, ?_⟩
  intro hlocation
  -- equal locations would have equal files
  have hsame := (Location.atLine_eq_atLine_iff.1 (Option.some.inj hlocation)).1
  have hfiles : some "main.zn" = some "lib.zn" := hsame
  revert hfiles
  decide

end DecimalScript
