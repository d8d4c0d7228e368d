import DecimalScript.Proofs.Eval.Origin
import DecimalScript.Proofs.Eval.Restoration
import DecimalScript.Proofs.Scope.Names

/-!
# Declarations

What a declaration of several names leaves in the current frame. The value is found first, which
adds no name. Then the names are bound one after another, up to the first that can not be bound
(`Scopes.FirstClash`): the declaration fails there, and the names before it stay bound, since nothing
takes a binding back (`name_left_by_failed_declaration`).

Main result: `declaration_gains_names`.
-/

namespace DecimalScript

/-- The name is the first of the list that can not be bound; the others stand before it. -/
structure Scopes.FirstClash (scopes : Scopes) (names before : List String) (name : String) :
    Prop where
  split : ∃ after, names = before ++ name :: after
  canBind : scopes.CanBind before
  clash : ¬scopes.CanBind (before ++ [name])

variable {s : Session} {names : List String}

/-- A name in front that can be bound is one more before the clash. -/
theorem Scopes.FirstClash.cons {s t : Scopes} {before : List String} {name first : String}
    (h : t.FirstClash names before name) (hgains : s.Gains t [first])
    (hfirst : s.CanBind [first]) : s.FirstClash (first :: names) (first :: before) name where
  split := by
    obtain ⟨after, rfl⟩ := h.split
    exact ⟨after, rfl⟩
  canBind := (hgains.canBind_iff hfirst).1 h.canBind
  clash hall := h.clash ((hgains.canBind_iff hfirst).2 hall)

theorem Scopes.FirstClash.not_canBind {scopes : Scopes} {before : List String} {name : String}
    (h : scopes.FirstClash names before name) : ¬scopes.CanBind names := by
  obtain ⟨after, rfl⟩ := h.split
  intro hall
  rw [List.append_cons] at hall
  exact h.clash hall.of_append

/-- All names are bound, or those before the first that can not be bound. -/
theorem run_bindNames (value : Value) (constant byRef : Bool)
    (hcurrent : s.scopes.current < s.scopes.depth) (names : List String) :
    (∃ t, (bindNames value constant byRef names).run s = .done () t ∧
      s.scopes.CanBind names ∧ s.scopes.Gains t.scopes names) ∨
    ∃ before name t, (bindNames value constant byRef names).run s =
        .failed (.ofCause (.redeclaredName name)) t ∧
      s.scopes.FirstClash names before name ∧ s.scopes.Gains t.scopes before := by
  -- on the names, for any scopes: each binding changes those in which the next is tried
  induction names generalizing s with
  | nil => exact .inl ⟨s, rfl, s.scopes.canBind_nil, .refl s.scopes⟩
  | cons first names ih =>
    -- to copy the value changes the heap only
    let copied : Session := { s with heap := (s.heap.pass byRef value).2 }
    have hrun : (bindNames value constant byRef (first :: names)).run s =
        (Exec.tryScopes (·.bind first (s.heap.pass byRef value).1 constant) >>= fun _ =>
          bindNames value constant byRef names).run copied := rfl
    rw [hrun, Exec.run_bind]
    by_cases hfirst : s.scopes.CanBind [first]
    · -- the rest is bound where the first name is bound as well, so a clash is later by that name
      obtain ⟨scopes, hbind, hgains⟩ :=
        Scopes.bind_of_canBind hcurrent hfirst (s.heap.pass byRef value).1 constant
      have hcurrent' : scopes.current < scopes.depth := by
        rw [hgains.current, hgains.depth]
        exact hcurrent
      have hstep : (Exec.tryScopes (·.bind first (s.heap.pass byRef value).1 constant)).run copied =
          .done () { copied with scopes } := by
        simp only [Exec.tryScopes, Exec.run, copied, hbind]
      rw [hstep]
      obtain ⟨t, ht, hnames, hmore⟩ | ⟨before, name, t, ht, hclash, hmore⟩ :=
        @ih { copied with scopes } hcurrent'
      · exact .inl ⟨t, ht, (hgains.canBind_iff hfirst).1 hnames, hgains.trans hmore⟩
      · exact .inr ⟨first :: before, name, t, ht, hclash.cons hgains hfirst, hgains.trans hmore⟩
    · have hstep : (Exec.tryScopes (·.bind first (s.heap.pass byRef value).1 constant)).run copied =
          .failed (.ofCause (.redeclaredName first)) copied := by
        simp only [Exec.tryScopes, Exec.run, copied, Scopes.bind_of_not_canBind hfirst]
      rw [hstep]
      exact .inr ⟨[], first, copied, rfl, ⟨⟨names, rfl⟩, s.scopes.canBind_nil, hfirst⟩,
        .refl s.scopes⟩

/-- To find the value of a declaration adds no name. -/
theorem gains_of_evalInitializer {fuel line : ℕ} {init : Initializer} {t : Session}
    (hcurrent : s.scopes.current < s.scopes.depth)
    (h : ((evalInitializer (nestedWith fuel) init).run { s with line }).session? = some t) :
    s.scopes.Gains t.scopes [] :=
  ((evalInitializer_follows (nestedWith_follows fuel) init _ t h).kept
    (Nat.zero_lt_of_lt hcurrent)).scopes.gains hcurrent

section Declaration

variable {fuel line : ℕ} {init : Initializer} (byRef : Bool)

/-- Where the value is not found, the declaration fails for that, and no name is added. -/
theorem run_declare_of_failed (names : List String) (hcurrent : s.scopes.current < s.scopes.depth)
    {raised : Failure} {u : Session}
    (hinit : (evalInitializer (nestedWith fuel) init).run { s with line } = .failed raised u) :
    ∃ failure t, (execStmt (fuel + 1) ⟨.declare names init byRef, line⟩).run s = .failed failure t ∧
      failure.cause = raised.cause ∧ s.scopes.Gains t.scopes [] := by
  -- what the initializer did to the scopes is all that was done
  have hgains : s.scopes.Gains u.scopes [] :=
    gains_of_evalInitializer hcurrent (by rw [hinit]; rfl)
  exact ⟨_, _, Exec.run_atLine_eq_failed_iff.2
    ⟨raised, u, Exec.run_bind_eq_failed_iff.2 (.inl hinit), rfl, rfl⟩,
    Session.cause_locate _ raised, hgains⟩

/-- Where the value is found, the names are bound up to the first clash. -/
theorem run_declare_of_done (names : List String) (hcurrent : s.scopes.current < s.scopes.depth)
    {bound : Value × Bool} {u : Session}
    (hinit : (evalInitializer (nestedWith fuel) init).run { s with line } = .done bound u) :
    (∃ t, (execStmt (fuel + 1) ⟨.declare names init byRef, line⟩).run s = .done .normal t ∧
      s.scopes.CanBind names ∧ s.scopes.Gains t.scopes names) ∨
    ∃ failure t before name,
      (execStmt (fuel + 1) ⟨.declare names init byRef, line⟩).run s = .failed failure t ∧
      failure.cause = .redeclaredName name ∧ s.scopes.FirstClash names before name ∧
      s.scopes.Gains t.scopes before := by
  have hgains : s.scopes.Gains u.scopes [] :=
    gains_of_evalInitializer hcurrent (by rw [hinit]; rfl)
  -- the initializer leaves the names of the current scope as they were
  have hcanBind : ∀ names, u.scopes.CanBind names ↔ s.scopes.CanBind names := fun _ =>
    hgains.canBind_iff s.scopes.canBind_nil
  have hcurrent' : u.scopes.current < u.scopes.depth := by
    rw [hgains.current, hgains.depth]
    exact hcurrent
  obtain ⟨t, ht, hnames, hmore⟩ | ⟨before, name, t, ht, hclash, hmore⟩ :=
    run_bindNames bound.1 bound.2 byRef hcurrent' names
  · exact .inl ⟨t, Exec.run_atLine_eq_done_iff.2 (Exec.run_bind_eq_done_iff.2
      ⟨bound, u, hinit, Exec.run_bind_eq_done_iff.2 ⟨(), t, ht, rfl⟩⟩), (hcanBind names).1 hnames,
      hgains.trans hmore⟩
  · exact .inr ⟨_, _, before, name, Exec.run_atLine_eq_failed_iff.2
      ⟨_, t, Exec.run_bind_eq_failed_iff.2
        (.inr ⟨bound, u, hinit, Exec.run_bind_eq_failed_iff.2 (.inl ht)⟩), rfl, rfl⟩,
      Session.cause_locate _ _,
      ⟨hclash.split, (hcanBind before).1 hclash.canBind, mt (hcanBind _).2 hclash.clash⟩,
      hgains.trans hmore⟩

/-- **A declaration binds its names up to the first clash.** If it fails, then either its value was
not found, and the current frame binds what it did, or the failure is that of the first name that
can not be bound, and the frame has gained the names before it. If it succeeds, all names are new
there. Once the value is found, it succeeds just if all its names can be bound. -/
theorem declaration_gains_names
    (hcurrent : s.scopes.current < s.scopes.depth) :
    (∀ failure t,
      (execStmt (fuel + 1) ⟨.declare names init byRef, line⟩).run s = .failed failure t →
        (∃ raised u, (evalInitializer (nestedWith fuel) init).run { s with line } =
          .failed raised u ∧ failure.cause = raised.cause ∧ s.scopes.Gains t.scopes []) ∨
        ∃ before name, s.scopes.FirstClash names before name ∧
          failure.cause = .redeclaredName name ∧ s.scopes.Gains t.scopes before) ∧
    (∀ flow t, (execStmt (fuel + 1) ⟨.declare names init byRef, line⟩).run s = .done flow t →
      flow = .normal ∧ s.scopes.CanBind names ∧ s.scopes.Gains t.scopes names) ∧
    ∀ value u, (evalInitializer (nestedWith fuel) init).run { s with line } = .done value u →
      ((∃ t, (execStmt (fuel + 1) ⟨.declare names init byRef, line⟩).run s = .done .normal t) ↔
        s.scopes.CanBind names) := by
  cases hinit : (evalInitializer (nestedWith fuel) init).run { s with line } with
  | done bound u =>
    obtain ⟨t, hrun, hnames, hgains⟩ | ⟨failure, t, before, name, hrun, hcause, hclash, hgains⟩ :=
      run_declare_of_done byRef names hcurrent hinit
    · rw [hrun]
      refine ⟨?_, ?_, fun _ _ _ => ⟨fun _ => hnames, fun _ => ⟨t, rfl⟩⟩⟩
      · rintro _ _ ⟨⟩
      · rintro _ _ ⟨⟩
        exact ⟨rfl, hnames, hgains⟩
    · rw [hrun]
      refine ⟨?_, ?_, fun _ _ _ => ⟨?_, fun hnames => absurd hnames hclash.not_canBind⟩⟩
      · rintro _ _ ⟨⟩
        exact .inr ⟨before, name, hclash, hcause, hgains⟩
      · rintro _ _ ⟨⟩
      · rintro ⟨_, ⟨⟩⟩
  | failed raised u =>
    obtain ⟨failure, t, hrun, hcause, hgains⟩ :=
      run_declare_of_failed byRef names hcurrent hinit
    rw [hrun]
    refine ⟨?_, ?_, ?_⟩
    · rintro _ _ ⟨⟩
      exact .inl ⟨raised, u, rfl, hcause, hgains⟩
    · rintro _ _ ⟨⟩
    · rintro _ _ ⟨⟩
  | outOfFuel =>
    -- nor does the declaration end
    refine ⟨fun failure t hfailed => ?_, fun flow t hdone => ?_, ?_⟩
    · obtain ⟨raised, u, hraised, -⟩ := Exec.run_atLine_eq_failed_iff.1 hfailed
      obtain hfirst | ⟨_, _, hfirst, -⟩ := Exec.run_bind_eq_failed_iff.1 hraised
      · cases hinit.symm.trans hfirst
      · cases hinit.symm.trans hfirst
    · obtain ⟨_, _, hfirst, -⟩ := Exec.run_bind_eq_done_iff.1 (Exec.run_atLine_eq_done_iff.1 hdone)
      cases hinit.symm.trans hfirst
    · rintro _ _ ⟨⟩

end Declaration

/-- A session in which `true` is a global name. -/
def sessionWithGlobal : Session :=
  .fresh .empty (Entries.empty.insert "true" (.bool true))

/-- A declaration of the names with a text for their value. -/
def textDeclaration (names : List String) : Stmt :=
  ⟨.declare names (.mutable (.string "x")) false, 1⟩

theorem names_gained_by_declaration :
    sessionWithGlobal.scopes.current < sessionWithGlobal.scopes.depth ∧
      ∃ t, (execStmt 2 (textDeclaration ["a", "c"])).run sessionWithGlobal = .done .normal t ∧
        sessionWithGlobal.scopes.Gains t.scopes ["a", "c"] := by
  have hcurrent : sessionWithGlobal.scopes.current < sessionWithGlobal.scopes.depth := by decide
  have hdeclared := @declaration_gains_names sessionWithGlobal ["a", "c"] 1 1
    (.mutable (.string "x")) false hcurrent
  have hcanBind : sessionWithGlobal.scopes.CanBind ["a", "c"] :=
    ⟨by decide, by decide, by decide⟩
  obtain ⟨t, ht⟩ := (hdeclared.2.2 (.str "x", false) _ rfl).2 hcanBind
  exact ⟨hcurrent, t, ht, (hdeclared.2.1 _ t ht).2.2⟩

/-- The declaration fails at the global name and leaves the name before it bound, so that this name
can not be declared again. -/
theorem name_left_by_failed_declaration :
    ∃ t, ((execStmt 2 (textDeclaration ["a", "true"])).run sessionWithGlobal).session? = some t ∧
      ((execStmt 2 (textDeclaration ["a", "true"])).run sessionWithGlobal).cause? =
        some (.redeclaredName "true") ∧
      "a" ∉ sessionWithGlobal.scopes.boundNames ∧ "a" ∈ t.scopes.boundNames ∧
      ((execStmt 2 (textDeclaration ["a", "c"])).run t).cause? = some (.redeclaredName "a") := by
  have hends : ((execStmt 2 (textDeclaration ["a", "true"])).run sessionWithGlobal).session?.any
      (fun t => "a" ∈ t.scopes.boundNames ∧
        ((execStmt 2 (textDeclaration ["a", "c"])).run t).cause? = some (.redeclaredName "a")) =
      true := by decide +kernel
  obtain ⟨t, ht, hleft⟩ := (Option.any_eq_true _ _).1 hends
  rw [decide_eq_true_eq] at hleft
  exact ⟨t, ht, by decide +kernel, by decide, hleft.1, hleft.2⟩

end DecimalScript
