import DecimalScript.Scope.Basic

/-!
# A stack of environments

What the scopes stand for, without frames that are linked by their numbers: a list of environments,
the innermost first. A name is looked up by going along the list, an environment that is entered is
put in front, and one that is left is taken off.

The operations are those of `Scopes`. `ScopeOp` names those that change something, so that the two
can be asked to do the same things in the same order (`runOps`).
-/

namespace DecimalScript

/-- One environment: what the names stand for in it, and the slots beside them. -/
structure Environment where
  symbols : String → Option Binding
  classes : String → Option ClassDecl
  receiver : Option Value
  result : Option Value
  turn : Option (Value × Value)

namespace Environment

/-- An environment in which no name stands for anything. -/
def fresh (receiver : Option Value) : Environment :=
  { symbols := fun _ => none, classes := fun _ => none, receiver, result := none, turn := none }

/-- The name stands for the binding, and every other name for what it stood for. -/
def withSymbol (env : Environment) (name : String) (binding : Binding) : Environment :=
  { env with symbols := fun other => if other = name then some binding else env.symbols other }

/-- The class stands under its own name. -/
def withClass (env : Environment) (decl : ClassDecl) : Environment :=
  { env with classes := fun other => if other = decl.name then some decl else env.classes other }

/-- What is left of the outermost environment when everything is unwound. -/
def cleared (env : Environment) : Environment := { env with result := none, turn := none }

/-- The environment after the one inside it is left with the implicit result `inner`. -/
def afterInner (env : Environment) (inner : Option Value) : Environment :=
  { env with result := inner.or env.result }

end Environment

/-- The global names and the environments, the innermost first. -/
structure Environments where
  globals : Entries Value
  stack : List Environment

namespace Environments

/-- One environment, the outermost. -/
def ofGlobals (globals : Entries Value) : Environments := { globals, stack := [.fresh none] }

/-- Changes the innermost environment. -/
def modifyInner (envs : Environments) (f : Environment → Environment) : Environments :=
  { envs with stack := envs.stack.modifyHead f }

/-! ### Environments that come and go -/

/-- Enters a new environment. -/
def push (envs : Environments) (receiver : Option Value) : Environments :=
  { envs with stack := .fresh receiver :: envs.stack }

/-- Leaves the innermost environment, unless it is the only one. -/
def pop (envs : Environments) : Environments :=
  match envs.stack with
  | inner :: outer :: rest => { envs with stack := outer.afterInner inner.result :: rest }
  | _ => envs

/-- Leaves all but the outermost environment, which is cleared. -/
def unwind (envs : Environments) : Environments :=
  { envs with stack := envs.stack.getLast?.toList.map Environment.cleared }

/-! ### Looking up -/

/-- What a name stands for: a global name first, then the innermost environment that has it. -/
def find (envs : Environments) (name : String) : Except Cause Value :=
  match envs.globals.get? name with
  | some value => .ok value
  | none =>
    match envs.stack.findSome? (·.symbols name) with
    | some binding => .ok binding.value
    | none => .error (.undefinedName name)

/-- The class of a name. -/
def findClass (envs : Environments) (name : String) : Except Cause ClassDecl :=
  match envs.stack.findSome? (·.classes name) with
  | some decl => .ok decl
  | none => .error (.undefinedName name)

/-- The nearest receiver. -/
def receiver? (envs : Environments) : Option Value := envs.stack.findSome? (·.receiver)

/-- The nearest turn of a loop. -/
def turn? (envs : Environments) : Option (Value × Value) := envs.stack.findSome? (·.turn)

/-- The number just outside of a number, where the outermost environment has the number zero. -/
def outside? : Nat → Option Nat
  | 0 => none
  | id + 1 => some id

/-- The number of the environment around the one with the number `id`. -/
def parent? (envs : Environments) (id : Nat) : Option Nat :=
  if id < envs.stack.length then outside? id else none

/-! ### Binding and assigning -/

/-- Binds a name in the innermost environment. -/
def bind (envs : Environments) (name : String) (value : Value) (constant : Bool) :
    Except Cause Environments :=
  if envs.globals.contains name || envs.stack.head?.any (fun env => (env.symbols name).isSome) then
    .error (.redeclaredName name)
  else
    .ok (envs.modifyInner (·.withSymbol name { value, constant }))

/-- Binds a class in the innermost environment. -/
def bindClass (envs : Environments) (decl : ClassDecl) : Except Cause Environments :=
  if envs.globals.contains decl.name ||
      envs.stack.head?.any (fun env => (env.classes decl.name).isSome) then
    .error (.redeclaredName decl.name)
  else
    .ok (envs.modifyInner (·.withClass decl))

/-- Assigns in the first environment that has the name. -/
def assignIn (name : String) (value : Value) :
    List Environment → Except Cause (List Environment)
  | [] => .error (.undefinedName name)
  | env :: outer =>
    match env.symbols name with
    | none => (assignIn name value outer).map (env :: ·)
    | some binding =>
      if binding.constant then .error (.assignedConstant name)
      else .ok (env.withSymbol name { binding with value } :: outer)

/-- Assigns to a name. -/
def assign (envs : Environments) (name : String) (value : Value) : Except Cause Environments :=
  if envs.globals.contains name then .error (.assignedConstant name)
  else (assignIn name value envs.stack).map fun stack => { envs with stack }

/-! ### Slots of the innermost environment -/

/-- Sets the turn of a loop. -/
def setTurn (envs : Environments) (index value : Value) : Environments :=
  envs.modifyInner fun env => { env with turn := some (index, value) }

/-- Sets the implicit result. -/
def setResult (envs : Environments) (value : Value) : Environments :=
  envs.modifyInner fun env => { env with result := some value }

/-- The implicit result, and the environments without it. -/
def takeResult (envs : Environments) : Option Value × Environments :=
  (envs.stack.head?.bind (·.result), envs.modifyInner fun env => { env with result := none })

/-! ### Assigning along the list -/

/-- Environments without the name are passed over. -/
theorem assignIn_append {name : String} {inner : List Environment}
    (hinner : ∀ env ∈ inner, env.symbols name = none) (value : Value) (outer : List Environment) :
    assignIn name value (inner ++ outer) = (assignIn name value outer).map (inner ++ ·) := by
  -- on the inner environments, through which the search passes without changing them
  induction inner with
  | nil =>
    rw [List.nil_append]
    cases assignIn name value outer <;> rfl
  | cons env inner ih =>
    have hfirst : env.symbols name = none := hinner env List.mem_cons_self
    have hrest : ∀ env ∈ inner, env.symbols name = none := fun env henv =>
      hinner env (List.mem_cons_of_mem _ henv)
    rw [List.cons_append, assignIn, hfirst]
    change (assignIn name value (inner ++ outer)).map (env :: ·) = _
    rw [ih hrest]
    cases assignIn name value outer <;> rfl

/-- No environment has the name. -/
theorem assignIn_of_unbound {name : String} {stack : List Environment}
    (hstack : ∀ env ∈ stack, env.symbols name = none) (value : Value) :
    assignIn name value stack = .error (.undefinedName name) := by
  have happend := assignIn_append hstack value []
  rwa [List.append_nil] at happend

end Environments

/-! ### Sequences of operations -/

/-- An operation that changes scopes or environments. -/
inductive ScopeOp where
  | push (receiver : Option Value)
  | pop
  | unwind
  | bind (name : String) (value : Value) (constant : Bool)
  | assign (name : String) (value : Value)
  | bindClass (decl : ClassDecl)
  | setTurn (index value : Value)
  | setResult (value : Value)
  | takeResult

/-- What an operation gives back: the value that was taken, if any, or why it failed. -/
abbrev ScopeAnswer := Except Cause (Option Value)

/-- The outcome of an operation that may fail, in which case the state stays. -/
def tried {σ : Type} (state : σ) : Except Cause σ → ScopeAnswer × σ
  | .ok next => (.ok none, next)
  | .error cause => (.error cause, state)

/-- What holds before and, if nothing fails, after, holds either way. -/
theorem tried_induction {σ : Type} {p : σ → Prop} {state : σ} {result : Except Cause σ}
    (hstate : p state) (hresult : ∀ next, result = .ok next → p next) :
    p (tried state result).2 := by
  cases result with
  | ok next => exact hresult next rfl
  | error cause => exact hstate

/-- One operation on scopes. -/
def Scopes.step (scopes : Scopes) : ScopeOp → ScopeAnswer × Scopes
  | .push receiver => (.ok none, scopes.push receiver)
  | .pop => (.ok none, scopes.pop)
  | .unwind => (.ok none, scopes.unwind)
  | .bind name value constant => tried scopes (scopes.bind name value constant)
  | .assign name value => tried scopes (scopes.assign name value)
  | .bindClass decl => tried scopes (scopes.bindClass decl)
  | .setTurn index value => (.ok none, scopes.setTurn index value)
  | .setResult value => (.ok none, scopes.setResult value)
  | .takeResult => (.ok scopes.takeResult.1, scopes.takeResult.2)

/-- One operation on environments. -/
def Environments.step (envs : Environments) : ScopeOp → ScopeAnswer × Environments
  | .push receiver => (.ok none, envs.push receiver)
  | .pop => (.ok none, envs.pop)
  | .unwind => (.ok none, envs.unwind)
  | .bind name value constant => tried envs (envs.bind name value constant)
  | .assign name value => tried envs (envs.assign name value)
  | .bindClass decl => tried envs (envs.bindClass decl)
  | .setTurn index value => (.ok none, envs.setTurn index value)
  | .setResult value => (.ok none, envs.setResult value)
  | .takeResult => (.ok envs.takeResult.1, envs.takeResult.2)

/-- Operations one after the other, with the answers in order. -/
def runOps {σ : Type} (step : σ → ScopeOp → ScopeAnswer × σ) :
    List ScopeOp → σ → List ScopeAnswer × σ
  | [], state => ([], state)
  | op :: ops, state =>
    let (answer, next) := step state op
    let (answers, last) := runOps step ops next
    (answer :: answers, last)

/-- What each operation keeps between two states, all of them keep, and the answers are the same. -/
theorem runOps_related {σ τ : Type} {first : σ → ScopeOp → ScopeAnswer × σ}
    {second : τ → ScopeOp → ScopeAnswer × τ} (related : σ → τ → Prop)
    (hstep : ∀ s t op, related s t →
      (first s op).1 = (second t op).1 ∧ related (first s op).2 (second t op).2)
    (ops : List ScopeOp) {s : σ} {t : τ} (hst : related s t) :
    (runOps first ops s).1 = (runOps second ops t).1 ∧
      related (runOps first ops s).2 (runOps second ops t).2 := by
  -- on the operations: both run them one after the other, and answer each alike
  induction ops generalizing s t with
  | nil => exact ⟨rfl, hst⟩
  | cons op ops ih =>
    obtain ⟨hanswer, hnext⟩ := hstep s t op hst
    obtain ⟨hanswers, hlast⟩ := ih hnext
    refine ⟨?_, hlast⟩
    change (first s op).1 :: (runOps first ops (first s op).2).1 =
      (second t op).1 :: (runOps second ops (second t op).2).1
    rw [hanswer, hanswers]

end DecimalScript
