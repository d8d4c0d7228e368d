import DecimalScript.Eval.Run
import DecimalScript.Proofs.Scope.Realm

/-!
# Evaluation within a realm

An evaluation stays within a realm if from every session within the realm it comes to a session
within the realm, with a result of which something may be said, or ends in another way that the realm
has (`Exec.Stays`). The call stack at its start is a parameter, since what a body may do can depend on
how deep it is called.

The primitive evaluations stay within the realm if what they do to the heap and the frames does, and
the combinators if their parts do. A call runs on a call stack with one more name.
-/

namespace DecimalScript

variable {α β : Type}

/-- The session holds nothing but what is of the realm. -/
structure Session.Within (realm : Realm) (s : Session) : Prop where
  heap : s.heap.Within realm
  scopes : s.scopes.Within realm
  imports : s.imports.All realm.HasValue

theorem Session.within_of_isTotal {realm : Realm} (h : realm.IsTotal) {s : Session}
    (hheap : realm.HasHeap s.heap) : s.Within realm where
  heap := h.heap_within hheap
  scopes := Scopes.within_of_isTotal h s.scopes
  imports _ v _ := h.hasValue v

theorem Session.within_everything (s : Session) : s.Within Realm.everything :=
  Session.within_of_isTotal Realm.isTotal_everything trivial

/-- The evaluation ended within the realm and on the given call stack. -/
def Outcome.Within (realm : Realm) (calls : CallStack) (post : α → Prop) : Outcome α → Prop
  | .done value t => post value ∧ t.calls = calls ∧ t.Within realm
  | .failed failure t => realm.MayFail failure.cause ∧ t.calls = calls ∧ t.Within realm
  | .outOfFuel => realm.MayStop

/-- From every session within the realm the evaluation ends within it. -/
def Exec.Stays (realm : Realm) (calls : CallStack) (post : α → Prop) (x : Exec α) : Prop :=
  ∀ s : Session, s.calls = calls → s.Within realm → (x.run s).Within realm calls post

variable {realm : Realm} {calls : CallStack}

namespace Exec

variable {x : Exec α} {p : α → Prop} {next : β → Prop}

/-! ### Primitive evaluations -/

theorem Stays.pure {value : α} (h : p value) : (pure value : Exec α).Stays realm calls p :=
  fun _ hcalls hs => ⟨h, hcalls, hs⟩

theorem Stays.fail {cause : Cause} (h : realm.MayFail cause) :
    (Exec.fail cause : Exec α).Stays realm calls p :=
  fun _ hcalls hs => ⟨h, hcalls, hs⟩

theorem Stays.outOfFuel (h : realm.MayStop) : (Exec.outOfFuel : Exec α).Stays realm calls p :=
  fun _ _ _ => h

theorem Stays.read {f : Session → α} (hf : ∀ s : Session, s.Within realm → p (f s)) :
    (Exec.read f).Stays realm calls p :=
  fun s hcalls hs => ⟨hf s hs, hcalls, hs⟩

theorem Stays.modify {f : Session → Session} {p : Unit → Prop} (hpost : p ())
    (hcalls : ∀ s, (f s).calls = s.calls) (hf : ∀ s : Session, s.Within realm → (f s).Within realm) :
    (Exec.modify f).Stays realm calls p :=
  fun s hs hwithin => ⟨hpost, (hcalls s).trans hs, hf s hwithin⟩

theorem Stays.onHeap {f : Heap → α × Heap}
    (hf : ∀ heap : Heap, heap.Within realm → p (f heap).1 ∧ (f heap).2.Within realm) :
    (Exec.onHeap f).Stays realm calls p := by
  intro s hcalls hs
  obtain ⟨hpost, hheap⟩ := hf s.heap hs.heap
  exact ⟨hpost, hcalls, { hs with heap := hheap }⟩

theorem Stays.ofExcept {result : Except Cause α} (h : realm.Allows p result) :
    (Exec.ofExcept result).Stays realm calls p := by
  cases result with
  | ok value => exact .pure h
  | error cause => exact .fail h

theorem Stays.tryHeap {f : Heap → Except Cause (α × Heap)}
    (hf : ∀ heap : Heap, heap.Within realm →
      realm.Allows (fun result => p result.1 ∧ result.2.Within realm) (f heap)) :
    (Exec.tryHeap f).Stays realm calls p := by
  intro s hcalls hs
  -- what the operation may do is known of the heap that is there
  have hresult := hf s.heap hs.heap
  simp only [Exec.tryHeap, Exec.run]
  split
  · next value heap hok =>
    rw [hok] at hresult
    exact ⟨hresult.1, hcalls, { hs with heap := hresult.2 }⟩
  · next cause herror =>
    rw [herror] at hresult
    exact ⟨hresult, hcalls, hs⟩

theorem Stays.tryScopes {f : Scopes → Except Cause Scopes} {p : Unit → Prop} (hpost : p ())
    (hf : ∀ scopes : Scopes, scopes.Within realm →
      realm.Allows (Scopes.Within realm) (f scopes)) : (Exec.tryScopes f).Stays realm calls p := by
  intro s hcalls hs
  -- the same for the scopes
  have hresult := hf s.scopes hs.scopes
  simp only [Exec.tryScopes, Exec.run]
  split
  · next scopes hok =>
    rw [hok] at hresult
    exact ⟨hpost, hcalls, { hs with scopes := hresult }⟩
  · next cause herror =>
    rw [herror] at hresult
    exact ⟨hresult, hcalls, hs⟩

/-! ### Combinators -/

theorem Stays.bind {f : α → Exec β} (hx : x.Stays realm calls p)
    (hf : ∀ value, p value → (f value).Stays realm calls next) :
    (x >>= f).Stays realm calls next := by
  intro s hcalls hs
  have hfirst := hx s hcalls hs
  rw [run_bind]
  -- only a value leads to the second part, and its state is in the realm
  cases hrun : x.run s with
  | done value t =>
    rw [hrun] at hfirst
    obtain ⟨hpost, hcalls', ht⟩ := hfirst
    exact hf value hpost t hcalls' ht
  | failed failure t =>
    rw [hrun] at hfirst
    exact hfirst
  | outOfFuel =>
    rw [hrun] at hfirst
    exact hfirst

theorem Stays.mono {weaker : α → Prop} (hx : x.Stays realm calls p)
    (himp : ∀ value, p value → weaker value) : x.Stays realm calls weaker := by
  have h := hx.bind fun value hvalue => .pure (himp value hvalue)
  rwa [bind_pure] at h

/-- A change of the session that keeps it within the realm and is made after the evaluation. -/
theorem Stays.afterwards {other : CallStack} {f : Session → Session}
    (hx : x.Stays realm calls p)
    (hf : ∀ t : Session, t.calls = calls → t.Within realm →
      (f t).calls = other ∧ (f t).Within realm) {s : Session} (hcalls : s.calls = calls)
    (hs : s.Within realm) : ((x.afterwards f).run s).Within realm other p := by
  have hends := hx s hcalls hs
  simp only [Exec.afterwards, Exec.run] at hends ⊢
  -- whether it succeeds or fails, the state at the end is changed by `f`
  cases hrun : x s with
  | done value t =>
    rw [hrun] at hends
    obtain ⟨hpost, hcalls', ht⟩ := hends
    exact ⟨hpost, hf t hcalls' ht⟩
  | failed failure t =>
    rw [hrun] at hends
    obtain ⟨hcause, hcalls', ht⟩ := hends
    exact ⟨hcause, hf t hcalls' ht⟩
  | outOfFuel =>
    rw [hrun] at hends
    exact hends

theorem Stays.afterFailure {f : Session → Session} (hx : x.Stays realm calls p)
    (hcalls : ∀ t, (f t).calls = t.calls) (hf : ∀ t : Session, t.Within realm → (f t).Within realm) :
    (x.afterFailure f).Stays realm calls p := by
  intro s hs hwithin
  have hends := hx s hs hwithin
  simp only [Exec.afterFailure, Exec.run] at hends ⊢
  -- only a failure is followed by `f`
  cases hrun : x s with
  | done value t =>
    rw [hrun] at hends
    exact hends
  | failed failure t =>
    rw [hrun] at hends
    obtain ⟨hcause, ht, hwithin'⟩ := hends
    exact ⟨hcause, (hcalls t).trans ht, hf t hwithin'⟩
  | outOfFuel =>
    rw [hrun] at hends
    exact hends

theorem Stays.located (hx : x.Stays realm calls p) : x.located.Stays realm calls p := by
  intro s hcalls hs
  have hends := hx s hcalls hs
  simp only [Exec.located, Exec.run] at hends ⊢
  cases hrun : x s with
  | done value t =>
    rw [hrun] at hends
    exact hends
  | failed failure t =>
    rw [hrun] at hends
    -- a location is added, and the cause stays
    rw [Outcome.Within, Session.cause_locate]
    exact hends
  | outOfFuel =>
    rw [hrun] at hends
    exact hends

theorem Stays.setLine (line : Nat) : (Exec.setLine line).Stays realm calls fun _ => True :=
  .modify trivial (fun _ => rfl) fun _ hs => { hs with }

theorem Stays.atLine (line : Nat) (hx : x.Stays realm calls p) :
    (Exec.atLine line x).Stays realm calls p :=
  .bind (.setLine line) fun _ _ => .located (.afterFailure hx (fun _ => rfl) fun _ ht => { ht with })

theorem Stays.inFrame {receiver : Option Value} (hreceiver : ∀ v ∈ receiver, realm.HasValue v)
    (hx : x.Stays realm calls p) : (Exec.inFrame receiver x).Stays realm calls p := by
  refine .bind (p := fun _ => True) (.modify trivial (fun _ => rfl) fun s hs => ?_) fun _ _ => ?_
  · exact { hs with scopes := hs.scopes.push hreceiver }
  · intro s hcalls hs
    exact hx.afterwards (f := fun t => { t with scopes := t.scopes.pop })
      (fun t hcalls' ht => ⟨hcalls', { ht with scopes := ht.scopes.pop }⟩) hcalls hs

/-- A call runs on the call stack with its name, unless it is refused. -/
theorem Stays.inCall {name : String}
    (hx : ∀ deeper, calls.push name = .ok deeper → x.Stays realm deeper p) :
    (Exec.inCall name x).Stays realm calls p := by
  rintro s rfl hs
  simp only [Exec.inCall, Exec.run]
  split
  · next cause herror =>
    refine ⟨realm.mayFail cause ?_, rfl, hs⟩
    unfold CallStack.push at herror
    split at herror <;> cases herror
    rfl
  · next deeper hpush =>
    refine (hx deeper hpush).afterwards (f := fun t => { t with calls := t.calls.pop })
      (s := { s with calls := deeper }) (fun t hcalls ht => ⟨?_, { ht with }⟩) rfl { hs with }
    -- what ran leaves the call stack as it found it, so the name on top is that of this call
    rw [hcalls]
    exact CallStack.pop_of_push hpush

end Exec

end DecimalScript
