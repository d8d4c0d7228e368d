import DecimalScript.Scope.Globals
import DecimalScript.Proofs.Eval.Keys
import DecimalScript.Proofs.Value.History

/-!
# Maps as ordered dictionaries

A map is made by a literal or from pairs, and from then on it is written by the methods `set` and
`delete` and by assignments to an index. `MapHistory` keeps the writes, and the map holds what they
leave (`MapHistory.entries_eq`). Everything that looks at a map, be it a method, an index, a property
or an iteration, shows the same entries (`shows_entries`).

`get` answers null for a key that is missing, and so it does for a key that holds null. Only for the
missing one an index fails (`stored_null_read`).

Main result: `maps_are_ordered_dictionaries`.
-/

namespace DecimalScript

variable {nested : Nested} {addr : Nat} {key : Value} {text : String} {s t : Session}

/-! ### The writes of a map -/

/-- The write of an entry of a literal, if its key is one. -/
def putOf? (entry : Value × Value) : Option (KeyWrite Value) :=
  (mapKey entry.1).toOption.map fun text => .put text entry.2

/-- What a use writes. -/
def KeyUse.writes (text : String) : KeyUse → List (KeyWrite Value)
  | read | get => []
  | assign new | set new => [.put text new]
  | delete => [.drop text]

/-- The map at the address was made and used in this way, up to the session. Whatever leaves it as it
is may have happened in between. -/
inductive MapHistory (addr : Nat) : List (KeyWrite Value) → Session → Prop where
  | literal {nested : Nested} {pairs : List (Expr × Expr)} {evaluated : List (Value × Value)}
    {s t u : Session} (hevaluated : EvaluatesTo nested pairs s evaluated t)
    (hmade : (evalExprWith nested (.map pairs)).run s = .done (.map addr) u) :
    MapHistory addr (evaluated.filterMap putOf?) u
  | ofList {pairs : List (String × Value)} {s : Session} {heap : Heap}
    (hmade : s.heap.newMap (.ofList pairs) = (.map addr, heap)) :
    MapHistory addr (pairs.map fun pair => .put pair.1 pair.2) { s with heap }
  | use {nested : Nested} {writes : List (KeyWrite Value)} {key : Value} {text : String}
    {s t : Session} (h : MapHistory addr writes s) (hkey : mapKey key = .ok text) (use : KeyUse)
    (hend : ((use.exec nested addr key).run s).session? = some t) :
    MapHistory addr (writes ++ use.writes text) t
  | other {writes : List (KeyWrite Value)} {s t : Session} (h : MapHistory addr writes s)
    (hsize : s.heap.maps.size ≤ t.heap.maps.size)
    (hsame : t.heap.entries addr = s.heap.entries addr) : MapHistory addr writes t

theorem foldl_addEntry (evaluated : List (Value × Value)) (entries : Entries Value) :
    evaluated.foldl addEntry entries = (evaluated.filterMap putOf?).foldl KeyWrite.apply entries := by
  induction evaluated generalizing entries with
  | nil => rfl
  | cons entry rest ih =>
    rw [List.foldl_cons, ih, List.filterMap_cons, addEntry, putOf?]
    cases mapKey entry.1 <;> rfl

theorem KeyUse.size_maps_heapAfter (use : KeyUse) (heap : Heap) (addr : Nat) (text : String) :
    (use.heapAfter heap addr text).maps.size = heap.maps.size := by
  cases use with
  | read | get => rfl
  | assign new | set new | delete => exact Array.size_setIfInBounds

theorem KeyUse.entries_heapAfter {heap : Heap} (h : addr < heap.maps.size) (use : KeyUse)
    (text : String) :
    (use.heapAfter heap addr text).entries addr =
      (use.writes text).foldl KeyWrite.apply (heap.entries addr) := by
  cases use with
  | read | get => rfl
  | assign new | set new | delete => exact (Heap.entries_setEntries h _ addr).trans (if_pos rfl)

/-- A use of a key comes to an end. If it fails it is a read, so it has changed nothing then. -/
theorem session?_exec (h : mapKey key = .ok text) (nested : Nested) (addr : Nat) (use : KeyUse)
    (s : Session) :
    ((use.exec nested addr key).run s).session? =
      some { s with heap := use.heapAfter s.heap addr text } := by
  -- in every use the heap is changed in one step, and what differs is the answer
  rw [KeyUse.exec_eq h]
  simp only [Exec.run, Exec.tryHeap]
  cases use with
  | read => cases (s.heap.entries addr).get? text <;> rfl
  | get | set new | assign new | delete => rfl

/-- **The map holds what its writes leave.** -/
theorem MapHistory.entries_eq {writes : List (KeyWrite Value)} (h : MapHistory addr writes s) :
    addr < s.heap.maps.size ∧ s.heap.entries addr = .ofWrites writes := by
  induction h with
  | literal hevaluated hmade =>
    rw [hevaluated.run_map] at hmade
    cases hmade
    refine ⟨by simp [Heap.newMap], ?_⟩
    rw [Heap.entries_newMap, if_pos rfl, foldl_addEntry]
    rfl
  | @ofList pairs s heap hmade =>
    -- insertion from the left is what the writes do
    cases hmade
    refine ⟨by simp, ?_⟩
    rw [← Entries.ofList_eq_ofWrites]
    exact (Heap.entries_newMap s.heap _ _).trans (if_pos rfl)
  | use _ hkey use hend ih =>
    rw [session?_exec hkey] at hend
    cases hend
    refine ⟨(use.size_maps_heapAfter _ _ _).symm ▸ ih.1, ?_⟩
    rw [use.entries_heapAfter ih.1, ih.2, Entries.ofWrites_append]
  | other _ hsize hsame ih => exact ⟨ih.1.trans_le hsize, hsame.trans ih.2⟩

/-- The history goes on with every use. -/
theorem MapHistory.exists_use {writes : List (KeyWrite Value)} (h : MapHistory addr writes s)
    (nested : Nested) (hkey : mapKey key = .ok text) (use : KeyUse) :
    ∃ t, ((use.exec nested addr key).run s).session? = some t ∧
      MapHistory addr (writes ++ use.writes text) t := by
  have hend := session?_exec hkey nested addr use s
  exact ⟨_, hend, h.use hkey use hend⟩

/-! ### What a literal evaluates to -/

theorem run_ofExcept_eq_done_iff {α : Type} {result : Except Cause α} {value : α} :
    (Exec.ofExcept result).run s = .done value t ↔ result = .ok value ∧ t = s := by
  cases result with
  | ok v =>
    change Outcome.done v s = .done value t ↔ _
    rw [Outcome.done.injEq, Except.ok.injEq, eq_comm (a := s)]
  | error cause => exact iff_of_false nofun nofun

/-- Entries that were added have keys and values that were evaluated. -/
theorem exists_evaluatesTo {pairs : List (Expr × Expr)} {entries result : Entries Value}
    (h : (evalEntries nested entries pairs).run s = .done result t) :
    ∃ evaluated, EvaluatesTo nested pairs s evaluated t := by
  induction pairs generalizing entries s with
  | nil =>
    cases h
    exact ⟨[], .nil _⟩
  | cons pair rest ih =>
    obtain ⟨keyExpr, valueExpr⟩ := pair
    -- the key is evaluated, then made a text, and only then the value is evaluated
    rw [evalEntries, Exec.run_bind_eq_done_iff] at h
    obtain ⟨k, u, hkey, h⟩ := h
    rw [Exec.run_bind_eq_done_iff] at h
    obtain ⟨text, _, hresult, h⟩ := h
    obtain ⟨htext, rfl⟩ := run_ofExcept_eq_done_iff.1 hresult
    rw [Exec.run_bind_eq_done_iff] at h
    obtain ⟨v, w, hvalue, h⟩ := h
    obtain ⟨evaluated, hrest⟩ := ih h
    exact ⟨(k, v) :: evaluated, .cons hkey htext hvalue hrest⟩

/-- A literal that has a value has made a map, and the history of the map begins with its entries. -/
theorem exists_mapHistory {pairs : List (Expr × Expr)} {v : Value}
    (h : (evalExprWith nested (.map pairs)).run s = .done v t) :
    ∃ addr evaluated u, v = .map addr ∧ EvaluatesTo nested pairs s evaluated u ∧
      MapHistory addr (evaluated.filterMap putOf?) t := by
  -- the run is opened to see what was evaluated, and kept to begin the history with
  have hentries := h
  rw [evalExprWith, Exec.run_bind_eq_done_iff] at hentries
  obtain ⟨entries, u, hentries, -⟩ := hentries
  obtain ⟨evaluated, hevaluated⟩ := exists_evaluatesTo hentries
  have hmade := h
  rw [hevaluated.run_map] at hmade
  cases hmade
  exact ⟨_, evaluated, u, rfl, hevaluated, .literal hevaluated h⟩

/-! ### What a map shows -/

/-- Whatever looks at the map shows these entries, in this order: the methods, the index, the
properties and the turns of an iteration. -/
structure Session.Shows (s : Session) (addr : Nat) (entries : List (String × Value)) : Prop where
  get {key : Value} {text : String} (nested : Nested) (hkey : mapKey key = .ok text) :
    (KeyUse.get.exec nested addr key).run s = .done ((entries.lookup text).getD .null) s
  index {key : Value} {text : String} (nested : Nested) (hkey : mapKey key = .ok text) :
    (KeyUse.read.exec nested addr key).run s =
      (entries.lookup text).elim (.failed (.ofCause (.noKey text)) s) (.done · s)
  delete {key : Value} {text : String} (nested : Nested) (hkey : mapKey key = .ok text) :
    ∃ t, (KeyUse.delete.exec nested addr key).run s = .done ((entries.lookup text).getD .null) t
  length (nested : Nested) :
    (getProperty nested (.map addr) "length").run s = .done (.ofNat entries.length) s
  keys (nested : Nested) :
    (getProperty nested (.map addr) "keys").run s = .done (.array s.heap.arrays.size)
      { s with heap := (s.heap.newArray (entries.map fun entry => .str entry.1)).2 }
  values (nested : Nested) :
    (getProperty nested (.map addr) "values").run s = .done (.array s.heap.arrays.size)
      { s with heap := (s.heap.newArray (entries.map fun entry => entry.2)).2 }
  iterate {nested : Nested} {target : Expr} {before : Session}
    (htarget : (nested.eval target).run before = .done (.map addr) s) (turns : Nat)
    (names : TurnNames) (body : Block) :
    (execKindWith nested turns (.iterate target names body)).run before =
      (runTurns nested names body (entries.map fun entry => (.str entry.1, entry.2))).run s

/-- **All ways to look at a map show its entries.** -/
theorem shows_entries (s : Session) (addr : Nat) : s.Shows addr (s.heap.entries addr).toList where
  -- each way to look into the map is one heap operation, so it runs by computation
  get nested hkey := by
    rw [KeyUse.exec_eq hkey]
    rfl
  index nested hkey := by
    rw [KeyUse.exec_eq hkey]
    simp only [Exec.run, Exec.tryHeap, KeyUse.answer, Entries.get?]
    cases (s.heap.entries addr).toList.lookup _ <;> rfl
  delete nested hkey := by
    rw [KeyUse.exec_eq hkey]
    exact ⟨_, rfl⟩
  length nested := run_getProperty_of_value rfl
  keys nested := by
    -- the keys are handed out as a new array of strings
    have hkeys : s.heap.property (.map addr) "keys" = .ok (.value (.array s.heap.arrays.size),
        (s.heap.newArray ((s.heap.entries addr).keys.map .str)).2) := rfl
    rw [run_getProperty_of_value hkeys, Entries.keys, List.map_map]
    rfl
  values nested := run_getProperty_of_value rfl
  iterate htarget turns names body := by
    rw [execKindWith, Exec.run_bind, htarget]
    rfl

/-- `get` answers null if an index fails for want of the key, or if the index reads null. -/
theorem get_eq_null_iff {entries : List (String × Value)} (h : s.Shows addr entries)
    (hkey : mapKey key = .ok text) :
    (KeyUse.get.exec nested addr key).run s = .done .null s ↔
      (KeyUse.read.exec nested addr key).run s = .failed (.ofCause (.noKey text)) s ∨
        (KeyUse.read.exec nested addr key).run s = .done .null s := by
  rw [h.get nested hkey, h.index nested hkey]
  cases entries.lookup text <;> simp

/-- **Maps are dictionaries in the order of insertion.** A literal that has a value is a map whose
history begins with the entries of the literal, and every use of a string or a decimal as a key ends
and goes into the history. Whatever the history of a map is, all that looks at the map shows the same
entries: their keys are those that the history leaves, each once and in the order in which they came,
and each has the value that it was last given. The method `delete` answers with the value that goes.
The method `get` answers null if and only if an index fails for want of the key or reads null. -/
theorem maps_are_ordered_dictionaries :
    (∀ (nested : Nested) (pairs : List (Expr × Expr)) (s t : Session) (v : Value),
      (evalExprWith nested (.map pairs)).run s = .done v t →
      ∃ addr evaluated u, v = .map addr ∧ EvaluatesTo nested pairs s evaluated u ∧
        MapHistory addr (evaluated.filterMap putOf?) t) ∧
    ∀ (addr : Nat) (writes : List (KeyWrite Value)) (s : Session), MapHistory addr writes s →
      (∀ nested key text use, mapKey key = .ok text →
        ∃ t, ((KeyUse.exec nested addr key use).run s).session? = some t ∧
          MapHistory addr (writes ++ use.writes text) t) ∧
      ∃ entries : List (String × Value), s.Shows addr entries ∧
        entries.map (·.1) = keysOf writes ∧ (entries.map (·.1)).Nodup ∧
        (∀ key, entries.lookup key = lastWritten? writes key) ∧
        ∀ nested key text, mapKey key = .ok text →
          ((KeyUse.get.exec nested addr key).run s = .done .null s ↔
            (KeyUse.read.exec nested addr key).run s = .failed (.ofCause (.noKey text)) s ∨
              (KeyUse.read.exec nested addr key).run s = .done .null s) := by
  refine ⟨fun nested pairs s t v h => exists_mapHistory h, fun addr writes s h =>
    ⟨fun nested key text use hkey => h.exists_use nested hkey use, ?_⟩⟩
  -- what the map holds is what its history of writes has left
  obtain ⟨-, hentries⟩ := h.entries_eq
  have hshows := shows_entries s addr
  rw [hentries] at hshows
  exact ⟨_, hshows, Entries.keys_ofWrites writes, (Entries.ofWrites writes).nodup_keys,
    Entries.get?_ofWrites writes, fun nested key text hkey => get_eq_null_iff hshows hkey⟩

/-- The literal `{"a": "x", 2: "y"}`, of which the decimal key is written again as a string, the
other key is deleted and then assigned to: it comes back behind the first. -/
theorem deleted_key_comes_back_last : ∃ addr s entries,
    MapHistory addr [.put "a" (.str "x"), .put "2" (.str "y"), .put "2" (.str "z"), .drop "a",
      .put "a" (.str "w")] s ∧
    s.Shows addr entries ∧ entries.map (·.1) = ["2", "a"] ∧
    entries.lookup "2" = some (.str "z") ∧ entries.lookup "a" = some (.str "w") := by
  have htwo : Decimal.parse "2" = .ok (.ofInt 2) := rfl
  have hevaluated : EvaluatesTo (nestedWith 1)
      [(.string "a", .string "x"), (.number "2", .string "y")] (.fresh .empty .empty)
      [(.str "a", .str "x"), (.dec (.ofInt 2), .str "y")] (.fresh .empty .empty) :=
    .cons rfl rfl rfl (.cons (run_evalExpr_number htwo 0 _) rfl rfl (.nil _))
  have hmade := hevaluated.run_map
  -- the writes are made one after the other, and each makes the history longer
  obtain ⟨-, huses⟩ := maps_are_ordered_dictionaries
  obtain ⟨s₁, -, h₁⟩ := (huses _ _ _ (.literal hevaluated hmade)).1 (nestedWith 0) (.str "2") "2"
    (.set (.str "z")) rfl
  obtain ⟨s₂, -, h₂⟩ := (huses _ _ _ h₁).1 (nestedWith 0) (.str "a") "a" .delete rfl
  obtain ⟨s₃, -, h₃⟩ := (huses _ _ _ h₂).1 (nestedWith 0) (.str "a") "a" (.assign (.str "w")) rfl
  obtain ⟨entries, hshows, hkeys, -, hlast, -⟩ := (huses _ _ _ h₃).2
  exact ⟨_, s₃, entries, h₃, hshows, hkeys, hlast "2", hlast "a"⟩

/-- A key that holds null: `get` answers null, yet an index does not fail for want of the key. -/
theorem stored_null_read : ∃ s,
    (evalExpr 2 (.map [(.string "a", .name "null")])).run
      (.fresh (standardGlobals .empty).2 (standardGlobals .empty).1) = .done (.map 0) s ∧
    (KeyUse.read.exec (nestedWith 0) 0 (.str "a")).run s = .done .null s ∧
    ¬((KeyUse.get.exec (nestedWith 0) 0 (.str "a")).run s = .done .null s ↔
      (KeyUse.read.exec (nestedWith 0) 0 (.str "a")).run s = .failed (.ofCause (.noKey "a")) s) := by
  refine ⟨_, rfl, rfl, fun h => ?_⟩
  cases h.1 rfl

end DecimalScript
