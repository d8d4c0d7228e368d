import DecimalScript.Eval.Run
import DecimalScript.Proofs.Decimal.SameText
import DecimalScript.Proofs.Eval.Course

/-!
# Decimals as keys of maps

The key that a decimal stands for is its written form, so different numbers have different keys
unless a mantissa rounds them to one number (`Decimal.RoundsTogether`). Two long numbers can have
one key that way, and then the later entry replaces the earlier one (`long_numbers_share_key`).

A use of a key looks at the entry under this key alone (`KeyUse.exec_eq`) and changes no other one
(`KeyUse.get?_heapAfter`). So whatever is done through other keys, every use of a decimal as a key
answers as it would have before (`answer?_of_usesKeys`), and an entry of a literal is found under
its key if no later entry has the same key (`get?_addEntries_append`).

Main result: `keys_shared_only_by_rounding`.
-/

namespace DecimalScript

/-- What an evaluation answers: a value or the cause for which it failed. -/
def Outcome.answer? {α : Type} : Outcome α → Option (Except Cause α)
  | done value _ => some (.ok value)
  | failed failure _ => some (.error failure.cause)
  | outOfFuel => none

/-! ### The keys of different numbers -/

/-- A key other than that of the decimal `y`: another string, or another number, unless a mantissa
rounds the two to one number. -/
inductive OtherKey (y : Decimal) : Value → Prop where
  | str {text : String} (h : text ≠ y.text) : OtherKey y (.str text)
  | dec {x : Decimal} (hne : x.toRat ≠ y.toRat) (h : ¬x.RoundsTogether y) : OtherKey y (.dec x)

variable {x y : Decimal}

theorem mapKey_dec_eq_iff : mapKey (.dec x) = mapKey (.dec y) ↔ x.text = y.text := by
  rw [mapKey, mapKey, Except.ok.injEq]

theorem OtherKey.exists_mapKey {key : Value} (h : OtherKey y key) :
    ∃ text, mapKey key = .ok text ∧ y.text ≠ text := by
  cases h with
  | str h => exact ⟨_, rfl, h.symm⟩
  | dec hne h =>
    refine ⟨_, rfl, fun htext => h ?_⟩
    exact (Decimal.text_eq_text_iff_of_toRat_ne hne).1 htext.symm

/-! ### Uses of a key -/

/-- What a program does with a key of a map: it reads an index expression or assigns to it, or it
calls a method. -/
inductive KeyUse where
  | read
  | assign (new : Value)
  | get
  | set (new : Value)
  | delete

namespace KeyUse

/-- The use of a key of a map, once its operands have been evaluated. -/
def exec (nested : Nested) (addr : Nat) (key : Value) : KeyUse → Exec Value
  | read => do (← Exec.ofExcept (Slot.atIndex (.map addr) key)).read nested
  | assign new => do
    (← Exec.ofExcept (Slot.atIndex (.map addr) key)).write new
    return new
  | get => callMethod nested (.map addr) "get" [key]
  | set new => callMethod nested (.map addr) "set" [key, new]
  | delete => callMethod nested (.map addr) "delete" [key]

/-- The answer of a use, for what its map holds under the key. -/
def answer (text : String) (held : Option Value) : KeyUse → Except Cause Value
  | read => held.elim (.error (.noKey text)) .ok
  | get | delete => .ok (held.getD .null)
  | assign new | set new => .ok new

/-- The heap after a use that does not fail. -/
def heapAfter (heap : Heap) (addr : Nat) (text : String) : KeyUse → Heap
  | read | get => heap
  | assign new | set new => heap.setEntries addr ((heap.entries addr).insert text new)
  | delete => heap.setEntries addr ((heap.entries addr).erase text)

/-- A use answers for what its map holds under the key, and then the heap is changed. -/
theorem exec_eq {key : Value} {text : String} (h : mapKey key = .ok text) (nested : Nested)
    (addr : Nat) (use : KeyUse) :
    use.exec nested addr key = Exec.tryHeap fun heap =>
      return (← use.answer text ((heap.entries addr).get? text), use.heapAfter heap addr text) := by
  funext s
  -- each use finds the entry by the text of the key; that is all it takes from the key
  cases use with
  | read =>
    have hslot : Slot.atIndex (.map addr) key = .ok (.entry addr text) := by
      rw [Slot.atIndex, h]
      rfl
    rw [exec, hslot]
    change Exec.tryHeap (fun heap => return (← Slot.readEntry heap addr text, heap)) s = _
    simp only [Exec.tryHeap, Slot.readEntry, answer, heapAfter]
    cases (s.heap.entries addr).get? text <;> rfl
  | assign new =>
    have hslot : Slot.atIndex (.map addr) key = .ok (.entry addr text) := by
      rw [Slot.atIndex, h]
      rfl
    rw [exec, hslot]
    rfl
  | get | set new | delete =>
    rw [exec, callMethod]
    simp only [Heap.method, Heap.mapMethod, h]
    rfl

end KeyUse

/-- Entries that agree with those of a map under a key can replace them without a change there. -/
theorem Heap.get?_entries_setEntries {heap : Heap} {addr : Nat} {entries : Entries Value}
    {text : String} (h : entries.get? text = (heap.entries addr).get? text) (other : Nat) :
    ((heap.setEntries addr entries).entries other).get? text = (heap.entries other).get? text := by
  -- outside of the store nothing is written
  by_cases haddr : addr < heap.maps.size
  · rw [entries_setEntries haddr]
    split
    · next heq => rw [heq, h]
    · rfl
  · rw [setEntries, Array.setIfInBounds_eq_of_size_le (Nat.le_of_not_lt haddr)]

/-- No use of a key changes what any map holds under another key. -/
theorem KeyUse.get?_heapAfter {text key : String} (hne : text ≠ key) (use : KeyUse) (heap : Heap)
    (addr other : Nat) :
    ((use.heapAfter heap addr key).entries other).get? text = (heap.entries other).get? text := by
  -- the writers write under the other key only
  cases use with
  | read | get => rfl
  | assign new | set new =>
    exact Heap.get?_entries_setEntries ((Entries.get?_insert _ _ _ _).trans (if_neg hne)) other
  | delete =>
    exact Heap.get?_entries_setEntries ((Entries.get?_erase _ _ _).trans (if_neg hne)) other

section Uses

variable {nested : Nested} {key : Value} {text other : String} {s t : Session}

theorem answer?_exec (h : mapKey key = .ok text) (nested : Nested) (addr : Nat) (use : KeyUse)
    (s : Session) :
    ((use.exec nested addr key).run s).answer? =
      some (use.answer text ((s.heap.entries addr).get? text)) := by
  rw [KeyUse.exec_eq h]
  simp only [Exec.run, Exec.tryHeap]
  cases use.answer text ((s.heap.entries addr).get? text) <;> rfl

theorem get?_entries_of_exec (h : mapKey key = .ok text) (hne : other ≠ text) {addr : Nat}
    {use : KeyUse} (hend : ((use.exec nested addr key).run s).session? = some t) (map : Nat) :
    (t.heap.entries map).get? other = (s.heap.entries map).get? other := by
  rw [KeyUse.exec_eq h] at hend
  simp only [Exec.run, Exec.tryHeap] at hend
  cases hanswer : use.answer text ((s.heap.entries addr).get? text) with
  | error cause =>
    -- a use that fails changes nothing
    rw [hanswer] at hend
    cases hend
    rfl
  | ok v =>
    rw [hanswer] at hend
    cases hend
    exact use.get?_heapAfter hne s.heap addr map

/-- Any number of uses, one after the other, of keys that satisfy `p`. -/
inductive UsesKeys (nested : Nested) (p : Value → Prop) (s : Session) : Session → Prop where
  | none : UsesKeys nested p s s
  | use {t u : Session} (h : UsesKeys nested p s t) {key : Value} (hkey : p key) (use : KeyUse)
    (addr : Nat) (hend : ((use.exec nested addr key).run t).session? = some u) :
    UsesKeys nested p s u

theorem get?_entries_of_usesKeys (h : UsesKeys nested (OtherKey y) s t) (addr : Nat) :
    (t.heap.entries addr).get? y.text = (s.heap.entries addr).get? y.text := by
  induction h with
  | none => rfl
  | use _ hkey _ _ hend ih =>
    obtain ⟨text, htext, hne⟩ := hkey.exists_mapKey
    exact (get?_entries_of_exec htext hne hend addr).trans ih

/-- Whatever was done through other keys, a use of a key answers as it would have before. -/
theorem answer?_of_usesKeys (h : UsesKeys nested (OtherKey y) s t) (use : KeyUse) (addr : Nat) :
    ((use.exec nested addr (.dec y)).run t).answer? =
      ((use.exec nested addr (.dec y)).run s).answer? := by
  have hkey : mapKey (.dec y) = .ok y.text := rfl
  rw [answer?_exec hkey, answer?_exec hkey, get?_entries_of_usesKeys h]

end Uses

/-! ### The entries of a literal -/

/-- What the keys and the values of a map literal evaluate to, and the session at the end. -/
inductive EvaluatesTo (nested : Nested) :
    List (Expr × Expr) → Session → List (Value × Value) → Session → Prop where
  | nil (s : Session) : EvaluatesTo nested [] s [] s
  | cons {key value : Expr} {k v : Value} {text : String} {s t u w : Session}
    {rest : List (Expr × Expr)} {evaluated : List (Value × Value)}
    (hkey : (nested.eval key).run s = .done k t) (htext : mapKey k = .ok text)
    (hvalue : (nested.eval value).run t = .done v u)
    (hrest : EvaluatesTo nested rest u evaluated w) :
    EvaluatesTo nested ((key, value) :: rest) s ((k, v) :: evaluated) w

/-- An entry of two number literals. -/
theorem EvaluatesTo.cons_numbers {fuel : Nat} {key value : String} {v : Decimal} {s t : Session}
    {rest : List (Expr × Expr)} {evaluated : List (Value × Value)}
    (hkey : Decimal.parse key = .ok x) (hvalue : Decimal.parse value = .ok v)
    (hrest : EvaluatesTo (nestedWith (fuel + 1)) rest s evaluated t) :
    EvaluatesTo (nestedWith (fuel + 1)) ((.number key, .number value) :: rest) s
      ((.dec x, .dec v) :: evaluated) t :=
  .cons (run_evalExpr_number hkey fuel s) rfl (run_evalExpr_number hvalue fuel s) hrest

/-- Adds an entry, if its key is one. -/
def addEntry (entries : Entries Value) (entry : Value × Value) : Entries Value :=
  (mapKey entry.1).toOption.elim entries fun text => entries.insert text entry.2

section Literal

variable {nested : Nested} {pairs : List (Expr × Expr)} {evaluated : List (Value × Value)}
  {s t : Session}

theorem addEntry_of_mapKey {key : Value} {text : String} (h : mapKey key = .ok text)
    (entries : Entries Value) (v : Value) :
    addEntry entries (key, v) = entries.insert text v := by
  rw [addEntry, h]
  rfl

theorem EvaluatesTo.run_evalEntries (h : EvaluatesTo nested pairs s evaluated t)
    (entries : Entries Value) :
    (evalEntries nested entries pairs).run s = .done (evaluated.foldl addEntry entries) t := by
  -- on the pairs that were evaluated, with any entries read before
  induction h generalizing entries with
  | nil s => rfl
  | cons hkey htext hvalue _ ih =>
    rw [evalEntries, Exec.run_bind, hkey]
    simp only [htext]
    change ((nested.eval _ >>= _).run _) = _
    rw [Exec.run_bind, hvalue, List.foldl_cons, addEntry_of_mapKey htext]
    exact ih _

theorem EvaluatesTo.run_map (h : EvaluatesTo nested pairs s evaluated t) :
    (evalExprWith nested (.map pairs)).run s =
      .done (.map t.heap.maps.size) { t with
        heap := (t.heap.newMap (evaluated.foldl addEntry .empty)).2 } := by
  rw [evalExprWith, Exec.run_bind, h.run_evalEntries]
  rfl

theorem get?_addEntries (h : ∀ entry ∈ evaluated, OtherKey y entry.1) (entries : Entries Value) :
    (evaluated.foldl addEntry entries).get? y.text = entries.get? y.text := by
  -- on the pairs, none of which has this key
  induction evaluated generalizing entries with
  | nil => rfl
  | cons entry rest ih =>
    rw [List.forall_mem_cons] at h
    obtain ⟨text, htext, hne⟩ := h.1.exists_mapKey
    rw [List.foldl_cons, ih h.2, addEntry_of_mapKey htext]
    exact (Entries.get?_insert _ _ _ _).trans (if_neg hne)

/-- The entry of a literal is still there at its end if all later keys are others. -/
theorem get?_addEntries_append {key : Value} (hkey : mapKey key = .ok y.text)
    {after : List (Value × Value)} (h : ∀ entry ∈ after, OtherKey y entry.1)
    (before : List (Value × Value)) (v : Value) (entries : Entries Value) :
    ((before ++ (key, v) :: after).foldl addEntry entries).get? y.text = some v := by
  rw [List.foldl_append, List.foldl_cons, get?_addEntries h, addEntry_of_mapKey hkey]
  exact (Entries.get?_insert _ _ _ _).trans (if_pos rfl)

/-- The new map holds the entry of the literal, so reading through its key answers its value. -/
theorem EvaluatesTo.exists_read {before after : List (Value × Value)} {v : Value}
    (h : EvaluatesTo nested pairs s (before ++ (.dec x, v) :: after) t) (htext : x.text = y.text)
    (hafter : ∀ entry ∈ after, OtherKey x entry.1) :
    ∃ addr u, (evalExprWith nested (.map pairs)).run s = .done (.map addr) u ∧
      ((KeyUse.read.exec nested addr (.dec y)).run u).answer? = some (.ok v) := by
  -- one text for both decimals, so the entry is found under either key
  have hkey : mapKey (.dec y) = .ok x.text := congrArg Except.ok htext.symm
  have hheld := get?_addEntries_append (show mapKey (.dec x) = .ok x.text from rfl) hafter before v
    .empty
  refine ⟨_, _, h.run_map, ?_⟩
  rw [answer?_exec hkey, Heap.entries_newMap, if_pos rfl, hheld]
  rfl

end Literal

/-! ### Keys and numbers -/

/-- **Different numbers share a key only by rounding.** The keys of two decimals that are not the
same number are the same if and only if both are written with a power of ten and a mantissa rounds
them to one number. Through keys that do not share it, neither the uses of a map nor the later
entries of a literal overwrite, read or delete the entry under a decimal. -/
theorem keys_shared_only_by_rounding :
    (∀ x y : Decimal, x.toRat ≠ y.toRat →
      (mapKey (.dec x) = mapKey (.dec y) ↔ x.RoundsTogether y)) ∧
    ∀ (nested : Nested) (y : Decimal),
      (∀ s t, UsesKeys nested (OtherKey y) s t → ∀ (use : KeyUse) (addr : Nat),
        ((use.exec nested addr (.dec y)).run t).answer? =
          ((use.exec nested addr (.dec y)).run s).answer?) ∧
      ∀ pairs s before v after t,
        EvaluatesTo nested pairs s (before ++ (.dec y, v) :: after) t →
        (∀ entry ∈ after, OtherKey y entry.1) →
        ∃ addr u, (evalExprWith nested (.map pairs)).run s = .done (.map addr) u ∧
          ((KeyUse.read.exec nested addr (.dec y)).run u).answer? = some (.ok v) := by
  -- the first part is about texts, the others about what is done under them
  refine ⟨fun x y hne => ?_, fun nested y => ⟨fun s t h => answer?_of_usesKeys h, ?_⟩⟩
  · rw [mapKey_dec_eq_iff, Decimal.text_eq_text_iff_of_toRat_ne hne]
  · exact fun pairs s before v after t h hafter => h.exists_read rfl hafter

/-- Two numbers that differ in the tenth of nineteen digits keep their entries. -/
theorem entry_kept_beside_other : ∃ x y : Decimal, x.coeff = 1234567890123456789 ∧
    y.coeff = 1234567891123456789 ∧ OtherKey y (.dec x) ∧
    ∃ addr u, (evalExpr 2 (.map [(.number "1234567891123456789", .number "1"),
      (.number "1234567890123456789", .number "2")])).run (.fresh .empty .empty) =
        .done (.map addr) u ∧
      ((KeyUse.read.exec (nestedWith 1) addr (.dec y)).run u).answer? =
        some (.ok (.dec (.ofInt 1))) := by
  have hx : Decimal.parse "1234567890123456789" = .ok (.ofInt 1234567890123456789) := rfl
  have hy : Decimal.parse "1234567891123456789" = .ok (.ofInt 1234567891123456789) := rfl
  have hone : Decimal.parse "1" = .ok (.ofInt 1) := rfl
  have htwo : Decimal.parse "2" = .ok (.ofInt 2) := rfl
  -- the two numbers are rounded to different mantissas, so their texts differ
  have hne : (Decimal.ofInt 1234567890123456789).toRat ≠
      (Decimal.ofInt 1234567891123456789).toRat := by
    rw [Ne, ← Decimal.equal_iff_toRat_eq]
    decide +kernel
  have hother : OtherKey (.ofInt 1234567891123456789) (.dec (.ofInt 1234567890123456789)) := by
    refine .dec hne ?_
    rw [← Decimal.text_eq_text_iff_of_toRat_ne hne]
    decide +kernel
  refine ⟨_, _, rfl, rfl, hother, ?_⟩
  exact (keys_shared_only_by_rounding.2 (nestedWith 1) _).2 _ _ [] _ [(_, _)] _
    (.cons_numbers hy hone (.cons_numbers hx htwo (.nil _))) (List.forall_mem_singleton.2 hother)

/-- **Different numbers can share a key.** Both are written `1.23456789012*10^18`, so of two entries
of a literal the second one replaces the first, and the first number reads the value that was given
to the second. -/
theorem long_numbers_share_key : ∃ x y : Decimal, x.coeff = 1234567890123456789 ∧ x.exp = 0 ∧
    y.coeff = 1234567890123456788 ∧ y.exp = 0 ∧ x.toRat ≠ y.toRat ∧
    mapKey (.dec x) = mapKey (.dec y) ∧
    ∃ addr u, (evalExpr 2 (.map [(.number "1234567890123456789", .number "1"),
      (.number "1234567890123456788", .number "2")])).run (.fresh .empty .empty) =
        .done (.map addr) u ∧
      ((KeyUse.read.exec (nestedWith 1) addr (.dec x)).run u).answer? =
        some (.ok (.dec (.ofInt 2))) := by
  have hx : Decimal.parse "1234567890123456789" = .ok (.ofInt 1234567890123456789) := rfl
  have hy : Decimal.parse "1234567890123456788" = .ok (.ofInt 1234567890123456788) := rfl
  have hone : Decimal.parse "1" = .ok (.ofInt 1) := rfl
  have htwo : Decimal.parse "2" = .ok (.ofInt 2) := rfl
  have hne : (Decimal.ofInt 1234567890123456789).toRat ≠
      (Decimal.ofInt 1234567890123456788).toRat := by
    rw [Ne, ← Decimal.equal_iff_toRat_eq]
    decide +kernel
  -- here the mantissas are the same
  have hsame : (Decimal.ofInt 1234567890123456788).text =
      (Decimal.ofInt 1234567890123456789).text := by
    decide +kernel
  have hevaluated : EvaluatesTo (nestedWith 1) _ (.fresh .empty .empty)
      ([(_, _)] ++ (_, _) :: []) _ :=
    .cons_numbers hx hone (.cons_numbers hy htwo (.nil _))
  exact ⟨_, _, rfl, rfl, rfl, rfl, hne, mapKey_dec_eq_iff.2 hsame.symm,
    hevaluated.exists_read hsame (List.forall_mem_nil _)⟩

end DecimalScript
