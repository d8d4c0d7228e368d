import DecimalScript.Proofs.Decimal.Whole
import DecimalScript.Proofs.Eval.Comparison

/-!
# Decimals as positions of arrays

An index names the position that is the same number, if its exponent is not negative
(`position_eq_ok_iff`, `insertPosition_eq_ok_iff`). With a negative exponent it names none, even
where the number is whole: a sum keeps the zeros of its parts, so a half and a half are equal to
one, but the sum is `1.0` and no position (`sum_of_halves_no_position`).

So equal decimals never name different positions. If their exponents are both negative or both not,
one names a position if the other does, and then they read, write and insert alike
(`AddressAlike`).

Main result: `positions_resolved_by_number`.
-/

namespace DecimalScript

/-- Two indices read, write and insert at the same places of an array. -/
structure AddressAlike (heap : Heap) (addr : Nat) (index other : Value) : Prop where
  read (v : Value) :
    Slot.readElement heap addr index = .ok v ↔ Slot.readElement heap addr other = .ok v
  write (new : Value) (later : Heap) :
    Slot.writeElement heap addr index new = .ok later ↔
      Slot.writeElement heap addr other new = .ok later
  insert (new : Value) (result : Value × Heap) :
    heap.arrayMethod addr "insert" [index, new] = .ok result ↔
      heap.arrayMethod addr "insert" [other, new] = .ok result

variable {x y d : Decimal} {len i j : Nat}

/-! ### The position of an index -/

theorem toInt?_eq_natCast_iff :
    d.toInt? = some (i : ℤ) ↔ 0 ≤ d.exp ∧ d.toRat = i ∧ i ≤ 9223372036854775807 := by
  rw [Decimal.toInt?_eq_some_iff, Int.cast_natCast]
  refine and_congr_right fun _ => and_congr_right fun _ => ?_
  omega

theorem position_eq_ok_iff_toInt? :
    position (.dec d) len = .ok i ↔ d.toInt? = some (i : ℤ) ∧ i < len := by
  -- only a number that is an integer is compared with the length
  rw [position]
  cases d.toInt? with
  | none => simp
  | some n =>
    dsimp only
    rw [Option.some_inj]
    split
    · next hrange =>
      rw [Except.ok.injEq]
      omega
    · next hrange =>
      refine iff_of_false (by simp) ?_
      omega

theorem lt_of_position {index : Value} (h : position index len = .ok i) : i < len := by
  cases index with
  | dec d => exact (position_eq_ok_iff_toInt?.1 h).2
  | null | bool | str | array | map | func | object => cases h

/-- An index names the position that is the same number. -/
theorem position_eq_ok_iff :
    position (.dec d) len = .ok i ↔
      0 ≤ d.exp ∧ d.toRat = i ∧ i ≤ 9223372036854775807 ∧ i < len := by
  rw [position_eq_ok_iff_toInt?, toInt?_eq_natCast_iff, and_assoc, and_assoc]

/-- An index inserts where it would name a position if there were one element more. -/
theorem insertPosition_eq_ok_iff_position {index : Value} :
    insertPosition index len = .ok i ↔ position index (len + 1) = .ok i := by
  cases index with
  | dec d =>
    rw [insertPosition, position]
    cases d.toInt? with
    | none => simp
    | some n =>
      have hrange : (0 ≤ n ∧ n < ((len + 1 : ℕ) : ℤ)) ↔ 0 ≤ n ∧ n ≤ len := by omega
      simp only [hrange]
      split <;> simp
  | null | bool | str | array | map | func | object =>
    -- both refuse what is no decimal
    exact iff_of_false nofun nofun

theorem insertPosition_eq_ok_iff :
    insertPosition (.dec d) len = .ok i ↔
      0 ≤ d.exp ∧ d.toRat = i ∧ i ≤ 9223372036854775807 ∧ i ≤ len := by
  rw [insertPosition_eq_ok_iff_position, position_eq_ok_iff, Nat.lt_succ_iff]

/-- A position that is out of range is reported by the integer, or by the text where there is
none. -/
theorem position_error {cause : Cause} (h : position (.dec d) len = .error cause) :
    cause = .indexOutOfRange ((d.toInt?.map toString).getD d.text) := by
  rw [position] at h
  -- both refusals show the number, as an integer if it is one
  cases hint : d.toInt? with
  | none =>
    rw [hint] at h
    cases h
    rfl
  | some n =>
    rw [hint] at h
    dsimp only at h
    split at h
    · cases h
    · cases h
      rfl

theorem insertPosition_error {cause : Cause} (h : insertPosition (.dec d) len = .error cause) :
    cause = .indexOutOfRange d.text := by
  rw [insertPosition] at h
  -- here the text of the decimal is shown in either case
  cases hint : d.toInt? with
  | none =>
    rw [hint] at h
    cases h
    rfl
  | some n =>
    rw [hint] at h
    dsimp only at h
    split at h
    · cases h
    · cases h
      rfl

/-! ### What an index addresses -/

section Addresses

variable {heap : Heap} {addr : Nat} {index new v : Value}

theorem readElement_eq_ok_iff :
    Slot.readElement heap addr index = .ok v ↔
      ∃ i, position index (heap.items addr).length = .ok i ∧ (heap.items addr)[i]? = some v := by
  rw [Slot.readElement]
  -- a position within the length has an element, so reading fails nowhere else
  cases position index (heap.items addr).length with
  | error cause => simp [bind, Except.bind]
  | ok i =>
    cases hitem : (heap.items addr)[i]? <;> simp [bind, Except.bind, hitem]

theorem writeElement_eq_ok_iff {later : Heap} :
    Slot.writeElement heap addr index new = .ok later ↔
      ∃ i, position index (heap.items addr).length = .ok i ∧
        heap.setItems addr ((heap.items addr).set i new) = later := by
  rw [Slot.writeElement]
  cases position index (heap.items addr).length <;>
    simp [bind, Except.bind, pure, Except.pure]

theorem arrayMethod_insert_eq_ok_iff {result : Value × Heap} :
    heap.arrayMethod addr "insert" [index, new] = .ok result ↔
      ∃ i, insertPosition index (heap.items addr).length = .ok i ∧
        (.array addr, heap.setItems addr
          ((heap.items addr).take i ++ new :: (heap.items addr).drop i)) = result := by
  simp only [Heap.arrayMethod]
  cases insertPosition index (heap.items addr).length <;>
    simp [bind, Except.bind, pure, Except.pure]

end Addresses

/-- Equal decimals never name different positions. -/
theorem eq_of_position (hrat : x.toRat = y.toRat) (hx : position (.dec x) len = .ok i)
    (hy : position (.dec y) len = .ok j) : i = j := by
  rw [position_eq_ok_iff] at hx hy
  exact_mod_cast hx.2.1.symm.trans (hrat.trans hy.2.1)

theorem position_eq_ok_congr (hrat : x.toRat = y.toRat) (hexp : 0 ≤ x.exp ↔ 0 ≤ y.exp) :
    position (.dec x) len = .ok i ↔ position (.dec y) len = .ok i := by
  rw [position_eq_ok_iff, position_eq_ok_iff, hrat, hexp]

theorem addressAlike_of_toRat_eq (hrat : x.toRat = y.toRat) (hexp : 0 ≤ x.exp ↔ 0 ≤ y.exp)
    (heap : Heap) (addr : Nat) : AddressAlike heap addr (.dec x) (.dec y) where
  read v := by
    -- equal numbers whose exponents have one sign resolve to the same position, which is all that
    -- is used
    simp only [readElement_eq_ok_iff, position_eq_ok_congr hrat hexp]
  write new later := by
    simp only [writeElement_eq_ok_iff, position_eq_ok_congr hrat hexp]
  insert new result := by
    simp only [arrayMethod_insert_eq_ok_iff, insertPosition_eq_ok_iff_position,
      position_eq_ok_congr hrat hexp]

/-- The operator `==` holds of two decimals just if they are the same number. -/
theorem toRat_eq_of_compareValues {heap : Heap}
    (h : compareValues .eq (.dec x) (.dec y) heap = .ok true) : x.toRat = y.toRat := by
  have hrel : LogicOp.eq.relation? = some fun p q => p = q := rfl
  obtain ⟨b, hcompare, hb⟩ := compareValues_dec hrel x y heap
  rw [hcompare, Except.ok.injEq] at h
  exact hb.1 h

/-- **An index names the position that is the same number, if its exponent is not negative.** It
inserts there or past the last element; any other decimal is out of range for both. Decimals that
`==` finds equal never name different positions, and unless the exponent of only one of them is
negative they read, write and insert alike. -/
theorem positions_resolved_by_number (d : Decimal) (len : Nat) :
    (∀ i, position (.dec d) len = .ok i ↔
      0 ≤ d.exp ∧ d.toRat = i ∧ i ≤ 9223372036854775807 ∧ i < len) ∧
    (∀ cause, position (.dec d) len = .error cause →
      cause = .indexOutOfRange ((d.toInt?.map toString).getD d.text)) ∧
    (∀ i, insertPosition (.dec d) len = .ok i ↔
      0 ≤ d.exp ∧ d.toRat = i ∧ i ≤ 9223372036854775807 ∧ i ≤ len) ∧
    (∀ cause, insertPosition (.dec d) len = .error cause → cause = .indexOutOfRange d.text) ∧
    ∀ (other : Decimal) (heap : Heap), compareValues .eq (.dec d) (.dec other) heap = .ok true →
      (∀ i j, position (.dec d) len = .ok i → position (.dec other) len = .ok j → i = j) ∧
      (∀ i j, insertPosition (.dec d) len = .ok i → insertPosition (.dec other) len = .ok j →
        i = j) ∧
      ((0 ≤ d.exp ↔ 0 ≤ other.exp) → ∀ addr, AddressAlike heap addr (.dec d) (.dec other)) := by
  refine ⟨fun _ => position_eq_ok_iff, fun _ => position_error,
    fun _ => insertPosition_eq_ok_iff, fun _ => insertPosition_error, fun other heap heq => ?_⟩
  -- that the decimals compare as equal is said of their numbers from here on
  have hrat : d.toRat = other.toRat := toRat_eq_of_compareValues heq
  refine ⟨fun i j => eq_of_position hrat, fun i j hd hother => ?_,
    fun hexp => addressAlike_of_toRat_eq hrat hexp heap⟩
  rw [insertPosition_eq_ok_iff_position] at hd hother
  exact eq_of_position hrat hd hother

/-- Two tens and twenty ones are one index, and a half is none. -/
theorem twenty_addresses_alike :
    position (.dec ⟨2, 1, by decide, by decide⟩) 21 = .ok 20 ∧
    position (.dec ⟨5, -1, by decide, by decide⟩) 21 = .error (.indexOutOfRange "0.5") ∧
    AddressAlike (Heap.empty.newArray (List.replicate 21 .null)).2 0
      (.dec ⟨2, 1, by decide, by decide⟩) (.dec ⟨20, 0, by decide, by decide⟩) := by
  refine ⟨?_, ?_, ?_⟩
  · refine ((positions_resolved_by_number _ 21).1 20).2 ⟨by decide, ?_, by decide, by decide⟩
    norm_num [Decimal.toRat]
  · have hfail : ∃ cause, position (.dec ⟨5, -1, by decide, by decide⟩) 21 = .error cause :=
      ⟨_, rfl⟩
    obtain ⟨cause, hcause⟩ := hfail
    rw [hcause, (positions_resolved_by_number _ 21).2.1 cause hcause]
    decide +kernel
  · have hequal : compareValues .eq (.dec ⟨2, 1, by decide, by decide⟩)
        (.dec ⟨20, 0, by decide, by decide⟩) (Heap.empty.newArray (List.replicate 21 .null)).2 =
          .ok true := by
      decide +kernel
    exact ((positions_resolved_by_number _ 21).2.2.2.2 _ _ hequal).2.2 (by decide) 0

/-- The sum of a half and a half is equal to one, but of two elements it names none, while one names
the second. -/
theorem sum_of_halves_no_position :
    compareValues .eq
      (.dec (Decimal.add ⟨5, -1, by decide, by decide⟩ ⟨5, -1, by decide, by decide⟩))
      (.dec .one) .empty = .ok true ∧
    position (.dec .one) 2 = .ok 1 ∧
    position (.dec (Decimal.add ⟨5, -1, by decide, by decide⟩ ⟨5, -1, by decide, by decide⟩)) 2 =
      .error (.indexOutOfRange "1.0") := by
  refine ⟨?_, ?_, ?_⟩ <;> decide +kernel

end DecimalScript
