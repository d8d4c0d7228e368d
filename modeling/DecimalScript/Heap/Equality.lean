import DecimalScript.Decimal.Order
import DecimalScript.Heap.Basic

/-!
# Equality and order of values

Two values are equal if no path of positions and keys leads to a difference. Arrays and maps may
hold themselves, so the pairs of containers that were met are kept: a pair that is met again adds
nothing. Each pair is looked into at most once, which is why the search ends.
-/

namespace DecimalScript.Heap

/-- Two containers that are compared with each other. -/
inductive ContainerPair where
  | arrays (left right : Nat)
  | maps (left right : Nat)
  deriving Repr, DecidableEq

/-- What a look at the outermost level of two values tells. -/
inductive Verdict where
  | different
  | alike
  /-- Equal if these parts are. -/
  | alikeIf (pair : ContainerPair) (parts : List (Value × Value))

/-- The values under equal keys; nothing if some key on the left is missing on the right. -/
def matchKeys? (left : List (String × Value)) (right : Entries Value) :
    Option (List (Value × Value)) :=
  left.mapM fun entry => (right.get? entry.1).map fun value => (entry.2, value)

/-- Compares the outermost level of two values. -/
def compareTop (heap : Heap) : Value → Value → Verdict
  | .null, .null => .alike
  | .bool a, .bool b => if a = b then .alike else .different
  | .str a, .str b => if a = b then .alike else .different
  | .dec a, .dec b => if a.equal b then .alike else .different
  | .func f, .func g => if f.id = g.id then .alike else .different
  | .object a, .object b => if a = b then .alike else .different
  | .array a, .array b =>
    if a = b then .alike
    else if (heap.items a).length = (heap.items b).length then
      .alikeIf (.arrays a b) ((heap.items a).zip (heap.items b))
    else .different
  | .map a, .map b =>
    if a = b then .alike
    else if (heap.entries a).size = (heap.entries b).size then
      match matchKeys? (heap.entries a).toList (heap.entries b) with
      | some parts => .alikeIf (.maps a b) parts
      | none => .different
    else .different
  | _, _ => .different

/-- Only two containers of one kind and one size have parts: two arrays the elements at the same
places, and two maps the values under the same keys. -/
theorem compareTop_eq_alikeIf {heap : Heap} {v w : Value} {pair : ContainerPair}
    {parts : List (Value × Value)} (h : heap.compareTop v w = .alikeIf pair parts) :
    (∃ a b, v = .array a ∧ w = .array b ∧ pair = .arrays a b ∧
      parts = (heap.items a).zip (heap.items b)) ∨
    ∃ a b, v = .map a ∧ w = .map b ∧ pair = .maps a b ∧
      (heap.entries a).size = (heap.entries b).size ∧
      matchKeys? (heap.entries a).toList (heap.entries b) = some parts := by
  cases v <;> cases w <;> simp only [compareTop, reduceCtorEq] at h
  case array.array a b =>
    repeat' split at h
    all_goals simp only [reduceCtorEq, Verdict.alikeIf.injEq] at h
    exact .inl ⟨a, b, rfl, rfl, h.1.symm, h.2.symm⟩
  case map.map a b =>
    repeat' split at h
    all_goals simp only [reduceCtorEq, Verdict.alikeIf.injEq] at h
    next hsize _ _ hmatch =>
      obtain ⟨rfl, rfl⟩ := h
      exact .inr ⟨a, b, rfl, rfl, rfl, hsize, hmatch⟩
  all_goals split at h <;> simp only [reduceCtorEq] at h

/-- Every pair of containers on the heap. -/
def containerPairs (heap : Heap) : List ContainerPair :=
  (List.range heap.arrays.size).flatMap (fun a =>
    (List.range heap.arrays.size).map (.arrays a)) ++
  (List.range heap.maps.size).flatMap (fun a => (List.range heap.maps.size).map (.maps a))

/-- How many pairs of containers were not met yet. -/
def unmet (heap : Heap) (met : List ContainerPair) : Nat :=
  (heap.containerPairs.filter (· ∉ met)).length

theorem mem_containerPairs_of_arrays {heap : Heap} {a b : Nat} {part : Value × Value}
    {parts : List (Value × Value)} (h : (heap.items a).zip (heap.items b) = part :: parts) :
    .arrays a b ∈ heap.containerPairs := by
  have ha : a < heap.arrays.size := by
    refine Nat.lt_of_not_le fun hle => ?_
    simp [items_eq_nil_of_size_le hle] at h
  have hb : b < heap.arrays.size := by
    refine Nat.lt_of_not_le fun hle => ?_
    simp [items_eq_nil_of_size_le hle] at h
  simp [containerPairs, ha, hb]

theorem mem_containerPairs_of_maps {heap : Heap} {a b : Nat} {part : Value × Value}
    {parts : List (Value × Value)} (hsize : (heap.entries a).size = (heap.entries b).size)
    (h : matchKeys? (heap.entries a).toList (heap.entries b) = some (part :: parts)) :
    .maps a b ∈ heap.containerPairs := by
  have ha : a < heap.maps.size := by
    refine Nat.lt_of_not_le fun hle => ?_
    simp [entries_eq_empty_of_size_le hle, matchKeys?, Entries.empty] at h
  have hb : b < heap.maps.size := by
    refine Nat.lt_of_not_le fun hle => ?_
    rw [entries_eq_empty_of_size_le hle] at hsize
    have hnil : (heap.entries a).toList = [] := by
      simpa [Entries.size, Entries.empty] using hsize
    simp [hnil, matchKeys?] at h
  simp [containerPairs, ha, hb]

/-- Only containers on the heap have parts to look into. -/
theorem mem_containerPairs_of_compareTop {heap : Heap} {v w : Value} {pair : ContainerPair}
    {part : Value × Value} {parts : List (Value × Value)}
    (h : heap.compareTop v w = .alikeIf pair (part :: parts)) : pair ∈ heap.containerPairs := by
  obtain ⟨a, b, -, -, rfl, hparts⟩ | ⟨a, b, -, -, rfl, hsize, hmatch⟩ := compareTop_eq_alikeIf h
  · exact mem_containerPairs_of_arrays hparts.symm
  · exact mem_containerPairs_of_maps hsize hmatch

/-- To meet a new pair leaves fewer to meet. -/
theorem unmet_cons_lt {heap : Heap} {met : List ContainerPair} {pair : ContainerPair}
    (hmem : pair ∈ heap.containerPairs) (hnew : pair ∉ met) :
    heap.unmet (pair :: met) < heap.unmet met := by
  have hsub : (heap.containerPairs.filter (· ∉ pair :: met)) =
      (heap.containerPairs.filter (· ∉ met)).filter (· ≠ pair) := by
    rw [List.filter_filter]
    congr 1
    funext p
    by_cases hp : p = pair <;> simp [hp]
  unfold unmet
  rw [hsub]
  refine Nat.lt_of_le_of_ne (List.length_filter_le _ _) fun heq => ?_
  rw [List.length_filter_eq_length_iff] at heq
  have := heq pair (by simp [hmem, hnew])
  simp at this

/-! ### The measure of the search

A new pair is met at most as often as there are pairs, and each one adds at most as many parts as
the heap holds elements and entries. -/

/-- How many elements and entries the heap holds in all. -/
def held (heap : Heap) : Nat :=
  heap.arrays.toList.flatten.length + (heap.maps.toList.map Entries.toList).flatten.length

theorem length_items_le_held (heap : Heap) (addr : Nat) :
    (heap.items addr).length ≤ heap.held := by
  by_cases h : addr < heap.arrays.size
  · have hmem : heap.items addr ∈ heap.arrays.toList := by simp [items, h]
    exact Nat.le_trans (List.sublist_flatten_of_mem hmem).length_le (Nat.le_add_right _ _)
  · simp [items_eq_nil_of_size_le (Nat.le_of_not_lt h)]

theorem size_entries_le_held (heap : Heap) (addr : Nat) :
    (heap.entries addr).size ≤ heap.held := by
  by_cases h : addr < heap.maps.size
  · have hmem : (heap.entries addr).toList ∈ heap.maps.toList.map Entries.toList :=
      List.mem_map.2 ⟨heap.entries addr, by simp [entries, h], rfl⟩
    exact Nat.le_trans (List.sublist_flatten_of_mem hmem).length_le (Nat.le_add_left _ _)
  · simp [entries_eq_empty_of_size_le (Nat.le_of_not_lt h), Entries.size, Entries.empty]

theorem length_matchKeys? {left : List (String × Value)} {right : Entries Value}
    {parts : List (Value × Value)} (h : matchKeys? left right = some parts) :
    parts.length = left.length := by
  induction left generalizing parts with
  | nil =>
    have : parts = [] := by simpa [matchKeys?, eq_comm] using h
    simp [this]
  | cons entry rest ih =>
    simp only [matchKeys?, List.mapM_cons, Option.pure_def, Option.bind_eq_bind,
      Option.bind_eq_some_iff, Option.some.injEq] at h
    obtain ⟨_, _, restParts, hrest, rfl⟩ := h
    simp [ih hrest]

theorem length_parts_le_held {heap : Heap} {v w : Value} {pair : ContainerPair}
    {parts : List (Value × Value)} (h : heap.compareTop v w = .alikeIf pair parts) :
    parts.length ≤ heap.held := by
  obtain ⟨a, b, -, -, -, rfl⟩ | ⟨a, b, -, -, -, -, hmatch⟩ := compareTop_eq_alikeIf h
  · rw [List.length_zip]
    exact Nat.le_trans (Nat.min_le_left _ _) (heap.length_items_le_held a)
  · rw [length_matchKeys? hmatch]
    exact heap.size_entries_le_held a

/-- Bounds the steps of the search for the given pending pairs. -/
def searchBound (heap : Heap) (met : List ContainerPair) (pending : List (Value × Value)) : Nat :=
  heap.unmet met * (heap.held + 1) + pending.length

theorem searchBound_cons_lt {heap : Heap} {met : List ContainerPair} {v w : Value}
    {pair : ContainerPair} {part : Value × Value} {parts pending : List (Value × Value)}
    (h : heap.compareTop v w = .alikeIf pair (part :: parts)) (hnew : pair ∉ met) :
    heap.searchBound (pair :: met) (part :: parts ++ pending) <
      heap.searchBound met ((v, w) :: pending) := by
  have hmet := unmet_cons_lt (mem_containerPairs_of_compareTop h) hnew
  have hparts := length_parts_le_held h
  have hmul := Nat.mul_le_mul_right (heap.held + 1) (Nat.succ_le_of_lt hmet)
  rw [Nat.succ_mul] at hmul
  simp only [searchBound, List.length_append, List.length_cons] at *
  omega

/-- Whether the pending pairs of values are equal, where the pairs of containers that were met count
as equal. -/
def equalFrom (heap : Heap) (met : List ContainerPair) (pending : List (Value × Value)) : Bool :=
  match pending with
  | [] => true
  | (v, w) :: pending =>
    match _h : heap.compareTop v w with
    | .different => false
    | .alike => heap.equalFrom met pending
    | .alikeIf _ [] => heap.equalFrom met pending
    | .alikeIf pair (part :: parts) =>
      -- the pair stays met for good, also when its parts are done
      if pair ∈ met then heap.equalFrom met pending
      else heap.equalFrom (pair :: met) (part :: parts ++ pending)
termination_by heap.searchBound met pending
decreasing_by
  · simp [searchBound]
  · simp [searchBound]
  · simp [searchBound]
  · exact searchBound_cons_lt _h (by assumption)

/-- Whether two values are equal. -/
def equal (heap : Heap) (v w : Value) : Bool :=
  heap.equalFrom [] [(v, w)]

/-- Whether the first value is below the second; only decimals have an order. -/
def less (v w : Value) : Except Cause Bool :=
  match v, w with
  | .dec x, .dec y => .ok (x.less y)
  | v, w => .error (.incomparable v.typeName w.typeName)

/-- Whether the first value is above the second; only decimals have an order. -/
def greater (v w : Value) : Except Cause Bool :=
  match v, w with
  | .dec x, .dec y => .ok (y.less x)
  | v, w => .error (.incomparable v.typeName w.typeName)

end DecimalScript.Heap
