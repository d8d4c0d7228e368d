/-!
# Ordered entries

The entries of a map and the properties of an instance, in the order in which their keys came.
Setting a key that is present keeps its place and a new key goes to the end; erasing a key closes
the gap. No key occurs twice.
-/

namespace DecimalScript

/-- Values under text keys, in the order in which the keys were added. -/
structure Entries (α : Type) where
  toList : List (String × α)
  nodup_keys : (toList.map (·.1)).Nodup
  deriving Repr, DecidableEq

namespace Entries

variable {α : Type}

/-- No entries. -/
def empty : Entries α := ⟨[], List.nodup_nil⟩

instance : Inhabited (Entries α) := ⟨empty⟩

/-- How many entries there are. -/
def size (entries : Entries α) : Nat := entries.toList.length

/-- The keys in order. -/
def keys (entries : Entries α) : List String := entries.toList.map (·.1)

/-- The values in the order of their keys. -/
def values (entries : Entries α) : List α := entries.toList.map (·.2)

/-- The value under a key. -/
def get? (entries : Entries α) (key : String) : Option α := entries.toList.lookup key

/-- Whether the key is present. -/
def contains (entries : Entries α) (key : String) : Bool := (entries.get? key).isSome

/-- The list with the key set: in its place if it is present, else at the end. -/
def insertInto (key : String) (value : α) : List (String × α) → List (String × α)
  | [] => [(key, value)]
  | entry :: rest =>
    if entry.1 = key then (key, value) :: rest else entry :: insertInto key value rest

/-- A present key keeps its place among the keys, and a new one comes last. -/
theorem keys_insertInto (key : String) (value : α) (pairs : List (String × α)) :
    (insertInto key value pairs).map (·.1) =
      if key ∈ pairs.map (·.1) then pairs.map (·.1) else pairs.map (·.1) ++ [key] := by
  induction pairs with
  | nil => simp [insertInto]
  | cons entry rest ih =>
    obtain ⟨k, v⟩ := entry
    by_cases hk : k = key
    · simp [insertInto, hk]
    · have hk' : key ≠ k := Ne.symm hk
      by_cases hrest : key ∈ rest.map (·.1)
      · rw [if_pos hrest] at ih
        simp [insertInto, hk, hk', ih, List.mem_map.1 hrest]
      · rw [if_neg hrest] at ih
        rw [if_neg (by simpa [hk'] using hrest)]
        simp [insertInto, hk, ih]

theorem nodup_insertInto {pairs : List (String × α)} (h : (pairs.map (·.1)).Nodup) (key : String)
    (value : α) : ((insertInto key value pairs).map (·.1)).Nodup := by
  rw [keys_insertInto]
  by_cases hkey : key ∈ pairs.map (·.1)
  · rwa [if_pos hkey]
  · rw [if_neg hkey, List.nodup_append]
    refine ⟨h, by simp, fun other hother last hlast heq => hkey ?_⟩
    rwa [← List.mem_singleton.1 hlast, ← heq]

/-- Sets a key. -/
def insert (entries : Entries α) (key : String) (value : α) : Entries α :=
  ⟨insertInto key value entries.toList, nodup_insertInto entries.nodup_keys key value⟩

theorem keys_insert (entries : Entries α) (key : String) (value : α) :
    (entries.insert key value).keys =
      if key ∈ entries.keys then entries.keys else entries.keys ++ [key] :=
  keys_insertInto key value entries.toList

theorem insertInto_insertInto (key : String) (v w : α) (pairs : List (String × α)) :
    insertInto key w (insertInto key v pairs) = insertInto key w pairs := by
  induction pairs with
  | nil => simp [insertInto]
  | cons entry rest ih => by_cases h : entry.1 = key <;> simp [insertInto, h, ih]

theorem insert_insert (entries : Entries α) (key : String) (v w : α) :
    (entries.insert key v).insert key w = entries.insert key w := by
  simp only [insert, insertInto_insertInto]

/-- Removes a key. -/
def erase (entries : Entries α) (key : String) : Entries α :=
  ⟨entries.toList.filter fun entry => entry.1 ≠ key,
    entries.nodup_keys.sublist (List.filter_sublist.map _)⟩

/-- The other keys stay in their order. -/
theorem keys_erase (entries : Entries α) (key : String) :
    (entries.erase key).keys = entries.keys.filter fun other => other ≠ key := by
  simp only [keys, erase, List.filter_map]
  rfl

theorem nodup_zip {β : Type} {keys : List String} (h : keys.Nodup) (values : List β) :
    ((keys.zip values).map (·.1)).Nodup := by
  rw [List.zip_eq_zip_take_min, List.map_fst_zip (by simp)]
  exact h.sublist (List.take_sublist _ _)

/-- Puts other values under the keys, in order. -/
def withValues {β : Type} (entries : Entries α) (values : List β) : Entries β :=
  ⟨entries.keys.zip values, nodup_zip entries.nodup_keys values⟩

/-- The entries of a list, where a later entry replaces an earlier one of the same key. -/
def ofList (pairs : List (String × α)) : Entries α :=
  pairs.foldl (fun entries pair => entries.insert pair.1 pair.2) empty

/-! ### Reading -/

theorem lookup_cons_of_ne {key other : String} (h : other ≠ key) (value : α)
    (pairs : List (String × α)) : ((key, value) :: pairs).lookup other = pairs.lookup other := by
  rw [List.lookup_cons, beq_eq_false_iff_ne.2 h]

theorem lookup_eq_some_iff_mem {pairs : List (String × α)} (h : (pairs.map (·.1)).Nodup)
    {key : String} {value : α} : pairs.lookup key = some value ↔ (key, value) ∈ pairs := by
  induction pairs with
  | nil => simp
  | cons entry rest ih =>
    obtain ⟨k, v⟩ := entry
    rw [List.map_cons, List.nodup_cons] at h
    by_cases hk : key = k
    · -- no later entry has the key
      subst hk
      have hrest : (key, value) ∉ rest := fun hmem => h.1 (List.mem_map.2 ⟨_, hmem, rfl⟩)
      simp [hrest, eq_comm]
    · rw [lookup_cons_of_ne hk, List.mem_cons, Prod.mk.injEq]
      simp only [hk, false_and, false_or]
      exact ih h.2

/-- The value under a key is the one that the key's entry holds. -/
theorem get?_eq_some_iff {entries : Entries α} {key : String} {value : α} :
    entries.get? key = some value ↔ (key, value) ∈ entries.toList :=
  lookup_eq_some_iff_mem entries.nodup_keys

theorem get?_eq_none_iff {entries : Entries α} {key : String} :
    entries.get? key = none ↔ key ∉ entries.keys := by
  rw [Option.eq_none_iff_forall_ne_some]
  constructor
  · intro h hkey
    obtain ⟨entry, hmem, rfl⟩ := List.mem_map.1 hkey
    exact h entry.2 (get?_eq_some_iff.2 hmem)
  · intro h value hvalue
    exact h (List.mem_map.2 ⟨_, get?_eq_some_iff.1 hvalue, rfl⟩)

/-! ### Reading after writing -/

theorem lookup_insertInto (key other : String) (value : α) (pairs : List (String × α)) :
    (insertInto key value pairs).lookup other =
      if other = key then some value else pairs.lookup other := by
  induction pairs with
  | nil =>
    by_cases h : other = key
    · simp [insertInto, h]
    · simp [insertInto, h, lookup_cons_of_ne]
  | cons entry rest ih =>
    obtain ⟨k, v⟩ := entry
    by_cases hk : k = key
    · -- the entry is replaced in its place
      subst hk
      by_cases ho : other = k
      · simp [insertInto, ho]
      · simp [insertInto, ho, lookup_cons_of_ne]
    · by_cases ho : other = k
      · subst ho
        simp [insertInto, hk]
      · simp [insertInto, hk, lookup_cons_of_ne ho, ih]

/-- What a key is set to is what it reads as, and no other key changes. -/
theorem get?_insert (entries : Entries α) (key other : String) (value : α) :
    (entries.insert key value).get? other =
      if other = key then some value else entries.get? other :=
  lookup_insertInto key other value entries.toList

/-- A key that is set is present, and no other key comes or goes. -/
theorem contains_insert {entries : Entries α} {key other : String} {value : α} :
    (entries.insert key value).contains other = true ↔
      other = key ∨ entries.contains other = true := by
  rw [contains, get?_insert]
  split <;> simp [*, contains]

theorem lookup_filter_ne (key other : String) (pairs : List (String × α)) :
    (pairs.filter fun entry => entry.1 ≠ key).lookup other =
      if other = key then none else pairs.lookup other := by
  induction pairs with
  | nil => simp
  | cons entry rest ih =>
    obtain ⟨k, v⟩ := entry
    by_cases hk : k = key
    · -- the entry goes
      subst hk
      by_cases ho : other = k
      · simpa [ho] using ih
      · simpa [ho, lookup_cons_of_ne] using ih
    · by_cases ho : other = k
      · subst ho
        simp [hk]
      · simpa [hk, lookup_cons_of_ne ho] using ih

/-- An erased key is gone, and no other key changes. -/
theorem get?_erase (entries : Entries α) (key other : String) :
    (entries.erase key).get? other = if other = key then none else entries.get? other :=
  lookup_filter_ne key other entries.toList

/-! ### A property of all values -/

/-- Every value has the property. -/
def All (p : α → Prop) (entries : Entries α) : Prop :=
  ∀ key value, entries.get? key = some value → p value

variable {p : α → Prop}

theorem All.empty : All p (Entries.empty : Entries α) := by
  intro key value h
  cases h

theorem All.insert {entries : Entries α} (h : entries.All p) (key : String) {value : α}
    (hvalue : p value) : (entries.insert key value).All p := by
  intro other found hfound
  rw [get?_insert] at hfound
  split at hfound
  · cases hfound
    exact hvalue
  · exact h other found hfound

theorem All.erase {entries : Entries α} (h : entries.All p) (key : String) :
    (entries.erase key).All p := by
  intro other found hfound
  rw [get?_erase] at hfound
  split at hfound
  · cases hfound
  · exact h other found hfound

theorem All.of_mem {entries : Entries α} (h : entries.All p) {entry : String × α}
    (hentry : entry ∈ entries.toList) : p entry.2 :=
  h entry.1 entry.2 (get?_eq_some_iff.2 hentry)

theorem All.of_mem_values {entries : Entries α} (h : entries.All p) {value : α}
    (hvalue : value ∈ entries.values) : p value := by
  obtain ⟨entry, hentry, rfl⟩ := List.mem_map.1 hvalue
  exact h.of_mem hentry

/-- A value after an insertion is the new one, or it was there before. -/
theorem mem_values_insert {entries : Entries α} {key : String} {value other : α}
    (h : other ∈ (entries.insert key value).values) : other = value ∨ other ∈ entries.values := by
  have hall : entries.All fun v => v = value ∨ v ∈ entries.values := fun name v hv =>
    .inr (List.mem_map_of_mem (get?_eq_some_iff.1 hv))
  exact (hall.insert key (.inl rfl)).of_mem_values h

theorem all_withValues {β : Type} {p : β → Prop} (entries : Entries α) {values : List β}
    (h : ∀ value ∈ values, p value) : (entries.withValues values).All p := by
  intro key value hvalue
  rw [get?_eq_some_iff] at hvalue
  exact h value (List.of_mem_zip hvalue).2

end Entries

end DecimalScript
