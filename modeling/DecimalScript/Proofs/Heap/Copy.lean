import DecimalScript.Heap.Copy
import DecimalScript.Proofs.Heap.Bisimulation
import DecimalScript.Proofs.Heap.Paths

/-!
# Copies are equal and independent

What a copy is, level by level, is `IsCopy`: an array is copied by a new array with copies of the
elements, a map by a new map with the same keys in the same order and copies of the values, and
everything else, as well as everything below the last level, by itself. Shared and cyclic containers
are unrolled in this way, down to the last level, and a copy is equal to the original because being a
copy, on whatever level, is a bisimulation (`equal_of_isCopy`).

The levels are the steps of a path: what `n` steps lead to from the copy is a copy, of `n` levels less,
of what `n` steps lead to from the original (`IsCopy.exists_of_reaches`). So the arrays and maps of the
copy are new as far as the levels go and shared below. Where the levels suffice, the original and the
copy have no array and no map in common, other than through an instance, and neither sees what is
written to the other.

Main result: `copy_equal_and_independent`.
-/

namespace DecimalScript

/-! ### Entries with the same keys -/

namespace Entries

variable {α : Type} {R : α → α → Prop}

theorem values_withValues {entries : Entries α} {values : List α}
    (h : values.length = entries.values.length) : (entries.withValues values).values = values := by
  have hlength : values.length ≤ entries.keys.length := by simp [h, Entries.values, keys]
  rw [withValues, Entries.values]
  exact List.map_snd_zip hlength

theorem keys_withValues {entries : Entries α} {values : List α}
    (h : values.length = entries.values.length) :
    (entries.withValues values).keys = entries.keys := by
  have hlength : entries.keys.length ≤ values.length := by simp [h, Entries.values, keys]
  rw [withValues, Entries.keys]
  exact List.map_fst_zip hlength

theorem rel_lookup {left right : List (String × α)} (hkeys : right.map (·.1) = left.map (·.1))
    (hvalues : List.Forall₂ R (left.map (·.2)) (right.map (·.2))) (key : String) :
    Option.Rel R (left.lookup key) (right.lookup key) := by
  -- on the entries; both lists have the same keys in the same order
  induction left generalizing right with
  | nil =>
    obtain rfl := List.map_eq_nil_iff.1 hkeys
    exact .none
  | cons entry rest ih =>
    obtain ⟨other, others, rfl, hkey, hrest⟩ := List.map_eq_cons_iff.1 hkeys
    obtain ⟨k, v⟩ := entry
    obtain ⟨k', w⟩ := other
    obtain rfl : k' = k := hkey
    obtain ⟨hfirst, hothers⟩ := List.forall₂_cons.1 hvalues
    by_cases hk : key = k'
    · subst hk
      rw [List.lookup_cons_self, List.lookup_cons_self]
      exact .some hfirst
    · rw [lookup_cons_of_ne hk, lookup_cons_of_ne hk]
      exact ih hrest hothers

/-- Maps with the same keys agree key by key if their values agree in order. -/
theorem rel_get? {left right : Entries α} (hkeys : right.keys = left.keys)
    (hvalues : List.Forall₂ R left.values right.values) (key : String) :
    Option.Rel R (left.get? key) (right.get? key) :=
  rel_lookup hkeys hvalues key

end Entries

namespace Heap

/-! ### Copies level by level -/

/-- On the later heap the second value is a copy of what the first is on `heap`, where the number of
levels is renewed. -/
def IsCopy (heap later : Heap) : (levels : ℕ) → Value → Value → Prop
  | levels + 1, .array a, w => ∃ b, w = .array b ∧ ¬heap.Holds (.array b) ∧ later.Holds (.array b) ∧
    List.Forall₂ (IsCopy heap later levels) (heap.items a) (later.items b)
  | levels + 1, .map a, w => ∃ b, w = .map b ∧ ¬heap.Holds (.map b) ∧ later.Holds (.map b) ∧
    (later.entries b).keys = (heap.entries a).keys ∧
    List.Forall₂ (IsCopy heap later levels) (heap.entries a).values (later.entries b).values
  | _, v, w => w = v

variable {heap middle later : Heap} {levels n : ℕ} {u v w : Value}

theorem isCopy_zero : IsCopy heap later 0 v w ↔ w = v := by
  cases v <;> exact Iff.rfl

theorem isCopy_of_not_isContainer (hv : ¬v.IsContainer) :
    IsCopy heap later levels v w ↔ w = v := by
  -- what holds nothing is copied as itself on every level
  cases levels with
  | zero => exact isCopy_zero
  | succ levels =>
    cases v with
    | array a => exact absurd trivial hv
    | map a => exact absurd trivial hv
    | _ => exact Iff.rfl

/-- A container that is a copy is new, unless no level is renewed. -/
theorem IsCopy.isNew (h : IsCopy heap later (levels + 1) v w) (hw : w.IsContainer) :
    ¬heap.Holds w ∧ later.Holds w := by
  -- an array or a map is newly made, and nothing else is a container
  cases v with
  | array a =>
    obtain ⟨b, rfl, hnew, hmade, -⟩ := h
    exact ⟨hnew, hmade⟩
  | map a =>
    obtain ⟨b, rfl, hnew, hmade, -⟩ := h
    exact ⟨hnew, hmade⟩
  | _ =>
    obtain rfl := (isCopy_of_not_isContainer id).1 h
    exact hw.elim

/-- A copy that is no container is the original. -/
theorem IsCopy.eq_of_not_isContainer (h : IsCopy heap later levels v w) (hw : ¬w.IsContainer) :
    w = v := by
  cases levels with
  | zero => exact isCopy_zero.1 h
  | succ levels =>
    cases v with
    | array a =>
      obtain ⟨b, rfl, -⟩ := h
      exact absurd trivial hw
    | map a =>
      obtain ⟨b, rfl, -⟩ := h
      exact absurd trivial hw
    | _ => exact (isCopy_of_not_isContainer id).1 h

/-- The parts of a copy are copies of the parts, of one level less. -/
theorem IsCopy.forall₂_parts (h : IsCopy heap later levels v w) (hkeeps : heap.KeepsParts later)
    (hv : heap.Holds v) :
    List.Forall₂ (IsCopy heap later (levels - 1)) (heap.parts v) (later.parts w) := by
  -- below the last level the parts are the same, above it they are copies
  cases levels with
  | zero =>
    obtain rfl := isCopy_zero.1 h
    rw [hkeeps.parts_eq hv]
    exact List.forall₂_same.2 fun u _ => isCopy_zero.2 rfl
  | succ levels =>
    cases v with
    | array a =>
      obtain ⟨b, rfl, -, -, hitems⟩ := h
      exact hitems
    | map a =>
      obtain ⟨b, rfl, -, -, -, hvalues⟩ := h
      exact hvalues
    | _ =>
      obtain rfl := (isCopy_of_not_isContainer id).1 h
      exact .nil

/-- A copy stays a copy. -/
theorem IsCopy.keeps (h : IsCopy heap middle levels v w) (hkeeps : middle.KeepsParts later) :
    IsCopy heap later levels v w := by
  -- on the levels: what was made stays as it was made
  induction levels generalizing v w with
  | zero => exact isCopy_zero.2 (isCopy_zero.1 h)
  | succ levels ih =>
    cases v with
    | array a =>
      obtain ⟨b, rfl, hnew, hmade, hitems⟩ := h
      have hsame : later.items b = middle.items b := hkeeps.items_eq hmade
      refine ⟨b, rfl, hnew, hkeeps.holds _ hmade, ?_⟩
      rw [hsame]
      exact hitems.imp fun _ _ => ih
    | map a =>
      obtain ⟨b, rfl, hnew, hmade, hkeys, hvalues⟩ := h
      have hsame : later.entries b = middle.entries b := hkeeps.entries_eq hmade
      refine ⟨b, rfl, hnew, hkeeps.holds _ hmade, ?_⟩
      rw [hsame]
      exact ⟨hkeys, hvalues.imp fun _ _ => ih⟩
    | _ => exact (isCopy_of_not_isContainer id).2 ((isCopy_of_not_isContainer id).1 h)

/-! ### What a copy makes -/

theorem keeps_mapValues {f : Value → Heap → Value × Heap}
    (hf : ∀ v (heap : Heap), heap.Keeps (f v heap).2) (values : List Value) (heap : Heap) :
    heap.Keeps (mapValues f values heap).2 := by
  induction values generalizing heap with
  | nil => exact .refl heap
  | cons v rest ih => exact (hf v heap).trans (ih _)

/-- Whatever the heap is, a copy leaves it as it was, and all that is made is new. -/
theorem keeps_copyWithin (levels : ℕ) (v : Value) (heap : Heap) :
    heap.Keeps (copyWithin levels v heap).2 := by
  -- on the levels, since the parts are copied first and the container is made from their copies
  induction levels generalizing v heap with
  | zero => exact .refl heap
  | succ levels ih =>
    cases v with
    | array a => exact (keeps_mapValues ih _ heap).trans (keeps_newArray _ _)
    | map a => exact (keeps_mapValues ih _ heap).trans (keeps_newMap _ _)
    | _ => exact .refl heap

theorem keeps_pass (heap : Heap) (byRef : Bool) (v : Value) : heap.Keeps (heap.pass byRef v).2 := by
  cases byRef with
  | true => exact .refl heap
  | false => exact keeps_copyWithin copyLevels v heap

/-! ### What is copied is a copy -/

/-- From every later heap on, `f` only makes what is new and gives a copy of a value on `heap`. -/
def Copies (heap : Heap) (levels : ℕ) (f : Value → Heap → Value × Heap) : Prop :=
  ∀ v, heap.Holds v → ∀ middle, heap.KeepsParts middle →
    middle.Keeps (f v middle).2 ∧ IsCopy heap (f v middle).2 levels v (f v middle).1

theorem Copies.mapValues {f : Value → Heap → Value × Heap} (hf : heap.Copies levels f)
    {values : List Value} (hvalues : ∀ v ∈ values, heap.Holds v) (hkeeps : heap.KeepsParts middle) :
    middle.Keeps (mapValues f values middle).2 ∧
      List.Forall₂ (IsCopy heap (Heap.mapValues f values middle).2 levels) values
        (Heap.mapValues f values middle).1 := by
  -- on the values, each of which is copied in the heap that the others left
  induction values generalizing middle with
  | nil => exact ⟨.refl middle, .nil⟩
  | cons v rest ih =>
    obtain ⟨hfirst, hcopy⟩ := hf v (hvalues v List.mem_cons_self) middle hkeeps
    obtain ⟨hrest, hcopies⟩ :=
      ih (fun u hu => hvalues u (List.mem_cons_of_mem v hu)) (hkeeps.trans hfirst.keepsParts)
    exact ⟨hfirst.trans hrest, .cons (hcopy.keeps hrest.keepsParts) hcopies⟩

/-- The container that is made last is a copy, as its parts are. -/
theorem isCopy_newArray {a : ℕ} {items : List Value} (hkeeps : heap.KeepsParts middle)
    (hitems : List.Forall₂ (IsCopy heap middle levels) (heap.items a) items) :
    IsCopy heap (middle.newArray items).2 (levels + 1) (.array a) (middle.newArray items).1 := by
  -- the address is the first free one, so it was not held before
  refine ⟨middle.arrays.size, rfl, ?_, ?_, ?_⟩
  · intro hold
    exact Nat.lt_irrefl _ (hkeeps.holds _ hold)
  · simp [Holds, newArray]
  · rw [items_newArray, if_pos rfl]
    exact hitems.imp fun _ _ h => h.keeps (keeps_newArray middle items).keepsParts

theorem isCopy_newMap {a : ℕ} {values : List Value} (hkeeps : heap.KeepsParts middle)
    (hvalues : List.Forall₂ (IsCopy heap middle levels) (heap.entries a).values values) :
    IsCopy heap (middle.newMap ((heap.entries a).withValues values)).2 (levels + 1) (.map a)
      (middle.newMap ((heap.entries a).withValues values)).1 := by
  have hlength := hvalues.length_eq.symm
  refine ⟨middle.maps.size, rfl, ?_, ?_, ?_⟩
  · intro hold
    exact Nat.lt_irrefl _ (hkeeps.holds _ hold)
  · simp [Holds, newMap]
  · rw [entries_newMap, if_pos rfl, Entries.keys_withValues hlength,
      Entries.values_withValues hlength]
    exact ⟨rfl, hvalues.imp fun _ _ h => h.keeps (keeps_newMap middle _).keepsParts⟩

theorem copies_copyWithin (hclosed : heap.Closed) (levels : ℕ) :
    heap.Copies levels (copyWithin levels) := by
  induction levels with
  | zero => exact fun v _ middle _ => ⟨.refl middle, isCopy_zero.2 rfl⟩
  | succ levels ih =>
    intro v hv middle hkeeps
    cases v with
    | array a =>
      -- the elements are read on a heap that has kept them
      have hsame : middle.items a = heap.items a := hkeeps.items_eq hv
      have hitems : ∀ w ∈ middle.items a, heap.Holds w := by
        rw [hsame]
        exact hclosed (.array a)
      obtain ⟨hparts, hcopies⟩ := ih.mapValues hitems hkeeps
      rw [hsame] at hparts hcopies
      rw [copyWithin, hsame]
      exact ⟨hparts.trans (keeps_newArray _ _), isCopy_newArray (hkeeps.trans hparts.keepsParts) hcopies⟩
    | map a =>
      have hsame : middle.entries a = heap.entries a := hkeeps.entries_eq hv
      have hvalues : ∀ w ∈ (heap.entries a).values, heap.Holds w := hclosed (.map a)
      obtain ⟨hparts, hcopies⟩ := ih.mapValues hvalues hkeeps
      rw [copyWithin, hsame]
      exact ⟨hparts.trans (keeps_newMap _ _), isCopy_newMap (hkeeps.trans hparts.keepsParts) hcopies⟩
    | _ => exact ⟨.refl middle, (isCopy_of_not_isContainer id).2 rfl⟩

/-! ### Equality -/

/-- To be a copy on some level is a bisimulation. -/
theorem equal_of_isCopy (hclosed : heap.Closed) (hkeeps : heap.KeepsParts later) (hv : heap.Holds v)
    (h : IsCopy heap later levels v w) : later.equal v w = true := by
  rw [equal_iff_bisimilar]
  -- on every level each value is related to its copy, and below the last one to itself
  let R : Value → Value → Prop := fun v w => ∃ levels, heap.Holds v ∧ IsCopy heap later levels v w
  have hrel : ∀ {levels values copies}, (∀ u ∈ values, heap.Holds u) →
      List.Forall₂ (IsCopy heap later levels) values copies → List.Forall₂ R values copies := by
    intro levels values copies hholds hcopies
    exact ((List.forall₂_and_left _ _).2 ⟨hholds, hcopies⟩).imp fun _ _ h => ⟨levels, h⟩
  have hrefl : ∀ {v}, heap.Holds v → later.Alike R v v := by
    intro v hv
    -- below the last level every part is its own copy
    have hself : ∀ u ∈ heap.parts v, R u u := fun u hu =>
      ⟨0, hclosed.holds_of_mem_parts hu, isCopy_zero.2 rfl⟩
    cases v with
    | array a =>
      refine .array ?_
      rw [hkeeps.items_eq hv]
      exact List.forall₂_same.2 hself
    | map a =>
      refine .map (Entries.rel_get? rfl ?_)
      rw [hkeeps.entries_eq hv]
      exact List.forall₂_same.2 hself
    | null => exact .null
    | bool b => exact .bool b
    | str text => exact .str text
    | dec d => exact .dec rfl
    | func f => exact .func rfl
    | object a => exact .object a
  refine ⟨R, ?_, levels, hv, h⟩
  -- from here on the relation is shown to be a bisimulation
  rintro v w ⟨levels, hv, h⟩
  cases levels with
  | zero =>
    obtain rfl := isCopy_zero.1 h
    exact hrefl hv
  | succ levels =>
    cases v with
    | array a =>
      obtain ⟨b, rfl, -, -, hitems⟩ := h
      refine .array ?_
      rw [hkeeps.items_eq hv]
      exact hrel (hclosed (.array a)) hitems
    | map a =>
      obtain ⟨b, rfl, -, -, hkeys, hvalues⟩ := h
      have hsame : later.entries a = heap.entries a := hkeeps.entries_eq hv
      rw [← hsame] at hkeys hvalues
      refine .map (Entries.rel_get? hkeys (hrel ?_ hvalues))
      rw [hsame]
      exact hclosed (.map a)
    | _ =>
      obtain rfl := (isCopy_of_not_isContainer id).1 h
      exact hrefl hv

/-! ### What is reached from a copy -/

theorem exists_mem_of_forall₂ {R : Value → Value → Prop} {values copies : List Value}
    (h : List.Forall₂ R values copies) (hw : w ∈ copies) : ∃ v ∈ values, R v w := by
  -- on the two lists side by side
  induction h with
  | nil => cases hw
  | cons hfirst _ ih =>
    rcases List.mem_cons.1 hw with rfl | hw
    · exact ⟨_, List.mem_cons_self, hfirst⟩
    · obtain ⟨v, hv, hR⟩ := ih hw
      exact ⟨v, List.mem_cons_of_mem _ hv, hR⟩

/-- What steps lead to from a copy is a copy of what as many steps lead to from the original. -/
theorem IsCopy.exists_of_reaches (h : IsCopy heap later levels v w) (hclosed : heap.Closed)
    (hkeeps : heap.KeepsParts later) (hv : heap.Holds v) (hu : Reaches later.parts w n u) :
    ∃ x, Reaches heap.parts v n x ∧ IsCopy heap later (levels - n) x u := by
  -- along the path in the copy; each step down uses up one level
  induction hu with
  | self => exact ⟨v, .self, h⟩
  | @step n u y _ hy ih =>
    obtain ⟨x, hx, hcopy⟩ := ih
    have hparts := hcopy.forall₂_parts hkeeps (hclosed.holds_of_reaches_parts hv hx)
    obtain ⟨z, hz, hpart⟩ := exists_mem_of_forall₂ hparts hy
    exact ⟨z, .step hx hz, Nat.sub_sub levels n 1 ▸ hpart⟩

/-- The arrays and maps of a copy are new as far as the levels go, and below they are those of the
original. -/
theorem IsCopy.of_reaches (h : IsCopy heap later levels v w) (hclosed : heap.Closed)
    (hkeeps : heap.KeepsParts later) (hv : heap.Holds v) (hu : Reaches later.parts w n u)
    (hcontainer : u.IsContainer) :
    (n < levels → ¬heap.Holds u ∧ later.Holds u) ∧ (levels ≤ n → Reaches heap.parts v n u) := by
  obtain ⟨x, hx, hcopy⟩ := h.exists_of_reaches hclosed hkeeps hv hu
  constructor
  · -- the levels are not used up, so what was reached is a copy
    intro hlevels
    obtain ⟨left, hleft⟩ := Nat.exists_eq_add_one.2 (Nat.sub_pos_of_lt hlevels)
    rw [hleft] at hcopy
    exact hcopy.isNew hcontainer
  · -- they are used up, and then it is the original itself
    intro hlevels
    rw [Nat.sub_eq_zero_of_le hlevels] at hcopy
    obtain rfl := isCopy_zero.1 hcopy
    exact hx

/-- Everything else in a copy is in the original. -/
theorem IsCopy.reaches_of_not_isContainer (h : IsCopy heap later levels v w)
    (hclosed : heap.Closed) (hkeeps : heap.KeepsParts later) (hv : heap.Holds v)
    (hu : Reaches later.parts w n u) (hcontainer : ¬u.IsContainer) : Reaches heap.parts v n u := by
  obtain ⟨x, hx, hcopy⟩ := h.exists_of_reaches hclosed hkeeps hv hu
  obtain rfl := hcopy.eq_of_not_isContainer hcontainer
  exact hx

/-! ### Independence -/

/-- The arrays and maps in `v` lie at most as many steps deep. -/
def NestedWithin (heap : Heap) (depth : ℕ) (v : Value) : Prop :=
  ∀ n u, Reaches heap.parts v n u → u.IsContainer → n ≤ depth

theorem nestedWithin_of_parts {depth : ℕ} (h : ∀ w ∈ heap.parts v, heap.NestedWithin depth w) :
    heap.NestedWithin (depth + 1) v := by
  intro n u hu hcontainer
  obtain ⟨rfl, -⟩ | ⟨m, rfl, w, hw, hreaches⟩ := hu.self_or_exists
  · exact Nat.zero_le _
  · exact Nat.succ_le_succ (h w hw m u hreaches hcontainer)

theorem nestedWithin_of_not_isContainer {depth : ℕ} (h : ¬v.IsContainer) :
    heap.NestedWithin depth v := by
  -- a path from such a value has no step
  intro n u hu hcontainer
  obtain ⟨-, rfl⟩ | ⟨m, -, w, hw, -⟩ := hu.self_or_exists
  · exact absurd hcontainer h
  · cases v with
    | array a => exact absurd trivial h
    | map a => exact absurd trivial h
    | _ => cases hw

/-- The value is reached from an instance that is in `v`. -/
def BehindInstance (heap : Heap) (v u : Value) : Prop :=
  ∃ a, (∃ n, Reaches heap.parts v n (.object a)) ∧ ∃ n, Reaches heap.holdings (.object a) n u

section Independence

variable {S : Value → Prop} {depth : ℕ} {copied : Heap}

/-- What is in a copy whose levels suffice is new, or no container and on the heap before. -/
theorem IsCopy.holds_of_reaches (h : IsCopy heap copied (depth + 1) v w) (hclosed : heap.Closed)
    (hkeeps : heap.Keeps copied) (hv : heap.Holds v) (hnested : heap.NestedWithin depth v)
    (hu : Reaches copied.parts w n u) :
    copied.Holds u ∧ (u.IsContainer → ¬heap.Holds u) := by
  -- what is no container holds nothing, and what is one is new
  by_cases hcontainer : u.IsContainer
  · obtain ⟨hnew, hold⟩ := h.of_reaches hclosed hkeeps.keepsParts hv hu hcontainer
    by_cases hn : n < depth + 1
    · exact ⟨(hnew hn).2, fun _ => (hnew hn).1⟩
    · -- there is nothing so deep in the original
      have hle := hnested n u (hold (Nat.le_of_not_lt hn)) hcontainer
      exact absurd (Nat.lt_succ_of_le hle) hn
  · have hreaches := h.reaches_of_not_isContainer hclosed hkeeps.keepsParts hv hu hcontainer
    have hholds := hclosed.holds_of_reaches_parts hv hreaches
    exact ⟨hkeeps.holds u hholds, fun hc => absurd hc hcontainer⟩

/-- What is written to the copy is not seen from anything that was there before, and so not from the
original. -/
theorem IsCopy.sameView_original (h : IsCopy heap copied (depth + 1) v w) (hclosed : heap.Closed)
    (hkeeps : heap.Keeps copied) (hv : heap.Holds v) (hnested : heap.NestedWithin depth v)
    (hS : ∀ u, S u → ∃ n, Reaches copied.parts w n u) (hwritten : Written copied S later)
    {x : Value} (hx : heap.Holds x) : SameView holdings copied later x := by
  -- a path of the original meets no address that the copy made, and only those were written
  refine sameView_of_sameAt (fun _ => SameAt.holdings_eq) fun n u hu => ?_
  rw [(hkeeps.sameView hclosed hx).reaches_iff] at hu
  have hholds := hclosed.holds_of_reaches hx hu
  refine hwritten.sameAt (hkeeps.holds u hholds) fun hcontainer hSu => ?_
  obtain ⟨m, hm⟩ := hS u hSu
  exact (h.holds_of_reaches hclosed hkeeps hv hnested hm).2 hcontainer hholds

/-- What is written to the original is not seen from the copy, as long as no instance is passed. -/
theorem IsCopy.sameView_copy (h : IsCopy heap copied (depth + 1) v w) (hclosed : heap.Closed)
    (hkeeps : heap.Keeps copied) (hv : heap.Holds v) (hnested : heap.NestedWithin depth v)
    (hS : ∀ u, S u → ∃ n, Reaches heap.parts v n u) (hwritten : Written copied S later) :
    SameView Heap.parts copied later w := by
  -- the other way round, a path of the copy meets no address of the original
  refine sameView_of_sameAt (fun _ => SameAt.parts_eq) fun n u hu => ?_
  obtain ⟨hmade, hnew⟩ := h.holds_of_reaches hclosed hkeeps hv hnested hu
  refine hwritten.sameAt hmade fun hcontainer hSu => ?_
  obtain ⟨m, hm⟩ := hS u hSu
  exact hnew hcontainer (hclosed.holds_of_reaches_parts hv hm)

/-- What is seen from the copy is in it, or it stands behind an instance that the original has as
well. -/
theorem IsCopy.reaches_or_behindInstance (h : IsCopy heap copied levels v w)
    (hclosed : heap.Closed) (hkeeps : heap.Keeps copied) (hv : heap.Holds v)
    (hu : Reaches copied.holdings w n u) :
    (∃ m, Reaches copied.parts w m u) ∨ heap.BehindInstance v u := by
  induction hu with
  | self => exact .inl ⟨0, .self⟩
  | @step n u y _ hy ih =>
    obtain ⟨m, hm⟩ | ⟨a, ⟨m, hm⟩, k, hk⟩ := ih
    · cases u with
      | object a =>
        -- the path leaves the copy through an instance
        have hobject := h.reaches_of_not_isContainer hclosed hkeeps.keepsParts hv hm id
        have hholds := hclosed.holds_of_reaches_parts hv hobject
        rw [(hkeeps.sameAt _ hholds).holdings_eq] at hy
        exact .inr ⟨a, ⟨m, hobject⟩, 1, .step .self hy⟩
      | _ => exact .inl ⟨m + 1, .step hm hy⟩
    · have hholds := hclosed.holds_of_reaches (hclosed.holds_of_reaches_parts hv hm) hk
      rw [(hkeeps.sameAt _ hholds).holdings_eq] at hy
      exact .inr ⟨a, ⟨m, hm⟩, k + 1, .step hk hy⟩

/-- If nothing behind an instance is written either, nothing at all is seen from the copy. -/
theorem IsCopy.sameView_copy_of_not_behindInstance (h : IsCopy heap copied (depth + 1) v w)
    (hclosed : heap.Closed) (hkeeps : heap.Keeps copied) (hv : heap.Holds v)
    (hnested : heap.NestedWithin depth v) (hS : ∀ u, S u → ∃ n, Reaches heap.parts v n u)
    (hinstance : ∀ u, S u → ¬heap.BehindInstance v u) (hwritten : Written copied S later) :
    SameView holdings copied later w := by
  refine sameView_of_sameAt (fun _ => SameAt.holdings_eq) fun n u hu => ?_
  -- a path of the copy stays in what was made until it goes through an object
  obtain ⟨m, hm⟩ | hbehind := h.reaches_or_behindInstance hclosed hkeeps hv hu
  · exact (h.sameView_copy hclosed hkeeps hv hnested hS hwritten).sameAt m u hm
  · have hholds : heap.Holds u := by
      obtain ⟨a, ⟨m, hm⟩, k, hk⟩ := hbehind
      exact hclosed.holds_of_reaches (hclosed.holds_of_reaches_parts hv hm) hk
    exact hwritten.sameAt (hkeeps.holds u hholds) fun _ hSu => hinstance u hSu hbehind

end Independence

/-- **Main theorem.** The copy of a value is equal to it and a copy on 65 levels, and everything that
was on the heap stays as it was. The arrays and maps at most 64 steps deep in the copy are new, and
the deeper ones are those of the original. If the original is not nested deeper, then writing to the
arrays and maps in the copy changes nothing of what is seen from the original, and writing to those
in the original changes nothing of what is seen from the copy, unless it is seen through an instance,
which both have in common. -/
theorem copy_equal_and_independent {heap copied : Heap} {v w : Value} (hclosed : heap.Closed)
    (hv : heap.Holds v) (hcopy : heap.copy v = (w, copied)) :
    copied.equal v w = true ∧ IsCopy heap copied 65 v w ∧ heap.Keeps copied ∧
    (∀ n u, Reaches copied.parts w n u → u.IsContainer →
      (n ≤ 64 → ¬heap.Holds u ∧ copied.Holds u) ∧ (64 < n → Reaches heap.parts v n u)) ∧
    (heap.NestedWithin 64 v →
      (∀ S later, (∀ u, S u → ∃ n, Reaches copied.parts w n u) → Written copied S later →
        SameView holdings copied later v) ∧
      ∀ S later, (∀ u, S u → ∃ n, Reaches heap.parts v n u) → Written copied S later →
        SameView Heap.parts copied later w ∧
        ((∀ u, S u → ¬heap.BehindInstance v u) → SameView holdings copied later w)) := by
  -- the copy is the one that the levels make, and every part is said of it
  obtain ⟨hkeeps, hlevels⟩ := copies_copyWithin hclosed copyLevels v hv heap (Keeps.refl heap).keepsParts
  rw [show copyWithin copyLevels v heap = (w, copied) from hcopy] at hkeeps hlevels
  refine ⟨equal_of_isCopy hclosed hkeeps.keepsParts hv hlevels, hlevels, hkeeps, ?_, fun hnested => ⟨?_, ?_⟩⟩
  · intro n u hu hcontainer
    obtain ⟨hnew, hold⟩ := hlevels.of_reaches hclosed hkeeps.keepsParts hv hu hcontainer
    exact ⟨fun hn => hnew (Nat.lt_succ_of_le hn), hold⟩
  · intro S later hS hwritten
    exact hlevels.sameView_original hclosed hkeeps hv hnested hS hwritten hv
  · intro S later hS hwritten
    refine ⟨hlevels.sameView_copy hclosed hkeeps hv hnested hS hwritten, fun hinstance => ?_⟩
    exact hlevels.sameView_copy_of_not_behindInstance hclosed hkeeps hv hnested hS hinstance
      hwritten

/-- An array that holds another one twice: its copy holds two copies, which are not written when the
shared array is. -/
theorem shared_array_copied :
    let heap := ((empty.newArray [.dec ⟨150, -2, by decide, by decide⟩]).2.newArray
      [.array 0, .array 0]).2
    let copied := (heap.copy (.array 1)).2
    heap.Closed ∧ heap.Holds (.array 1) ∧ heap.copy (.array 1) = (.array 4, copied) ∧
      copied.items 4 = [.array 2, .array 3] ∧ copied.equal (.array 1) (.array 4) = true ∧
      heap.NestedWithin 64 (.array 1) ∧
      SameView Heap.parts copied (copied.setItems 0 []) (.array 4) := by
  intro heap copied
  have hclosed : heap.Closed := by
    refine (closed_empty.newArray ?_).newArray ?_
    · exact List.forall_mem_singleton.2 trivial
    · intro w hw
      obtain rfl : w = .array 0 := by simpa using hw
      exact Nat.zero_lt_one
  have hv : heap.Holds (.array 1) := Nat.lt_succ_self 1
  have hcopy : heap.copy (.array 1) = (.array 4, copied) := rfl
  have hnested : heap.NestedWithin 64 (.array 1) := by
    refine nestedWithin_of_parts fun w hw => ?_
    replace hw : w ∈ [Value.array 0, .array 0] := hw
    obtain rfl : w = .array 0 := by simpa using hw
    refine nestedWithin_of_parts fun w hw => ?_
    obtain rfl := List.mem_singleton.1 hw
    exact nestedWithin_of_not_isContainer id
  obtain ⟨hequal, -, -, -, hindependent⟩ := copy_equal_and_independent hclosed hv hcopy
  refine ⟨hclosed, hv, hcopy, rfl, hequal, hnested, ?_⟩
  have hshared : Reaches heap.parts (.array 1) 1 (.array 0) := .step .self List.mem_cons_self
  have hwritten : Written copied (· = .array 0) (copied.setItems 0 []) := by
    refine .setItems .start ?_ []
    exact fun _ => rfl
  refine ((hindependent hnested).2 _ _ ?_ hwritten).1
  rintro u rfl
  exact ⟨1, hshared⟩

/-- **Not everything that is written to the original is hidden from the copy.** The array holds another
one, and an instance that has this one as well. The copy holds the same instance, and behind it the
array that is written. -/
theorem write_seen_through_instance :
    let shared := ((empty.newArray [.bool true]).2.newObject ⟨"C", [], [], [], []⟩).2
    let heap := ((shared.setProp 0 "p" (.array 0)).newArray [.array 0, .object 0]).2
    let copied := (heap.copy (.array 1)).2
    heap.Closed ∧ heap.Holds (.array 1) ∧ heap.NestedWithin 64 (.array 1) ∧
      heap.copy (.array 1) = (.array 3, copied) ∧ Reaches heap.parts (.array 1) 1 (.array 0) ∧
      Written copied (· = .array 0) (copied.setItems 0 []) ∧
      ¬SameView holdings copied (copied.setItems 0 []) (.array 3) := by
  intro shared heap copied
  have hshared : shared.Closed := by
    refine (closed_empty.newArray ?_).newObject _
    exact List.forall_mem_singleton.2 trivial
  have harray : shared.Holds (.array 0) := Nat.zero_lt_one
  have hclosed : heap.Closed := by
    refine (hshared.setProp 0 "p" harray).newArray ?_
    exact List.forall_mem_cons.2 ⟨harray, List.forall_mem_singleton.2 Nat.zero_lt_one⟩
  have hnested : heap.NestedWithin 64 (.array 1) := by
    refine nestedWithin_of_parts fun w hw => ?_
    replace hw : w ∈ [Value.array 0, .object 0] := hw
    obtain rfl | rfl : w = .array 0 ∨ w = .object 0 := by simpa using hw
    · refine nestedWithin_of_parts fun w hw => ?_
      obtain rfl := List.mem_singleton.1 hw
      exact nestedWithin_of_not_isContainer id
    · exact nestedWithin_of_not_isContainer id
  have hwritten : Written copied (· = .array 0) (copied.setItems 0 []) := by
    refine .setItems .start ?_ []
    exact fun _ => rfl
  refine ⟨hclosed, Nat.lt_succ_self 1, hnested, rfl, .step .self List.mem_cons_self, hwritten, ?_⟩
  intro hview
  have hinstance : Reaches copied.holdings (.array 3) 1 (.object 0) :=
    .step .self (List.mem_cons_of_mem _ List.mem_cons_self)
  have hbehind : Reaches copied.holdings (.array 3) 2 (.array 0) :=
    .step hinstance List.mem_cons_self
  have hsame : [] = [Value.bool true] := hview.sameAt 2 (.array 0) hbehind
  cases hsame

/-- The copy of an array that holds itself ends with the array itself. -/
example : let heap := { empty with arrays := #[[.array 0]] }
    (heap.copy (.array 0)).1 = .array 65 ∧ (heap.copy (.array 0)).2.items 1 = [.array 0] :=
  ⟨rfl, rfl⟩

end Heap

end DecimalScript
