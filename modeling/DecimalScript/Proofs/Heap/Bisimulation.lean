import Mathlib.Data.List.Forall2
import DecimalScript.Eval.Expr
import DecimalScript.Proofs.Decimal.Value

/-!
# Equality of values is bisimilarity

Arrays and maps may hold themselves, so equality of values cannot be defined by recursion on them.
It is bisimilarity: two values are bisimilar if some relation holds between them that is closed
under one look at the outermost level (`Alike`).

The search for a difference keeps the pairs of containers that it met and takes a pair that it meets
again for equal, also where it has long left that pair. What makes this sound is not that a pair is
still open, but that the search stops at the first difference: if it ends without one, every part of
every pair that it met has passed (`exists_passed_of_equalFrom`), and then the pairs that passed
form a bisimulation. Conversely it never finds a difference between bisimilar values, whatever it
has met before (`equalFrom_of_bisimilar`).

Main result: `equality_is_bisimilarity`.
-/

namespace DecimalScript.Heap

/-- Two values agree at their outermost level, and `R` holds between the parts in which they have to
agree further. Arrays agree position by position, and maps key by key, in whatever order; a key is
present in both maps or in none. -/
inductive Alike (heap : Heap) (R : Value → Value → Prop) : Value → Value → Prop where
  | null : Alike heap R .null .null
  | bool (b : Bool) : Alike heap R (.bool b) (.bool b)
  | str (text : String) : Alike heap R (.str text) (.str text)
  | dec {x y : Decimal} (h : x.toRat = y.toRat) : Alike heap R (.dec x) (.dec y)
  | array {a b : Nat} (h : List.Forall₂ R (heap.items a) (heap.items b)) :
    Alike heap R (.array a) (.array b)
  | map {a b : Nat}
    (h : ∀ key, Option.Rel R ((heap.entries a).get? key) ((heap.entries b).get? key)) :
    Alike heap R (.map a) (.map b)
  | func {f g : Closure} (h : f.id = g.id) : Alike heap R (.func f) (.func g)
  | object (addr : Nat) : Alike heap R (.object addr) (.object addr)

/-- A relation that only holds between values which agree at their outermost level, and between
whose parts it holds again. -/
def IsBisimulation (heap : Heap) (R : Value → Value → Prop) : Prop :=
  ∀ v w, R v w → heap.Alike R v w

/-- Two values are related by some bisimulation. -/
def Bisimilar (heap : Heap) (v w : Value) : Prop :=
  ∃ R, heap.IsBisimulation R ∧ R v w

variable {heap : Heap} {R S : Value → Value → Prop}

/-! ### Bisimilarity is an equivalence -/

theorem rel_mono {a b : Option Value} (hRS : ∀ v w, R v w → S v w) (h : Option.Rel R a b) :
    Option.Rel S a b := by
  cases h with
  | some h => exact .some (hRS _ _ h)
  | none => exact .none

theorem Alike.mono (hRS : ∀ v w, R v w → S v w) {v w : Value} (h : heap.Alike R v w) :
    heap.Alike S v w := by
  -- on the way in which the two are alike; only arrays and maps have parts
  cases h with
  | null => exact .null
  | bool b => exact .bool b
  | str text => exact .str text
  | dec h => exact .dec h
  | array h => exact .array (h.imp hRS)
  | map h => exact .map fun key => rel_mono hRS (h key)
  | func h => exact .func h
  | object addr => exact .object addr

theorem Alike.refl (hR : ∀ v, R v v) (v : Value) : heap.Alike R v v := by
  -- every value is alike to itself, part by part
  cases v with
  | null => exact .null
  | bool b => exact .bool b
  | str text => exact .str text
  | dec d => exact .dec rfl
  | array a => exact .array (List.forall₂_same.2 fun v _ => hR v)
  | map a =>
    refine .map fun key => ?_
    cases (heap.entries a).get? key with
    | none => exact .none
    | some v => exact .some (hR v)
  | func f => exact .func rfl
  | object addr => exact .object addr

theorem rel_flip {a b : Option Value} (h : Option.Rel R a b) : Option.Rel (flip R) b a := by
  cases h with
  | some h => exact .some h
  | none => exact .none

theorem Alike.symm {v w : Value} (h : heap.Alike R v w) : heap.Alike (flip R) w v := by
  cases h with
  | null => exact .null
  | bool b => exact .bool b
  | str text => exact .str text
  | dec h => exact .dec h.symm
  | array h => exact .array (List.Forall₂.flip h)
  | map h => exact .map fun key => rel_flip (h key)
  | func h => exact .func h.symm
  | object addr => exact .object addr

theorem forall₂_comp {us vs ws : List Value} (h₁ : List.Forall₂ R us vs)
    (h₂ : List.Forall₂ S vs ws) : List.Forall₂ (Relation.Comp R S) us ws := by
  -- on the first pair of lists, along which the second one runs
  induction h₁ generalizing ws with
  | nil =>
    cases h₂
    exact .nil
  | cons h _ ih =>
    cases h₂ with
    | cons h' hrest => exact .cons ⟨_, h, h'⟩ (ih hrest)

theorem rel_comp {a b c : Option Value} (h₁ : Option.Rel R a b) (h₂ : Option.Rel S b c) :
    Option.Rel (Relation.Comp R S) a c := by
  cases h₁ with
  | some h =>
    cases h₂ with
    | some h' => exact .some ⟨_, h, h'⟩
  | none =>
    cases h₂
    exact .none

theorem Alike.trans {u v w : Value} (h₁ : heap.Alike R u v) (h₂ : heap.Alike S v w) :
    heap.Alike (Relation.Comp R S) u w := by
  -- both ways have the kind of the value in the middle
  cases h₁ with
  | array h =>
    cases h₂ with
    | array h' => exact .array (forall₂_comp h h')
  | map h =>
    cases h₂ with
    | map h' => exact .map fun key => rel_comp (h key) (h' key)
  | dec h =>
    cases h₂ with
    | dec h' => exact .dec (h.trans h')
  | func h =>
    cases h₂ with
    | func h' => exact .func (h.trans h')
  | null =>
    cases h₂
    exact .null
  | bool b =>
    cases h₂
    exact .bool b
  | str text =>
    cases h₂
    exact .str text
  | object addr =>
    cases h₂
    exact .object addr

theorem bisimilar_equivalence (heap : Heap) : Equivalence heap.Bisimilar where
  refl v := by
    -- the identity is a bisimulation
    refine ⟨Eq, ?_, rfl⟩
    rintro v _ rfl
    exact Alike.refl (fun _ => rfl) v
  symm := by
    -- so is the converse of one
    rintro v w ⟨R, hR, h⟩
    exact ⟨flip R, fun w v h => (hR v w h).symm, h⟩
  trans := by
    -- and the composition of two
    rintro u v w ⟨R, hR, h₁⟩ ⟨S, hS, h₂⟩
    refine ⟨Relation.Comp R S, ?_, v, h₁, h₂⟩
    rintro u w ⟨v, h₁, h₂⟩
    exact (hR u v h₁).trans (hS v w h₂)

/-- The parts of bisimilar values are bisimilar. -/
theorem Bisimilar.alike {v w : Value} (h : heap.Bisimilar v w) : heap.Alike heap.Bisimilar v w := by
  obtain ⟨R, hR, h⟩ := h
  exact (hR v w h).mono fun _ _ h => ⟨R, hR, h⟩

/-! ### One look at two values -/

/-- What a verdict leaves to be shown: `R` between the parts. -/
def Verdict.Admits (R : Value → Value → Prop) : Verdict → Prop
  | .different => False
  | .alike => True
  | .alikeIf _ parts => ∀ part ∈ parts, R part.1 part.2

theorem exists_matchKeys?_iff {left : List (String × Value)} {right : Entries Value} :
    (∃ parts, matchKeys? left right = some parts ∧ ∀ part ∈ parts, R part.1 part.2) ↔
      ∀ entry ∈ left, ∃ w, right.get? entry.1 = some w ∧ R entry.2 w := by
  -- on the entries of the left map, each of which has to be found in the right one
  induction left with
  | nil => simp [matchKeys?]
  | cons entry rest ih =>
    rw [List.forall_mem_cons, ← ih]
    constructor
    · rintro ⟨parts, hmatch, hparts⟩
      simp only [matchKeys?, List.mapM_cons, Option.pure_def, Option.bind_eq_bind,
        Option.bind_eq_some_iff, Option.map_eq_some_iff, Option.some.injEq] at hmatch
      obtain ⟨_, ⟨w, hw, rfl⟩, restParts, hrest, rfl⟩ := hmatch
      rw [List.forall_mem_cons] at hparts
      exact ⟨⟨w, hw, hparts.1⟩, restParts, hrest, hparts.2⟩
    · rintro ⟨⟨w, hw, hR⟩, restParts, hrest, hparts⟩
      refine ⟨(entry.2, w) :: restParts, ?_, List.forall_mem_cons.2 ⟨hR, hparts⟩⟩
      rw [matchKeys?] at hrest
      simp [matchKeys?, hw, hrest]

/-- If every key of a map is present in another map of its size, no key of the other is left over.
-/
theorem get?_eq_none_of_subset {left right : Entries Value} (hsize : left.size = right.size)
    (hsub : left.keys ⊆ right.keys) {key : String} (h : left.get? key = none) :
    right.get? key = none := by
  -- distinct keys that are all among as many others are these others
  have hperm : left.keys.Perm right.keys := by
    refine (left.nodup_keys.subperm hsub).perm_of_length_le ?_
    simpa [Entries.keys, Entries.size] using hsize.ge
  rw [Entries.get?_eq_none_iff] at h ⊢
  rwa [← hperm.mem_iff]

/-- Two maps of one size agree key by key if and only if each key of the first is found in the
second, with values that agree. -/
theorem rel_get?_iff {left right : Entries Value} (hsize : left.size = right.size) :
    (∀ key, Option.Rel R (left.get? key) (right.get? key)) ↔
      ∃ parts, matchKeys? left.toList right = some parts ∧ ∀ part ∈ parts, R part.1 part.2 := by
  rw [exists_matchKeys?_iff]
  -- from left to right an entry of the left map has its partner, from right to left a key without
  -- one is missing in both
  constructor
  · intro h entry hentry
    have hrel := h entry.1
    rw [Entries.get?_eq_some_iff.2 hentry] at hrel
    generalize right.get? entry.1 = found at hrel ⊢
    cases hrel with
    | some hR => exact ⟨_, rfl, hR⟩
  · intro h key
    cases hkey : left.get? key with
    | some v =>
      obtain ⟨w, hw, hR⟩ := h (key, v) (Entries.get?_eq_some_iff.1 hkey)
      rw [hw]
      exact .some hR
    | none =>
      have hsub : left.keys ⊆ right.keys := by
        intro other hother
        obtain ⟨entry, hmem, rfl⟩ := List.mem_map.1 hother
        obtain ⟨w, hw, -⟩ := h entry hmem
        exact List.mem_map.2 ⟨_, Entries.get?_eq_some_iff.1 hw, rfl⟩
      rw [get?_eq_none_of_subset hsize hsub hkey]
      exact .none

/-- Maps that agree key by key are of one size. -/
theorem size_eq_of_rel {left right : Entries Value}
    (h : ∀ key, Option.Rel R (left.get? key) (right.get? key)) : left.size = right.size := by
  -- a key is in one map if and only if it is in the other, and keys are distinct
  have hkeys : ∀ key, key ∈ left.keys ↔ key ∈ right.keys := by
    intro key
    rw [← not_iff_not, ← Entries.get?_eq_none_iff, ← Entries.get?_eq_none_iff]
    have hrel := h key
    generalize left.get? key = found, right.get? key = found' at hrel ⊢
    cases hrel <;> simp
  have hperm : left.keys.Perm right.keys :=
    (List.perm_ext_iff_of_nodup left.nodup_keys right.nodup_keys).2 hkeys
  simpa [Entries.keys, Entries.size] using hperm.length_eq

theorem admits_of_alike {v w : Value} (h : heap.Alike R v w) : (heap.compareTop v w).Admits R := by
  -- each kind of value admits what makes it alike, and only arrays and maps leave parts over
  cases h with
  | null => trivial
  | bool b =>
    rw [compareTop, if_pos rfl]
    trivial
  | str text =>
    rw [compareTop, if_pos rfl]
    trivial
  | dec h =>
    rw [compareTop, if_pos (Decimal.equal_iff_toRat_eq.2 h)]
    trivial
  | array h =>
    rw [compareTop]
    split
    · -- one array: nothing is left to be shown
      trivial
    · rw [if_pos h.length_eq]
      exact fun part hpart => List.forall₂_zip h hpart
  | map h =>
    obtain ⟨parts, hmatch, hparts⟩ := (rel_get?_iff (size_eq_of_rel h)).1 h
    rw [compareTop]
    split
    · trivial
    · rw [if_pos (size_eq_of_rel h), hmatch]
      exact hparts
  | func h =>
    rw [compareTop, if_pos h]
    trivial
  | object addr =>
    rw [compareTop, if_pos rfl]
    trivial

/-- Of containers that are the same nothing is left to be shown, so `R` has to be reflexive. -/
theorem alike_of_admits (hR : ∀ v, R v v) {v w : Value} (h : (heap.compareTop v w).Admits R) :
    heap.Alike R v w := by
  -- values of different types are different
  cases v <;> cases w <;> try exact False.elim h
  case null.null => exact .null
  case bool.bool a b =>
    rw [compareTop] at h
    split at h
    · next heq => exact heq ▸ .bool a
    · exact False.elim h
  case str.str a b =>
    rw [compareTop] at h
    split at h
    · next heq => exact heq ▸ .str a
    · exact False.elim h
  case dec.dec a b =>
    rw [compareTop] at h
    split at h
    · next heq => exact .dec (Decimal.equal_iff_toRat_eq.1 heq)
    · exact False.elim h
  case func.func a b =>
    rw [compareTop] at h
    split at h
    · next heq => exact .func heq
    · exact False.elim h
  case object.object a b =>
    rw [compareTop] at h
    split at h
    · next heq => exact heq ▸ .object a
    · exact False.elim h
  case array.array a b =>
    -- the address decides, then the length, and then the elements
    rw [compareTop] at h
    split at h
    · next heq => exact heq ▸ Alike.refl hR (.array a)
    · split at h
      · next hlength => exact .array (List.forall₂_iff_zip.2 ⟨hlength, fun hpart => h _ hpart⟩)
      · exact False.elim h
  case map.map a b =>
    rw [compareTop] at h
    -- the address decides, then the number of entries, and then the values key by key
    split at h
    · next heq => exact heq ▸ Alike.refl hR (.map a)
    · split at h
      · next hsize =>
        split at h
        · next parts hmatch => exact .map ((rel_get?_iff hsize).2 ⟨parts, hmatch, h⟩)
        · exact False.elim h
      · exact False.elim h

theorem compareTop_self (heap : Heap) (v : Value) : heap.compareTop v v = .alike := by
  cases v with
  | dec d => exact if_pos (Decimal.equal_iff_toRat_eq.2 rfl)
  | null => rfl
  | bool b => exact if_pos rfl
  | str text => exact if_pos rfl
  | array a => exact if_pos rfl
  | map a => exact if_pos rfl
  | func f => exact if_pos rfl
  | object a => exact if_pos rfl

/-- The two containers of a pair as values. -/
def ContainerPair.values : ContainerPair → Value × Value
  | arrays a b => (.array a, .array b)
  | maps a b => (.map a, .map b)

/-- The pair that a verdict names is the pair of the values themselves. -/
theorem values_eq_of_compareTop {v w : Value} {pair : ContainerPair} {parts : List (Value × Value)}
    (h : heap.compareTop v w = .alikeIf pair parts) : pair.values = (v, w) := by
  obtain ⟨a, b, rfl, rfl, rfl, -⟩ | ⟨a, b, rfl, rfl, rfl, -⟩ := compareTop_eq_alikeIf h
  · rfl
  · rfl

/-- So a pair of containers has the same parts wherever it is met. -/
theorem parts_eq_of_compareTop {v w v' w' : Value} {pair : ContainerPair}
    {parts parts' : List (Value × Value)} (h : heap.compareTop v w = .alikeIf pair parts)
    (h' : heap.compareTop v' w' = .alikeIf pair parts') : parts = parts' := by
  -- the pair that is assumed names both addresses, so it names the values that were compared
  have hvalues : (v, w) = (v', w') :=
    (values_eq_of_compareTop h).symm.trans (values_eq_of_compareTop h')
  obtain ⟨rfl, rfl⟩ := Prod.mk.inj hvalues
  rw [h, Verdict.alikeIf.injEq] at h'
  exact h'.2

/-! ### The search -/

/-- Two values pass if a look at them finds nothing different and, unless they have no parts, the
pair of containers is among those met. -/
def Passed (heap : Heap) (met : List ContainerPair) (v w : Value) : Prop :=
  match heap.compareTop v w with
  | .different => False
  | .alike => True
  | .alikeIf pair parts => parts = [] ∨ pair ∈ met

/-- The parts of every pair among those met, but for the given ones, have passed. -/
def PartsPassed (heap : Heap) (old met : List ContainerPair) : Prop :=
  ∀ pair ∈ met, pair ∉ old → ∀ v w parts, heap.compareTop v w = .alikeIf pair parts →
    ∀ part ∈ parts, heap.Passed met part.1 part.2

/-- A search that ends without a difference has met, in the end, a set of pairs with which
everything that was pending has passed, and with it the parts of every pair that it met on the way.
-/
theorem exists_passed_of_equalFrom {met : List ContainerPair} {pending : List (Value × Value)}
    (h : heap.equalFrom met pending = true) :
    ∃ seen, met ⊆ seen ∧ (∀ part ∈ pending, heap.Passed seen part.1 part.2) ∧
      heap.PartsPassed met seen := by
  fun_induction equalFrom heap met pending with
  | case1 met =>
    exact ⟨met, List.Subset.refl met, by simp, fun pair hpair hold => absurd hpair hold⟩
  | case2 met v w pending hcompare => exact absurd h Bool.false_ne_true
  | case3 met v w pending hcompare ih =>
    obtain ⟨seen, hsub, hpending, hparts⟩ := ih h
    refine ⟨seen, hsub, List.forall_mem_cons.2 ⟨?_, hpending⟩, hparts⟩
    simp only [Passed, hcompare]
  | case4 met v w pending pair hcompare ih =>
    -- containers without parts: the pair is not even noted
    obtain ⟨seen, hsub, hpending, hparts⟩ := ih h
    refine ⟨seen, hsub, List.forall_mem_cons.2 ⟨?_, hpending⟩, hparts⟩
    simp only [Passed, hcompare, true_or]
  | case5 met v w pending pair part parts hcompare hmet ih =>
    -- met before: nothing is looked into, and the pair stays met
    obtain ⟨seen, hsub, hpending, hparts⟩ := ih h
    refine ⟨seen, hsub, List.forall_mem_cons.2 ⟨?_, hpending⟩, hparts⟩
    simp only [Passed, hcompare]
    exact .inr (hsub hmet)
  | case6 met v w pending pair part parts hcompare hnew ih =>
    obtain ⟨seen, hsub, hpending, hparts⟩ := ih h
    rw [List.cons_subset] at hsub
    rw [List.forall_mem_append] at hpending
    refine ⟨seen, hsub.2, List.forall_mem_cons.2 ⟨?_, hpending.2⟩, ?_⟩
    · simp only [Passed, hcompare]
      exact .inr hsub.1
    · intro pair' hpair' hold v' w' parts' hcompare'
      rcases eq_or_ne pair' pair with rfl | hne
      · -- the new pair: its parts were pending
        rw [← parts_eq_of_compareTop hcompare hcompare']
        exact hpending.1
      · have hother : pair' ∉ pair :: met := List.not_mem_cons_of_ne_of_not_mem hne hold
        exact hparts pair' hpair' hother v' w' parts' hcompare'

/-- Once the parts of every pair that was met have passed, what passes is a bisimulation. -/
theorem isBisimulation_passed {met : List ContainerPair} (h : heap.PartsPassed [] met) :
    heap.IsBisimulation (heap.Passed met) := by
  intro v w hvw
  have hrefl : ∀ v, heap.Passed met v v := by
    intro v
    simp only [Passed, compareTop_self]
  refine alike_of_admits hrefl ?_
  -- what passed was found alike, or its parts have passed in turn
  cases hcompare : heap.compareTop v w with
  | different =>
    rw [Passed, hcompare] at hvw
    exact hvw
  | alike => trivial
  | alikeIf pair parts =>
    rw [Passed, hcompare] at hvw
    intro part hpart
    rcases hvw with rfl | hmet
    · simp at hpart
    · exact h pair hmet List.not_mem_nil v w parts hcompare part hpart

/-- Between bisimilar values there is no difference to be found, whatever was met before. -/
theorem equalFrom_of_bisimilar {met : List ContainerPair} {pending : List (Value × Value)}
    (h : ∀ part ∈ pending, heap.Bisimilar part.1 part.2) : heap.equalFrom met pending = true := by
  fun_induction equalFrom heap met pending with
  | case1 met => rfl
  | case2 met v w pending hcompare =>
    -- bisimilar values are not different
    have hadmits := admits_of_alike (List.forall_mem_cons.1 h).1.alike
    rw [hcompare] at hadmits
    exact hadmits.elim
  | case3 met v w pending hcompare ih => exact ih (List.forall_mem_cons.1 h).2
  | case4 met v w pending pair hcompare ih => exact ih (List.forall_mem_cons.1 h).2
  | case5 met v w pending pair part parts hcompare hmet ih =>
    exact ih (List.forall_mem_cons.1 h).2
  | case6 met v w pending pair part parts hcompare hnew ih =>
    -- and neither are their parts, which are pending next
    obtain ⟨hhead, hpending⟩ := List.forall_mem_cons.1 h
    have hadmits := admits_of_alike hhead.alike
    rw [hcompare] at hadmits
    exact ih (List.forall_mem_append.2 ⟨hadmits, hpending⟩)

theorem equal_iff_bisimilar {v w : Value} : heap.equal v w = true ↔ heap.Bisimilar v w := by
  constructor
  · intro h
    obtain ⟨seen, -, hpending, hparts⟩ := exists_passed_of_equalFrom h
    exact ⟨heap.Passed seen, isBisimulation_passed hparts, hpending (v, w) List.mem_cons_self⟩
  · intro h
    exact equalFrom_of_bisimilar (List.forall_mem_cons.2 ⟨h, List.forall_mem_nil _⟩)

/-- **Main theorem.** The comparison for equality always gives an answer, which is `true` exactly
between bisimilar values, on every heap; and so equality is an equivalence. -/
theorem equality_is_bisimilarity (heap : Heap) :
    (∀ v w, ∃ answer, compareValues .eq v w heap = .ok answer ∧
      (answer = true ↔ heap.Bisimilar v w)) ∧
      Equivalence fun v w => compareValues .eq v w heap = .ok true := by
  refine ⟨fun v w => ⟨heap.equal v w, rfl, equal_iff_bisimilar⟩, ?_⟩
  -- from here on the relation is bisimilarity
  have hiff : ∀ v w, compareValues .eq v w heap = .ok true ↔ heap.Bisimilar v w := by
    intro v w
    rw [compareValues, Except.ok.injEq, equal_iff_bisimilar]
  simp only [hiff]
  exact bisimilar_equivalence heap

end DecimalScript.Heap
