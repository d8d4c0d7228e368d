import Mathlib.Data.List.Induction
import DecimalScript.Value.Entries

/-!
# The history of a map

What a map holds after a sequence of writes, said of the writes alone: which keys there are and in
which order (`keysOf`), and what each of them was last given (`lastWritten?`). A key that is written
while it is there keeps its place, a new one comes last, and so does one that comes back after it was
deleted; a key that goes leaves the others in their order.

The entries that come from the writes by insertion and removal, one after the other, are these
(`keys_ofWrites`, `get?_ofWrites`).
-/

namespace DecimalScript

variable {α : Type}

/-- A change of a map: a key gets a value, or it goes. -/
inductive KeyWrite (α : Type) where
  | put (key : String) (value : α)
  | drop (key : String)

namespace KeyWrite

/-- The key that is written. -/
def key : KeyWrite α → String
  | put key _ | drop key => key

/-- What the key is given; nothing if it goes. -/
def value? : KeyWrite α → Option α
  | put _ value => some value
  | drop _ => none

/-- The keys after the write, for those before. -/
def keysAfter (keys : List String) : KeyWrite α → List String
  | put key _ => if key ∈ keys then keys else keys ++ [key]
  | drop key => keys.filter fun other => other ≠ key

/-- The entries after the write. -/
def apply (entries : Entries α) : KeyWrite α → Entries α
  | put key value => entries.insert key value
  | drop key => entries.erase key

theorem keys_apply (entries : Entries α) (write : KeyWrite α) :
    (apply entries write).keys = keysAfter entries.keys write := by
  cases write with
  | put key value => exact entries.keys_insert key value
  | drop key => exact entries.keys_erase key

theorem get?_apply (entries : Entries α) (write : KeyWrite α) (key : String) :
    (apply entries write).get? key = if write.key = key then write.value? else entries.get? key := by
  simp only [eq_comm (a := write.key)]
  cases write with
  | put other value => exact entries.get?_insert other key value
  | drop other => exact entries.get?_erase other key

end KeyWrite

/-- The keys that the writes leave, in order. -/
def keysOf (writes : List (KeyWrite α)) : List String :=
  writes.foldl KeyWrite.keysAfter []

/-- The value that a key was last given; nothing if it was never written or went. -/
def lastWritten? (writes : List (KeyWrite α)) (key : String) : Option α :=
  (writes.reverse.find? fun write => write.key = key).bind KeyWrite.value?

theorem lastWritten?_concat (writes : List (KeyWrite α)) (write : KeyWrite α) (key : String) :
    lastWritten? (writes ++ [write]) key =
      if write.key = key then write.value? else lastWritten? writes key := by
  rw [lastWritten?, List.reverse_concat, List.find?_cons]
  by_cases h : write.key = key <;> simp [h, lastWritten?]

namespace Entries

/-- The entries that the writes leave, from none. -/
def ofWrites (writes : List (KeyWrite α)) : Entries α :=
  writes.foldl KeyWrite.apply .empty

theorem ofWrites_append (writes more : List (KeyWrite α)) :
    ofWrites (writes ++ more) = more.foldl KeyWrite.apply (ofWrites writes) :=
  List.foldl_append

theorem keys_ofWrites (writes : List (KeyWrite α)) : (ofWrites writes).keys = keysOf writes := by
  -- the writes are taken off from the end, where the last one has been applied to all others
  induction writes using List.reverseRecOn with
  | nil => rfl
  | append_singleton writes write ih =>
    rw [ofWrites_append, List.foldl_cons, List.foldl_nil, KeyWrite.keys_apply, ih, keysOf, keysOf,
      List.foldl_append]
    rfl

/-- The value under a key is the one that was written last. -/
theorem get?_ofWrites (writes : List (KeyWrite α)) (key : String) :
    (ofWrites writes).get? key = lastWritten? writes key := by
  induction writes using List.reverseRecOn with
  | nil => rfl
  | append_singleton writes write ih =>
    rw [ofWrites_append, List.foldl_cons, List.foldl_nil, KeyWrite.get?_apply, ih,
      lastWritten?_concat]

/-- A list of pairs is written from its beginning. -/
theorem ofList_eq_ofWrites (pairs : List (String × α)) :
    ofList pairs = ofWrites (pairs.map fun pair => .put pair.1 pair.2) := by
  rw [ofList, ofWrites, List.foldl_map]
  rfl

end Entries

end DecimalScript
