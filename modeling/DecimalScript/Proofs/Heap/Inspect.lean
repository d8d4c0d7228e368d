import DecimalScript.Heap.Inspect
import DecimalScript.Proofs.Decimal.SameText
import DecimalScript.Proofs.Heap.Paths
import DecimalScript.Proofs.Text.Quoted

/-!
# What the form for inspection tells

A value is data if only null, booleans, strings, decimals, arrays and maps are reached from it
(`Heap.IsData`). If it is also written in full, so that no dots stand for a part of it, then its form
for inspection tells what it is, but for the digits that a decimal's text does not show
(`Heap.SameForm`), and forms of different values are different.

That is the unique readability of the form. Each part begins with a character that tells its kind
and that no part is ended by (`exists_inspectWithin_eq_cons`), and it ends where the text of its kind
ends: a string at its closing quote, a decimal at the first character that is none of a decimal's, a
container at the bracket behind its last part (`commaSeparated_append_inj`). The induction is on the
depth; the text that stands behind a part is carried along, since that is what the text of a part
could run into.

Main result: `inspect_eq_inspect_iff`.
-/

namespace DecimalScript

/-- The value is neither a function nor an instance. -/
def Value.IsPlain : Value → Prop
  | .func _ | .object _ => False
  | _ => True

namespace Heap

/-- Everything that is reached from the value is plain, and nothing stands deeper than the depth. -/
def IsData (heap : Heap) (depth : ℕ) (v : Value) : Prop :=
  ∀ n u, Reaches heap.parts v n u → n ≤ depth ∧ u.IsPlain

/-- The values have one shape, with equal strings, equal keys in the same order, and decimals of one
text at the same places. -/
inductive SameForm (heap heap' : Heap) : Value → Value → Prop where
  | null : SameForm heap heap' .null .null
  | bool (b : Bool) : SameForm heap heap' (.bool b) (.bool b)
  | str (text : String) : SameForm heap heap' (.str text) (.str text)
  | dec {d d' : Decimal} (htext : d.text = d'.text) : SameForm heap heap' (.dec d) (.dec d')
  | array {addr addr' : ℕ}
    (hitems : List.Forall₂ (SameForm heap heap') (heap.items addr) (heap'.items addr')) :
    SameForm heap heap' (.array addr) (.array addr')
  | map {addr addr' : ℕ} (hkeys : (heap.entries addr).keys = (heap'.entries addr').keys)
    (hvalues : List.Forall₂ (SameForm heap heap') (heap.entries addr).values
      (heap'.entries addr').values) :
    SameForm heap heap' (.map addr) (.map addr')

variable {heap heap' : Heap} {v w : Value} {depth : ℕ} {rest rest' : List Char}

theorem IsData.isPlain (h : heap.IsData depth v) : v.IsPlain :=
  (h 0 v .self).2

theorem reaches_of_mem_parts {n : ℕ} {u : Value} (hw : w ∈ heap.parts v)
    (hu : Reaches heap.parts w n u) : Reaches heap.parts v (n + 1) u := by
  induction hu with
  | self => exact .step .self hw
  | step _ hmem ih => exact .step ih hmem

/-- At the depth where the parts end there are none. -/
theorem IsData.parts_eq_nil (h : heap.IsData 0 v) : heap.parts v = [] := by
  rw [List.eq_nil_iff_forall_not_mem]
  intro w hw
  exact absurd (h 1 w (reaches_of_mem_parts hw .self)).1 (by decide)

theorem IsData.of_mem_parts (h : heap.IsData (depth + 1) v) (hw : w ∈ heap.parts v) :
    heap.IsData depth w := by
  intro n u hu
  obtain ⟨hn, hplain⟩ := h (n + 1) u (reaches_of_mem_parts hw hu)
  exact ⟨Nat.le_of_succ_le_succ hn, hplain⟩

theorem isData_of_parts (hv : v.IsPlain) (hparts : ∀ w ∈ heap.parts v, heap.IsData depth w) :
    heap.IsData (depth + 1) v := by
  intro n u hu
  obtain ⟨rfl, rfl⟩ | ⟨m, rfl, w, hw, hwu⟩ := hu.self_or_exists
  · exact ⟨Nat.zero_le _, hv⟩
  · exact ⟨Nat.succ_le_succ (hparts w hw m u hwu).1, (hparts w hw m u hwu).2⟩

/-! ### How each kind of value is written -/

section Kinds

variable (heap : Heap) (levels : ℕ)

/-- How an entry of a map is written, down to the given number of levels. -/
def inspectEntry (entry : String × Value) : List Char :=
  Text.Quoted.encode entry.1.toList ++ ([':', ' '] ++ heap.inspectWithin levels entry.2)

theorem inspectWithin_null : heap.inspectWithin (levels + 1) .null = ['n', 'u', 'l', 'l'] := rfl

theorem inspectWithin_bool (b : Bool) : heap.inspectWithin (levels + 1) (.bool b) =
    if b then ['t', 'r', 'u', 'e'] else ['f', 'a', 'l', 's', 'e'] := by
  cases b <;> rfl

theorem inspectWithin_str (text : String) :
    heap.inspectWithin (levels + 1) (.str text) = Text.Quoted.encode text.toList := rfl

theorem inspectWithin_dec (d : Decimal) : heap.inspectWithin (levels + 1) (.dec d) = d.chars := rfl

theorem inspectWithin_array (addr : ℕ) : heap.inspectWithin (levels + 1) (.array addr) =
    '[' :: (commaSeparated ((heap.items addr).map (heap.inspectWithin levels)) ++ [']']) := rfl

theorem inspectWithin_map (addr : ℕ) : heap.inspectWithin (levels + 1) (.map addr) =
    '\x7b' :: (commaSeparated ((heap.entries addr).toList.map (heap.inspectEntry levels)) ++
      ['\x7d']) := by
  have hentry : heap.inspectEntry levels = fun entry =>
      Text.Quoted.encode entry.1.toList ++ [':', ' '] ++ heap.inspectWithin levels entry.2 := by
    funext entry
    rw [inspectEntry, List.append_assoc]
  rw [hentry]
  rfl

end Kinds

/-! ### How a part begins and what ends it -/

/-- A character that stands behind a part of a container. -/
def EndsPart (c : Char) : Prop := c ∈ [',', ']', '\x7d']

instance : DecidablePred EndsPart := fun c => inferInstanceAs (Decidable (c ∈ [',', ']', '\x7d']))

/-- The kind of value whose form begins with the character. -/
def kindOf (c : Char) : String :=
  if c = 'n' then "null"
  else if c ∈ ['t', 'f'] then "bool"
  else if c = '"' then "string"
  else if c = '[' then "array"
  else if c = '\x7b' then "hashmap"
  else "decimal"

/-- The characters that end a part or begin one of another kind are none of a decimal's. -/
theorem not_isWritten_of_mem {c : Char}
    (h : c ∈ ['n', 't', 'f', '"', '[', '\x7b', ',', ']', '\x7d']) : ¬Decimal.IsWritten c := by
  have hall : ['n', 't', 'f', '"', '[', '\x7b', ',', ']', '\x7d'].all
      (fun c => !(c.isDigit || ['-', '.', '*', '^'].contains c)) = true := by decide
  simpa [Decimal.IsWritten] using List.all_eq_true.1 hall c h

theorem not_endsPart_of_isWritten {c : Char} (hc : Decimal.IsWritten c) : ¬EndsPart c := by
  intro hends
  refine not_isWritten_of_mem ?_ hc
  exact List.mem_append_right ['n', 't', 'f', '"', '[', '\x7b'] hends

theorem kindOf_of_isWritten {c : Char} (hc : Decimal.IsWritten c) : kindOf c = "decimal" := by
  have hne : ∀ other ∈ ['n', 't', 'f', '"', '[', '\x7b'], c ≠ other := by
    rintro other hmem rfl
    exact not_isWritten_of_mem (List.mem_append_left [',', ']', '\x7d'] hmem) hc
  simp only [List.forall_mem_cons] at hne
  obtain ⟨hn, ht, hf, hquote, hbracket, hbrace, -⟩ := hne
  simp [kindOf, hn, ht, hf, hquote, hbracket, hbrace]

/-- The first character of a value's form tells its kind. -/
theorem exists_inspectWithin_eq_cons (heap : Heap) (levels : ℕ) (hv : v.IsPlain) :
    ∃ c tail, heap.inspectWithin (levels + 1) v = c :: tail ∧ ¬EndsPart c ∧
      kindOf c = v.typeName := by
  -- one character tells the kind: a quote, a bracket, a brace, a letter, or else a digit or sign
  cases v with
  | null => exact ⟨'n', _, rfl, by decide, rfl⟩
  | bool b =>
    cases b with
    | true => exact ⟨'t', _, rfl, by decide, rfl⟩
    | false => exact ⟨'f', _, rfl, by decide, rfl⟩
  | str text => exact ⟨'"', _, rfl, by decide, rfl⟩
  | dec d =>
    obtain ⟨c, tail, hchars⟩ := List.exists_cons_of_ne_nil d.chars_ne_nil
    have hc : Decimal.IsWritten c := d.isWritten_chars c (by rw [hchars]; exact List.mem_cons_self)
    exact ⟨c, tail, hchars, not_endsPart_of_isWritten hc, kindOf_of_isWritten hc⟩
  | array addr => exact ⟨'[', _, rfl, by decide, rfl⟩
  | map addr => exact ⟨'\x7b', _, rfl, by decide, rfl⟩
  | func f => exact hv.elim
  | object addr => exact hv.elim

theorem typeName_eq_of_inspectWithin {levels : ℕ} (hv : v.IsPlain) (hw : w.IsPlain)
    (h : heap.inspectWithin (levels + 1) v ++ rest = heap'.inspectWithin (levels + 1) w ++ rest') :
    v.typeName = w.typeName := by
  obtain ⟨c, tail, hc, -, hkind⟩ := exists_inspectWithin_eq_cons heap levels hv
  obtain ⟨c', tail', hc', -, hkind'⟩ := exists_inspectWithin_eq_cons heap' levels hw
  rw [hc, hc', List.cons_append, List.cons_append, List.cons.injEq] at h
  rw [← hkind, ← hkind', h.1]

/-! ### Lists of parts -/

/-- The parts with a comma and a blank before each. -/
def commaBefore (parts : List (List Char)) : List Char :=
  parts.flatMap ([',', ' '] ++ ·)

theorem commaSeparated_cons (part : List Char) (parts : List (List Char)) :
    commaSeparated (part :: parts) = part ++ commaBefore parts := by
  -- on the parts: after the first one a comma stands before each
  induction parts generalizing part with
  | nil => simp [commaSeparated, commaBefore, List.intercalate]
  | cons next parts ih =>
    have hnext : commaSeparated (part :: next :: parts) =
        part ++ ([',', ' '] ++ commaSeparated (next :: parts)) := by
      simp [commaSeparated, List.intercalate]
    rw [hnext, ih next, commaBefore, commaBefore, List.flatMap_cons, List.append_assoc]

/-- A part is followed by the comma before the next one or by the closing bracket. -/
theorem endsPart_of_mem_head? {close : Char} (hclose : EndsPart close) (parts : List (List Char))
    (rest : List Char) : ∀ c ∈ (commaBefore parts ++ close :: rest).head?, EndsPart c := by
  intro c hc
  -- either nothing is left and the closing character follows, or a comma does
  cases parts with
  | nil =>
    obtain rfl : close = c := by simpa [commaBefore] using hc
    exact hclose
  | cons part parts =>
    obtain rfl : ',' = c := by simpa [commaBefore] using hc
    decide

section Parts

variable {α β : Type} {print : α → List Char} {print' : β → List Char} {R : α → β → Prop}
  {xs : List α} {ys : List β} {close : Char}

/-- What is printed for `x` and for `y` tells that they are related and where it ends, if it is
followed by a character that ends a part. -/
def PrintsApart (print : α → List Char) (print' : β → List Char) (R : α → β → Prop) (x : α)
    (y : β) : Prop :=
  ∀ rest rest' : List Char, (∀ c ∈ rest.head?, EndsPart c) → (∀ c ∈ rest'.head?, EndsPart c) →
    print x ++ rest = print' y ++ rest' → R x y ∧ rest = rest'

/-- What is printed does not begin with a character that ends a part. -/
def PrintsOpened (print : α → List Char) (x : α) : Prop :=
  ∃ c tail, print x = c :: tail ∧ ¬EndsPart c

theorem PrintsOpened.ne_cons {x : α} (hx : PrintsOpened print x) (hclose : EndsPart close) :
    print x ++ rest ≠ close :: rest' := by
  obtain ⟨c, tail, hprint, hc⟩ := hx
  rw [hprint]
  rintro h
  exact hc ((List.cons.inj h).1 ▸ hclose)

theorem commaBefore_append_inj (hprints : ∀ x ∈ xs, ∀ y ∈ ys, PrintsApart print print' R x y)
    (hclose : EndsPart close) (hcomma : close ≠ ',')
    (h : commaBefore (xs.map print) ++ close :: rest =
      commaBefore (ys.map print') ++ close :: rest') :
    List.Forall₂ R xs ys ∧ rest = rest' := by
  -- on the first list; the two texts have to end their lists at the same place
  induction xs generalizing ys with
  | nil =>
    cases ys with
    | nil => exact ⟨.nil, (List.cons.inj h).2⟩
    | cons y ys => exact absurd (List.cons.inj h).1 hcomma
  | cons x xs ih =>
    cases ys with
    | nil => exact absurd (List.cons.inj h).1.symm hcomma
    | cons y ys =>
      have hparts : print x ++ (commaBefore (xs.map print) ++ close :: rest) =
          print' y ++ (commaBefore (ys.map print') ++ close :: rest') := by
        simpa [commaBefore] using h
      obtain ⟨hxy, htail⟩ := hprints x List.mem_cons_self y List.mem_cons_self _ _
        (endsPart_of_mem_head? hclose _ rest) (endsPart_of_mem_head? hclose _ rest') hparts
      obtain ⟨hall, hrest⟩ := ih (fun x hx y hy =>
        hprints x (List.mem_cons_of_mem _ hx) y (List.mem_cons_of_mem _ hy)) htail
      exact ⟨.cons hxy hall, hrest⟩

/-- A list of parts ends at the closing bracket, and its parts can be told from it. -/
theorem commaSeparated_append_inj (hprints : ∀ x ∈ xs, ∀ y ∈ ys, PrintsApart print print' R x y)
    (hxs : ∀ x ∈ xs, PrintsOpened print x) (hys : ∀ y ∈ ys, PrintsOpened print' y)
    (hclose : EndsPart close) (hcomma : close ≠ ',')
    (h : commaSeparated (xs.map print) ++ close :: rest =
      commaSeparated (ys.map print') ++ close :: rest') :
    List.Forall₂ R xs ys ∧ rest = rest' := by
  -- an empty list begins with the closing character, and no printed part does
  cases xs with
  | nil =>
    cases ys with
    | nil => exact ⟨.nil, (List.cons.inj h).2⟩
    | cons y ys =>
      rw [List.map_cons, commaSeparated_cons, List.append_assoc] at h
      exact absurd h.symm ((hys y List.mem_cons_self).ne_cons hclose)
  | cons x xs =>
    rw [List.map_cons, commaSeparated_cons, List.append_assoc] at h
    cases ys with
    | nil => exact absurd h ((hxs x List.mem_cons_self).ne_cons hclose)
    | cons y ys =>
      rw [List.map_cons, commaSeparated_cons, List.append_assoc] at h
      obtain ⟨hxy, htail⟩ := hprints x List.mem_cons_self y List.mem_cons_self _ _
        (endsPart_of_mem_head? hclose _ rest) (endsPart_of_mem_head? hclose _ rest') h
      obtain ⟨hall, hrest⟩ := commaBefore_append_inj (fun x hx y hy =>
        hprints x (List.mem_cons_of_mem _ hx) y (List.mem_cons_of_mem _ hy)) hclose hcomma htail
      exact ⟨.cons hxy hall, hrest⟩

end Parts

/-! ### Values -/

/-- Related entries are equal keys and related values, place by place. -/
theorem forall₂_entries_iff {R : Value → Value → Prop} {pairs pairs' : List (String × Value)} :
    List.Forall₂ (fun entry entry' => entry.1 = entry'.1 ∧ R entry.2 entry'.2) pairs pairs' ↔
      pairs.map (·.1) = pairs'.map (·.1) ∧
        List.Forall₂ R (pairs.map (·.2)) (pairs'.map (·.2)) := by
  -- on the entries, side by side
  induction pairs generalizing pairs' with
  | nil => cases pairs' <;> simp
  | cons entry pairs ih =>
    cases pairs' with
    | nil => simp
    | cons entry' pairs' =>
      simp only [List.forall₂_cons, ih, List.map_cons, List.cons.injEq]
      tauto

theorem printsOpened_inspectEntry (heap : Heap) (levels : ℕ) (entry : String × Value) :
    PrintsOpened (heap.inspectEntry levels) entry :=
  ⟨'"', _, rfl, by decide⟩

/-- The key ends at its quote, and the value is what stands behind the colon. -/
theorem PrintsApart.entry {levels : ℕ} {entry entry' : String × Value}
    (h : PrintsApart (heap.inspectWithin levels) (heap'.inspectWithin levels)
      (SameForm heap heap') entry.2 entry'.2) :
    PrintsApart (heap.inspectEntry levels) (heap'.inspectEntry levels)
      (fun entry entry' => entry.1 = entry'.1 ∧ SameForm heap heap' entry.2 entry'.2)
      entry entry' := by
  intro rest rest' hrest hrest' hprint
  -- the key is quoted, so it ends before the value begins
  simp only [inspectEntry, List.append_assoc] at hprint
  obtain ⟨hkey, hvalue⟩ := Text.Quoted.encode_append_inj hprint
  obtain ⟨hform, hrests⟩ := h rest rest' hrest hrest' (List.append_cancel_left hvalue)
  exact ⟨⟨String.toList_inj.1 hkey, hform⟩, hrests⟩

/-- A value is told by its text if its parts are told by theirs. -/
theorem printsApart_of_parts {levels : ℕ} (hv : v.IsPlain) (hw : w.IsPlain)
    (hparts : ∀ u ∈ heap.parts v, ∀ u' ∈ heap'.parts w, PrintsApart (heap.inspectWithin levels)
      (heap'.inspectWithin levels) (SameForm heap heap') u u')
    (hopened : ∀ u ∈ heap.parts v, PrintsOpened (heap.inspectWithin levels) u)
    (hopened' : ∀ u' ∈ heap'.parts w, PrintsOpened (heap'.inspectWithin levels) u') :
    PrintsApart (heap.inspectWithin (levels + 1)) (heap'.inspectWithin (levels + 1))
      (SameForm heap heap') v w := by
  intro rest rest' hrest hrest' h
  -- the first character has told the kind already, so the two are of one kind
  have hkind := typeName_eq_of_inspectWithin hv hw h
  cases v <;> cases w <;> simp [Value.typeName] at hkind
  case null.null =>
    rw [inspectWithin_null, inspectWithin_null, List.append_cancel_left_eq] at h
    exact ⟨.null, h⟩
  case bool.bool b b' =>
    rw [inspectWithin_bool, inspectWithin_bool] at h
    cases b <;> cases b' <;> simp at h
    · exact ⟨.bool false, h⟩
    · exact ⟨.bool true, h⟩
  case str.str text text' =>
    rw [inspectWithin_str, inspectWithin_str] at h
    obtain ⟨htext, hrests⟩ := Text.Quoted.encode_append_inj h
    obtain rfl := String.toList_inj.1 htext
    exact ⟨.str text, hrests⟩
  case dec.dec d d' =>
    rw [inspectWithin_dec, inspectWithin_dec] at h
    -- a number ends where no written character follows
    have hends : ∀ d : Decimal, ∀ c ∈ d.chars, ¬EndsPart c := fun d c hc =>
      not_endsPart_of_isWritten (d.isWritten_chars c hc)
    obtain ⟨hchars, hrests⟩ := Text.append_inj_of_ends (hends d) (hends d') hrest hrest' h
    exact ⟨.dec (Decimal.text_eq_text_iff.2 hchars), hrests⟩
  case array.array addr addr' =>
    simp only [inspectWithin_array, List.append_assoc, List.cons_append, List.nil_append,
      List.cons.injEq, true_and] at h
    obtain ⟨hitems, hrests⟩ :=
      commaSeparated_append_inj hparts hopened hopened' (by decide) (by decide) h
    exact ⟨.array hitems, hrests⟩
  case map.map addr addr' =>
    simp only [inspectWithin_map, List.append_assoc, List.cons_append, List.nil_append,
      List.cons.injEq, true_and] at h
    -- an entry is printed apart when its value is
    have hentries : ∀ entry ∈ (heap.entries addr).toList,
        ∀ entry' ∈ (heap'.entries addr').toList, PrintsApart (heap.inspectEntry levels)
          (heap'.inspectEntry levels)
          (fun entry entry' => entry.1 = entry'.1 ∧ SameForm heap heap' entry.2 entry'.2)
          entry entry' := fun entry hentry entry' hentry' =>
      (hparts entry.2 (List.mem_map_of_mem hentry) entry'.2 (List.mem_map_of_mem hentry')).entry
    obtain ⟨hall, hrests⟩ := commaSeparated_append_inj hentries
      (fun entry _ => printsOpened_inspectEntry heap levels entry)
      (fun entry _ => printsOpened_inspectEntry heap' levels entry) (by decide) (by decide) h
    obtain ⟨hkeys, hvalues⟩ := forall₂_entries_iff.1 hall
    exact ⟨.map hkeys hvalues, hrests⟩
  case func.func => exact hv.elim
  case object.object => exact hv.elim

theorem printsOpened_of_isData (hv : heap.IsData depth v) :
    PrintsOpened (heap.inspectWithin (depth + 1)) v := by
  obtain ⟨c, tail, hprint, hc, -⟩ := exists_inspectWithin_eq_cons heap depth hv.isPlain
  exact ⟨c, tail, hprint, hc⟩

/-- Data that is written in full is told by its text, which shows where it ends. -/
theorem printsApart_of_isData (hv : heap.IsData depth v) (hw : heap'.IsData depth w) :
    PrintsApart (heap.inspectWithin (depth + 1)) (heap'.inspectWithin (depth + 1))
      (SameForm heap heap') v w := by
  -- on the depth: the parts lie one level deeper
  induction depth generalizing v w with
  | zero =>
    refine printsApart_of_parts hv.isPlain hw.isPlain ?_ ?_ ?_
    · simp [hv.parts_eq_nil]
    · simp [hv.parts_eq_nil]
    · simp [hw.parts_eq_nil]
  | succ depth ih =>
    exact printsApart_of_parts hv.isPlain hw.isPlain
      (fun u hu u' hu' => ih (hv.of_mem_parts hu) (hw.of_mem_parts hu'))
      (fun u hu => printsOpened_of_isData (hv.of_mem_parts hu))
      fun u' hu' => printsOpened_of_isData (hw.of_mem_parts hu')

theorem map_eq_map_of_forall₂ {α β γ : Type} {R : α → β → Prop} {f : α → γ} {g : β → γ}
    {xs : List α} {ys : List β} (h : List.Forall₂ R xs ys) (hR : ∀ x y, R x y → f x = g y) :
    xs.map f = ys.map g := by
  rw [← List.forall₂_eq_eq_eq, List.forall₂_map_left_iff, List.forall₂_map_right_iff]
  exact h.imp hR

/-- Values of one form are written alike, however many levels are written. -/
theorem SameForm.inspectWithin_eq (levels : ℕ) (h : SameForm heap heap' v w) :
    heap.inspectWithin levels v = heap'.inspectWithin levels w := by
  -- on the levels, which say how deep is printed
  induction levels generalizing v w with
  | zero => rfl
  | succ levels ih =>
    cases h with
    | null => rfl
    | bool b => rfl
    | str text => rfl
    | dec htext =>
      -- the text of the decimal is all that is printed of it
      exact Decimal.text_eq_text_iff.1 htext
    | array hitems =>
      rw [inspectWithin_array, inspectWithin_array,
        map_eq_map_of_forall₂ hitems fun _ _ hform => ih hform]
    | map hkeys hvalues =>
      rw [inspectWithin_map, inspectWithin_map,
        map_eq_map_of_forall₂ (forall₂_entries_iff.2 ⟨hkeys, hvalues⟩)]
      rintro entry entry' ⟨hkey, hform⟩
      rw [inspectEntry, inspectEntry, hkey, ih hform]

/-- **The form for inspection is unambiguous.** Two values that are written in full and are made of
null, booleans, strings, decimals, arrays and maps have one form for inspection just if they have one
shape, with equal strings and keys and decimals of one text. -/
theorem inspect_eq_inspect_iff (hv : heap.IsData 32 v) (hw : heap'.IsData 32 w) :
    heap.inspect v = heap'.inspect w ↔ SameForm heap heap' v w := by
  rw [inspect, inspect, String.ofList_inj]
  constructor
  · -- printed apart also means that nothing is left over, and here nothing follows
    intro h
    refine (printsApart_of_isData hv hw [] [] (by simp) (by simp) ?_).1
    rw [List.append_nil, List.append_nil]
    exact h
  · exact fun h => h.inspectWithin_eq inspectLevels

/-- Two arrays of a text that looks like the end of one and a map, with numbers that are written
alike. -/
def twins : Heap where
  arrays := #[[.str "\"]", .map 0], [.str "\"]", .map 1]]
  maps := #[Entries.empty.insert "1, " (.dec (.ofInt 1234567890123456789)),
    Entries.empty.insert "1, " (.dec (.ofInt 1234567890123456788))]
  instances := #[]
  functions := 0

/-- The two arrays have one form for inspection, so one shape; their numbers are not equal. -/
theorem sameForm_twins : twins.IsData 32 (.array 0) ∧ twins.IsData 32 (.array 1) ∧
    SameForm twins twins (.array 0) (.array 1) := by
  have hleaf : ∀ {u : Value} {depth : ℕ}, u.IsPlain → twins.parts u = [] →
      twins.IsData (depth + 1) u := by
    intro u depth hu hparts
    refine isData_of_parts hu ?_
    rw [hparts]
    exact List.forall_mem_nil _
  have hmap : ∀ n addr, twins.parts (.map addr) = [.dec (.ofInt n)] →
      twins.IsData 31 (.map addr) := by
    intro n addr hparts
    refine isData_of_parts trivial ?_
    rw [hparts]
    exact List.forall_mem_singleton.2 (hleaf trivial rfl)
  have harray : ∀ addr inner, twins.parts (.array addr) = [.str "\"]", .map inner] →
      twins.IsData 31 (.map inner) → twins.IsData 32 (.array addr) := by
    intro addr inner hparts hinner
    refine isData_of_parts trivial ?_
    rw [hparts]
    exact List.forall_mem_cons.2 ⟨hleaf trivial rfl, List.forall_mem_singleton.2 hinner⟩
  have hleft := harray 0 0 rfl (hmap 1234567890123456789 0 rfl)
  have hright := harray 1 1 rfl (hmap 1234567890123456788 1 rfl)
  exact ⟨hleft, hright, (inspect_eq_inspect_iff hleft hright).1 (by decide +kernel)⟩

end Heap

end DecimalScript
