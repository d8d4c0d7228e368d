import Mathlib.Data.List.Basic
import DecimalScript.Text.Quoted

/-!
# Quoted text can be read back

A quoted text shows where it ends: the only quotes between the two outer ones stand behind a
backslash, and each character is written so that none is the beginning of another
(`encodeChar_append_inj`). So a quoted text can be cut off from whatever stands behind it, and what
was quoted is known from it (`encode_append_inj`).
-/

namespace DecimalScript.Text

/-- A text without a character that ends it can be cut off from whatever such a character begins. -/
theorem append_inj_of_ends {ends : Char → Prop} {s s' rest rest' : List Char}
    (hs : ∀ c ∈ s, ¬ends c) (hs' : ∀ c ∈ s', ¬ends c) (hrest : ∀ c ∈ rest.head?, ends c)
    (hrest' : ∀ c ∈ rest'.head?, ends c) (h : s ++ rest = s' ++ rest') : s = s' ∧ rest = rest' := by
  -- on the first text; where one of the two ends, the other ends as well
  induction s generalizing s' with
  | nil =>
    cases s' with
    | nil => exact ⟨rfl, h⟩
    | cons c' s' =>
      rw [List.nil_append] at h
      exact absurd (hrest c' (by rw [h]; rfl)) (hs' c' List.mem_cons_self)
  | cons c s ih =>
    rw [List.forall_mem_cons] at hs
    cases s' with
    | nil =>
      rw [List.nil_append] at h
      exact absurd (hrest' c (by rw [← h]; rfl)) hs.1
    | cons c' s' =>
      rw [List.forall_mem_cons] at hs'
      rw [List.cons_append, List.cons_append, List.cons.injEq] at h
      obtain ⟨rfl, htail⟩ := h
      obtain ⟨rfl, hrests⟩ := ih hs.2 hs'.2 htail
      exact ⟨rfl, hrests⟩

end DecimalScript.Text

namespace DecimalScript.Text.Quoted

variable {c c' : Char} {s s' rest rest' : List Char}

/-! ### Code points in base sixteen -/

/-- The value of a lower-case hexadecimal digit. -/
def hexDigit (c : Char) : ℕ :=
  ['0', '1', '2', '3', '4', '5', '6', '7', '8', '9', 'a', 'b', 'c', 'd', 'e', 'f'].idxOf c

/-- The number that hexadecimal digits stand for. -/
def natOfHex (digits : List Char) : ℕ :=
  digits.foldl (fun n c => 16 * n + hexDigit c) 0

theorem hexDigit_digitChar : ∀ {k : ℕ}, k < 16 → hexDigit k.digitChar = k := by
  decide

theorem digitChar_ne_brace : ∀ {k : ℕ}, k < 16 → k.digitChar ≠ '\x7d' := by
  decide

theorem natOfHex_toDigits (n : ℕ) : natOfHex (Nat.toDigits 16 n) = n := by
  -- on the number, of which the last digit is cut off
  induction n using Nat.strongRecOn with
  | ind n ih =>
    by_cases hn : n < 16
    · rw [Nat.toDigits_of_lt_base hn]
      simp [natOfHex, hexDigit_digitChar hn]
    · -- the last digit stands behind those of a smaller number
      have hprefix := ih (n / 16) (by omega)
      rw [natOfHex] at hprefix
      rw [Nat.toDigits_of_base_le (by decide) (by omega), natOfHex, List.foldl_append, hprefix,
        List.foldl_cons, List.foldl_nil, hexDigit_digitChar (Nat.mod_lt _ (by decide)),
        Nat.div_add_mod]

theorem toDigits_hex_inj {n m : ℕ} (h : Nat.toDigits 16 n = Nat.toDigits 16 m) : n = m := by
  rw [← natOfHex_toDigits n, h, natOfHex_toDigits]

theorem ne_brace_of_mem_toDigits (n : ℕ) : ∀ c ∈ Nat.toDigits 16 n, ¬c = '\x7d' := by
  induction n using Nat.strongRecOn with
  | ind n ih =>
    by_cases hn : n < 16
    · rw [Nat.toDigits_of_lt_base hn, List.forall_mem_singleton]
      exact digitChar_ne_brace hn
    · rw [Nat.toDigits_of_base_le (by decide) (by omega), List.forall_mem_append,
        List.forall_mem_singleton]
      exact ⟨ih (n / 16) (by omega), digitChar_ne_brace (Nat.mod_lt _ (by decide))⟩

/-! ### Characters -/

/-- The characters that have an escape of two characters, with the letter that stands in it. -/
def letterEscapes : List (Char × Char) :=
  [('\x00', '0'), ('\t', 't'), ('\r', 'r'), ('\n', 'n'), ('\\', '\\'), ('"', '"')]

/-- The letter tells the character, and `u` is none of them. -/
theorem letterEscapes_inj : ∀ e ∈ letterEscapes, e.2 ≠ 'u' ∧ ∀ e' ∈ letterEscapes, e.2 = e'.2 →
    e.1 = e'.1 := by
  decide

/-- The three ways in which a character is written. -/
theorem encodeChar_cases (c : Char) :
    (∃ letter, (c, letter) ∈ letterEscapes ∧ encodeChar c = ['\\', letter]) ∨
      encodeChar c = escapeCodePoint c ∨ c ≠ '\\' ∧ c ≠ '"' ∧ encodeChar c = [c] := by
  unfold encodeChar
  -- one case for each character that has an escape of its own, and two for the others
  split
  · exact .inl ⟨'0', by decide, rfl⟩
  · exact .inl ⟨'t', by decide, rfl⟩
  · exact .inl ⟨'r', by decide, rfl⟩
  · exact .inl ⟨'n', by decide, rfl⟩
  · exact .inl ⟨'\\', by decide, rfl⟩
  · exact .inl ⟨'"', by decide, rfl⟩
  · next hbackslash hquote =>
    split
    · exact .inr (.inl rfl)
    · exact .inr (.inr ⟨hbackslash, hquote, rfl⟩)

theorem escapeCodePoint_append (c : Char) (rest : List Char) :
    escapeCodePoint c ++ rest =
      '\\' :: 'u' :: '\x7b' :: (Nat.toDigits 16 c.toNat ++ '\x7d' :: rest) := by
  simp [escapeCodePoint]

theorem escapeCodePoint_append_inj
    (h : escapeCodePoint c ++ rest = escapeCodePoint c' ++ rest') : c = c' ∧ rest = rest' := by
  simp only [escapeCodePoint_append, List.cons.injEq, true_and] at h
  -- the brace ends the digits, since it is none
  have hcut := append_inj_of_ends (ne_brace_of_mem_toDigits _) (ne_brace_of_mem_toDigits _)
    (by simp) (by simp) h
  exact ⟨Char.toNat_inj.1 (toDigits_hex_inj hcut.1), (List.cons.inj hcut.2).2⟩

/-- No character is written as the beginning of another. -/
theorem encodeChar_append_inj (h : encodeChar c ++ rest = encodeChar c' ++ rest') :
    c = c' ∧ rest = rest' := by
  -- three ways to write each of the two characters: all but the equal ones differ in their first
  -- characters
  obtain ⟨letter, hmem, heq⟩ | heq | ⟨hbackslash, -, heq⟩ := encodeChar_cases c
  · obtain ⟨letter', hmem', heq'⟩ | heq' | ⟨hbackslash', -, heq'⟩ := encodeChar_cases c'
    · rw [heq, heq'] at h
      simp only [List.cons_append, List.cons.injEq, true_and, List.nil_append] at h
      exact ⟨(letterEscapes_inj _ hmem).2 _ hmem' h.1, h.2⟩
    · rw [heq, heq', escapeCodePoint_append] at h
      simp only [List.cons_append, List.cons.injEq, true_and, List.nil_append] at h
      exact absurd h.1 (letterEscapes_inj _ hmem).1
    · rw [heq, heq'] at h
      exact absurd (List.cons.inj h).1.symm hbackslash'
  · obtain ⟨letter', hmem', heq'⟩ | heq' | ⟨hbackslash', -, heq'⟩ := encodeChar_cases c'
    · rw [heq, heq', escapeCodePoint_append] at h
      simp only [List.cons_append, List.cons.injEq, true_and, List.nil_append] at h
      exact absurd h.1.symm (letterEscapes_inj _ hmem').1
    · rw [heq, heq'] at h
      exact escapeCodePoint_append_inj h
    · rw [heq, heq', escapeCodePoint_append] at h
      exact absurd (List.cons.inj h).1.symm hbackslash'
  · obtain ⟨letter', hmem', heq'⟩ | heq' | ⟨-, -, heq'⟩ := encodeChar_cases c'
    · rw [heq, heq'] at h
      exact absurd (List.cons.inj h).1 hbackslash
    · rw [heq, heq', escapeCodePoint_append] at h
      exact absurd (List.cons.inj h).1 hbackslash
    · rw [heq, heq'] at h
      exact List.cons.inj h

/-- What is written for a character does not begin with a quote. -/
theorem encodeChar_append_ne_quote_cons : encodeChar c ++ rest ≠ '"' :: rest' := by
  intro h
  -- no character is written with a bare quote
  obtain ⟨letter, -, heq⟩ | heq | ⟨-, hquote, heq⟩ := encodeChar_cases c
  · rw [heq] at h
    exact absurd (List.cons.inj h).1 (by decide)
  · rw [heq, escapeCodePoint_append] at h
    exact absurd (List.cons.inj h).1 (by decide)
  · rw [heq] at h
    exact hquote (List.cons.inj h).1

/-! ### Texts -/

theorem flatMap_encodeChar_append_inj
    (h : s.flatMap encodeChar ++ '"' :: rest = s'.flatMap encodeChar ++ '"' :: rest') :
    s = s' ∧ rest = rest' := by
  -- on the first text; a closing quote is not the beginning of a character
  induction s generalizing s' with
  | nil =>
    cases s' with
    | nil => exact ⟨rfl, (List.cons.inj h).2⟩
    | cons c' s' =>
      rw [List.flatMap_cons, List.append_assoc] at h
      exact absurd h.symm encodeChar_append_ne_quote_cons
  | cons c s ih =>
    cases s' with
    | nil =>
      rw [List.flatMap_cons, List.append_assoc] at h
      exact absurd h encodeChar_append_ne_quote_cons
    | cons c' s' =>
      rw [List.flatMap_cons, List.flatMap_cons, List.append_assoc, List.append_assoc] at h
      obtain ⟨rfl, htail⟩ := encodeChar_append_inj h
      obtain ⟨rfl, hrest⟩ := ih htail
      exact ⟨rfl, hrest⟩

/-- A quoted text tells what was quoted and where it ends. -/
theorem encode_append_inj (h : encode s ++ rest = encode s' ++ rest') : s = s' ∧ rest = rest' := by
  simp only [encode, List.cons_append, List.append_assoc, List.cons.injEq, true_and,
    List.nil_append] at h
  exact flatMap_encodeChar_append_inj h

end DecimalScript.Text.Quoted
