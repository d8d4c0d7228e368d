import Mathlib.Tactic.Ring
import Mathlib.Tactic.Linarith
import DecimalScript.Decimal.Quotient

/-!
# Digits and trailing zeros of naturals

The two measures of a coefficient on which the forms, the order and the canonical form of decimals
rest. `digitCount n` is tied to the powers of ten around `n` (`digitCount_le_iff`,
`lt_digitCount_iff`), and `trailingZeros n` is the one exponent for which `n` splits into a power of
ten and a cofactor that ten does not divide (`trailingZeros_eq`, `stripZeros_eq`).
-/

namespace DecimalScript.Decimal

theorem pow10_eq (n : Nat) : pow10 n = 10 ^ n := rfl

/-! ### The number of digits -/

theorem digitCount_pos (n : Nat) : 0 < digitCount n := Nat.length_toDigits_pos

theorem digitCount_le_iff {n k : Nat} (hk : 0 < k) : digitCount n ≤ k ↔ n < 10 ^ k :=
  Nat.length_toDigits_le_iff (by decide) hk

/-- A positive number has more than `k` digits from `10 ^ k` on. -/
theorem lt_digitCount_iff {n k : Nat} (hn : 0 < n) : k < digitCount n ↔ 10 ^ k ≤ n := by
  cases k with
  | zero =>
    rw [pow_zero]
    exact ⟨fun _ => hn, fun _ => digitCount_pos n⟩
  | succ k =>
    rw [← Nat.not_le, digitCount_le_iff (Nat.succ_pos k), Nat.not_lt]

theorem lt_pow_digitCount (n : Nat) : n < 10 ^ digitCount n :=
  (digitCount_le_iff (digitCount_pos n)).1 le_rfl

theorem pow_pred_digitCount_le {n : Nat} (hn : 0 < n) : 10 ^ (digitCount n - 1) ≤ n :=
  (lt_digitCount_iff hn).1 (Nat.sub_lt (digitCount_pos n) Nat.one_pos)

theorem digitCount_eq {n k : Nat} (hlow : 10 ^ k ≤ n) (hhigh : n < 10 ^ (k + 1)) :
    digitCount n = k + 1 := by
  have hn : 0 < n := lt_of_lt_of_le (Nat.pow_pos (by decide)) hlow
  have hle : digitCount n ≤ k + 1 := (digitCount_le_iff (Nat.succ_pos k)).2 hhigh
  have hlt : k < digitCount n := (lt_digitCount_iff hn).2 hlow
  omega

/-- Each zero that is written after a positive number is one more digit. -/
theorem digitCount_mul_pow {n : Nat} (hn : 0 < n) (k : Nat) :
    digitCount (n * 10 ^ k) = digitCount n + k := by
  -- all digits but the first, then the zeros, then the first
  have hsplit : digitCount n - 1 + k + 1 = digitCount n + k := by
    have := digitCount_pos n
    omega
  rw [← hsplit]
  refine digitCount_eq ?_ ?_
  · rw [pow_add]
    exact Nat.mul_le_mul_right _ (pow_pred_digitCount_le hn)
  · rw [hsplit, pow_add]
    exact Nat.mul_lt_mul_of_pos_right (lt_pow_digitCount n) (Nat.pow_pos (by decide))

/-! ### Trailing zeros -/

theorem trailingZeros_of_not_dvd {n : Nat} (h : ¬10 ∣ n) : trailingZeros n = 0 := by
  rw [trailingZeros, if_neg]
  exact fun hn => h (Nat.dvd_of_mod_eq_zero hn.2)

theorem trailingZeros_mul_ten {n : Nat} (hn : n ≠ 0) :
    trailingZeros (n * 10) = trailingZeros n + 1 := by
  rw [trailingZeros, if_pos ⟨by omega, by omega⟩, Nat.mul_div_cancel _ (by decide)]

theorem trailingZeros_mul_pow {n : Nat} (hn : n ≠ 0) (k : Nat) :
    trailingZeros (n * 10 ^ k) = trailingZeros n + k := by
  -- on the zeros, one factor of ten at a time
  induction k with
  | zero => simp
  | succ k ih =>
    have hne : n * 10 ^ k ≠ 0 := Nat.mul_ne_zero hn (Nat.pow_pos (by decide)).ne'
    rw [pow_succ, ← mul_assoc, trailingZeros_mul_ten hne, ih, add_assoc]

/-- The exponent of ten in a number of which the cofactor is given. -/
theorem trailingZeros_eq {n c k : Nat} (hc : ¬10 ∣ c) (hn : n = c * 10 ^ k) :
    trailingZeros n = k := by
  have hne : c ≠ 0 := by
    rintro rfl
    exact hc (dvd_zero 10)
  rw [hn, trailingZeros_mul_pow hne, trailingZeros_of_not_dvd hc, zero_add]

theorem exists_eq_mul_pow {n : Nat} (hn : n ≠ 0) : ∃ c k, ¬10 ∣ c ∧ n = c * 10 ^ k := by
  -- on the number: a tenth of it, if there is one, has the same cofactor
  induction n using Nat.strongRecOn with
  | ind n ih =>
    by_cases hdvd : 10 ∣ n
    · obtain ⟨m, rfl⟩ := hdvd
      obtain ⟨c, k, hc, hm⟩ := ih m (by omega) (by omega)
      refine ⟨c, k + 1, hc, ?_⟩
      conv_lhs => rw [hm]
      ring
    · exact ⟨n, 0, hdvd, by simp⟩

theorem stripZeros_eq {n c k : Nat} (hc : ¬10 ∣ c) (hn : n = c * 10 ^ k) : stripZeros n = c := by
  rw [stripZeros, trailingZeros_eq hc hn, pow10_eq, hn,
    Nat.mul_div_cancel _ (Nat.pow_pos (by decide))]

theorem not_dvd_stripZeros {n : Nat} (hn : n ≠ 0) : ¬10 ∣ stripZeros n := by
  obtain ⟨c, k, hc, hck⟩ := exists_eq_mul_pow hn
  rwa [stripZeros_eq hc hck]

/-- A number is what is left of it without its trailing zeros, with the zeros written again. -/
theorem stripZeros_mul_pow (n : Nat) : stripZeros n * 10 ^ trailingZeros n = n := by
  -- zero has no trailing zeros here, and nothing is left of it either way
  rcases eq_or_ne n 0 with rfl | hn
  · simp [stripZeros]
  · obtain ⟨c, k, hc, hck⟩ := exists_eq_mul_pow hn
    rw [stripZeros_eq hc hck, trailingZeros_eq hc hck, ← hck]

theorem stripZeros_ne_zero {n : Nat} (hn : n ≠ 0) : stripZeros n ≠ 0 := fun h =>
  not_dvd_stripZeros hn (h ▸ dvd_zero 10)

/-- The digits of a number are those that are left without its trailing zeros, and the zeros. -/
theorem digitCount_eq_add_trailingZeros {n : Nat} (hn : n ≠ 0) :
    digitCount n = digitCount (stripZeros n) + trailingZeros n := by
  conv_lhs => rw [← stripZeros_mul_pow n]
  exact digitCount_mul_pow (Nat.pos_of_ne_zero (stripZeros_ne_zero hn)) _

end DecimalScript.Decimal
