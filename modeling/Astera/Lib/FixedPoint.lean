import Mathlib.Data.Nat.Log
import Mathlib.Tactic.Linarith
import Mathlib.Tactic.Ring

/-!
# Fixed-point powers

A fixed-point number is a number of units, of which `one` make 1; a product is rounded down.
`powLoop` raises to a power by squaring, and squares the base once more than it needs.

A power is at least what the linear terms give (`linear_le_powLoop`), and two consecutive powers
differ by the base up to one unit for each product (`powLoop_succ_ahead`).
-/

namespace FixedPoint

variable {one : ℕ}

/-- A product, rounded down. -/
def mul (one a b : ℕ) : ℕ := a * b / one

/-- `base` squared `k` times. -/
def squarings (one : ℕ) : ℕ → ℕ → ℕ
  | 0, base => base
  | k + 1, base => squarings one k (mul one base base)

/-- The loop of a power, with at most `fuel` turns. -/
def powLoop (one : ℕ) : ℕ → ℕ → ℕ → ℕ → ℕ
  | 0, _, _, result => result
  | fuel + 1, base, exp, result =>
    if exp = 0 then result
    else powLoop one fuel (mul one base base) (exp / 2)
      (if exp % 2 = 1 then mul one result base else result)

theorem one_mul (hone : 0 < one) (a : ℕ) : mul one one a = a := by
  unfold mul
  exact Nat.mul_div_cancel_left a hone

theorem mul_le_mul {a b c d : ℕ} (hac : a ≤ c) (hbd : b ≤ d) : mul one a b ≤ mul one c d :=
  Nat.div_le_div_right (Nat.mul_le_mul hac hbd)

/-- A factor of at least 1 does not lower a product. -/
theorem le_mul_self (hone : 0 < one) {a b : ℕ} (hb : one ≤ b) : a ≤ mul one a b := by
  unfold mul
  rw [Nat.le_div_iff_mul_le hone]
  exact Nat.mul_le_mul_left a hb

theorem linear_le_mul (hone : 0 < one) {a b m n r : ℕ} (ha : one + m * r ≤ a)
    (hb : one + n * r ≤ b) : one + (m + n) * r ≤ mul one a b := by
  unfold mul
  rw [Nat.le_div_iff_mul_le hone]
  calc (one + (m + n) * r) * one
      ≤ (one + (m + n) * r) * one + m * r * (n * r) := Nat.le_add_right _ _
    _ = (one + m * r) * (one + n * r) := by ring
    _ ≤ a * b := Nat.mul_le_mul ha hb

theorem squarings_succ (k base : ℕ) :
    squarings one (k + 1) base = mul one (squarings one k base) (squarings one k base) := by
  induction k generalizing base with
  | zero => rfl
  | succ k ih => exact ih (mul one base base)

theorem squarings_mono (k : ℕ) {base base' : ℕ} (hle : base ≤ base') :
    squarings one k base ≤ squarings one k base' := by
  induction k generalizing base base' with
  | zero => exact hle
  | succ k ih => exact ih (mul_le_mul hle hle)

theorem one_le_squarings (hone : 0 < one) (k : ℕ) {base : ℕ} (hbase : one ≤ base) :
    one ≤ squarings one k base := by
  induction k generalizing base with
  | zero => exact hbase
  | succ k ih => exact ih (hbase.trans (le_mul_self hone hbase))

theorem squarings_le_of_le (hone : 0 < one) {j k base : ℕ} (hbase : one ≤ base) (hjk : j ≤ k) :
    squarings one j base ≤ squarings one k base := by
  induction k, hjk using Nat.le_induction with
  | base => exact le_rfl
  | succ k _ ih =>
    rw [squarings_succ]
    exact ih.trans (le_mul_self hone (one_le_squarings hone k hbase))

theorem powLoop_zero (fuel base result : ℕ) : powLoop one fuel base 0 result = result := by
  cases fuel <;> rfl

theorem powLoop_succ {fuel base exp result : ℕ} (hexp : exp ≠ 0) :
    powLoop one (fuel + 1) base exp result = powLoop one fuel (mul one base base) (exp / 2)
      (if exp % 2 = 1 then mul one result base else result) := if_neg hexp

/-- More turns than the exponent has bits change nothing. -/
theorem powLoop_add {fuel base exp result : ℕ} (hfuel : exp < 2 ^ fuel) (k : ℕ) :
    powLoop one (fuel + k) base exp result = powLoop one fuel base exp result := by
  induction fuel generalizing base exp result with
  | zero =>
    obtain rfl : exp = 0 := by simpa using hfuel
    rw [powLoop_zero, powLoop_zero]
  | succ fuel ih =>
    by_cases hexp : exp = 0
    · subst hexp
      rw [powLoop_zero, powLoop_zero]
    · rw [Nat.succ_add, powLoop_succ hexp, powLoop_succ hexp]
      exact ih (by rw [pow_succ] at hfuel; omega)

theorem powLoop_one (hone : 0 < one) (fuel exp : ℕ) : powLoop one fuel one exp one = one := by
  induction fuel generalizing exp with
  | zero => rfl
  | succ fuel ih =>
    by_cases hexp : exp = 0
    · subst hexp
      exact powLoop_zero _ _ _
    · rw [powLoop_succ hexp, one_mul hone, ite_self]
      exact ih _

/-- A power is at least what the linear terms give. -/
theorem linear_le_powLoop (hone : 0 < one) {fuel base exp result m n r : ℕ}
    (hfuel : exp < 2 ^ fuel) (hresult : one + m * r ≤ result) (hbase : one + n * r ≤ base) :
    one + (m + n * exp) * r ≤ powLoop one fuel base exp result := by
  induction fuel generalizing base exp result m n with
  | zero =>
    obtain rfl : exp = 0 := by simpa using hfuel
    simpa [powLoop] using hresult
  | succ fuel ih =>
    by_cases hexp : exp = 0
    · subst hexp
      rw [powLoop_zero]
      simpa using hresult
    · have hhalf : exp / 2 < 2 ^ fuel := by
        rw [pow_succ] at hfuel
        omega
      have hsquare : one + (n + n) * r ≤ mul one base base := linear_le_mul hone hbase hbase
      rw [powLoop_succ hexp]
      by_cases hodd : exp % 2 = 1
      · have hsplit : m + n * exp = m + n + (n + n) * (exp / 2) := by
          conv_lhs => rw [← Nat.div_add_mod exp 2, hodd]
          ring
        rw [if_pos hodd, hsplit]
        exact ih hhalf (linear_le_mul hone hresult hbase) hsquare
      · have heven : exp % 2 = 0 := by omega
        have hsplit : m + n * exp = m + (n + n) * (exp / 2) := by
          conv_lhs => rw [← Nat.div_add_mod exp 2, heven]
          ring
        rw [if_neg hodd, hsplit]
        exact ih hhalf hresult hsquare

/-- Rounding a product of two numbers costs the greater one at most one unit of its lead. -/
theorem ahead_mul {a b x c lead : ℕ} (hone : 0 < one) (hx : one ≤ x)
    (hahead : a * (one + c) + (lead + 1) * one ≤ b * one) :
    mul one a x * (one + c) + lead * one ≤ mul one b x * one := by
  have hb : b * x < (mul one b x + 1) * one := by
    unfold mul
    exact Nat.lt_mul_of_div_lt (Nat.lt_succ_self _) hone
  have ha : mul one a x * one ≤ a * x := Nat.div_mul_le_self _ _
  have hscaled : (mul one a x * (one + c) + (lead + 1) * x) * one ≤ b * x * one := by
    calc (mul one a x * (one + c) + (lead + 1) * x) * one
        = mul one a x * one * (one + c) + (lead + 1) * one * x := by ring
      _ ≤ a * x * (one + c) + (lead + 1) * one * x :=
          Nat.add_le_add_right (Nat.mul_le_mul_right _ ha) _
      _ = (a * (one + c) + (lead + 1) * one) * x := by ring
      _ ≤ b * one * x := Nat.mul_le_mul_right _ hahead
      _ = b * x * one := by ring
  have hle := Nat.le_of_mul_le_mul_right hscaled hone
  have hlead : (lead + 1) * one ≤ (lead + 1) * x := Nat.mul_le_mul_left _ hx
  have hexpand : (mul one b x + 1) * one = mul one b x * one + one := by ring
  have hexpand' : (lead + 1) * one = lead * one + one := by ring
  omega

/-- Going on with the same exponent costs one unit of the lead in each turn. -/
theorem powLoop_ahead (hone : 0 < one) {fuel base exp a b c lead : ℕ} (hbase : one ≤ base)
    (hlead : fuel ≤ lead) (hahead : a * (one + c) + lead * one ≤ b * one) :
    powLoop one fuel base exp a * (one + c) ≤ powLoop one fuel base exp b * one := by
  induction fuel generalizing base exp a b lead with
  | zero => exact (Nat.le_add_right _ _).trans hahead
  | succ fuel ih =>
    by_cases hexp : exp = 0
    · subst hexp
      rw [powLoop_zero, powLoop_zero]
      exact (Nat.le_add_right _ _).trans hahead
    · obtain ⟨lead, rfl⟩ := Nat.exists_eq_add_of_le' (Nat.one_le_of_lt hlead)
      have hsquare := hbase.trans (le_mul_self hone hbase)
      rw [powLoop_succ hexp, powLoop_succ hexp]
      by_cases hodd : exp % 2 = 1
      · rw [if_pos hodd, if_pos hodd]
        exact ih hsquare (Nat.le_of_succ_le_succ hlead) (ahead_mul hone hbase hahead)
      · rw [if_neg hodd, if_neg hodd]
        exact ih hsquare (Nat.le_of_succ_le hlead) hahead

/-- A lead of the base over the powers so far is one of the next exponent's power over that of the
exponent, but for one unit in each turn. -/
theorem powLoop_succ_ahead (hone : 0 < one) {fuel base exp a c lead : ℕ} (hbase : one ≤ base)
    (hfuel : exp + 1 < 2 ^ fuel) (hlead : fuel ≤ lead)
    (hahead : a * (one + c) + lead * one ≤ base * one) :
    powLoop one fuel base exp a * (one + c) ≤ powLoop one fuel base (exp + 1) one * one := by
  induction fuel generalizing base exp a lead with
  | zero => simp at hfuel
  | succ fuel ih =>
    have hhalf : exp / 2 + 1 < 2 ^ fuel ∨ exp % 2 = 0 := by
      rw [pow_succ] at hfuel
      omega
    obtain ⟨lead, rfl⟩ := Nat.exists_eq_add_of_le' (Nat.one_le_of_lt hlead)
    have hsquare := hbase.trans (le_mul_self hone hbase)
    rw [powLoop_succ (Nat.succ_ne_zero exp)]
    by_cases hodd : exp % 2 = 1
    · -- the bit carries: only the smaller exponent has a factor here
      have hexp : exp ≠ 0 := by
        rintro rfl
        cases hodd
      have hcarry : (exp + 1) / 2 = exp / 2 + 1 := by omega
      rw [powLoop_succ hexp, if_pos hodd, if_neg (by omega), hcarry]
      exact ih hsquare (hhalf.resolve_right (by omega)) (Nat.le_of_succ_le_succ hlead)
        (ahead_mul hone hbase hahead)
    · -- the carry ends: from here on the exponents have the same bits
      have hsame : (exp + 1) / 2 = exp / 2 := by omega
      have hlast : powLoop one (fuel + 1) base exp a =
          powLoop one fuel (mul one base base) (exp / 2) a := by
        by_cases hexp : exp = 0
        · subst hexp
          rw [powLoop_zero, Nat.zero_div, powLoop_zero]
        · rw [powLoop_succ hexp, if_neg hodd]
      rw [hlast, if_pos (by omega), one_mul hone, hsame]
      exact powLoop_ahead hone hsquare (Nat.le_of_succ_le hlead) hahead

end FixedPoint
