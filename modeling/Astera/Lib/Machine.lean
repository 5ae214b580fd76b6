import Mathlib.Tactic.Linarith
import Mathlib.Tactic.Ring

/-!
# Fixed-width machine integers

Signed 128-bit integers are kept as `ℤ` and unsigned ones as `ℕ`.  A checked operation returns the
exact result when it fits the width and nothing otherwise; a conversion keeps the low bits; a
saturating subtraction stops at the ends of the range.  Division truncates towards zero.
-/

namespace Machine

/-! ## Signed 128-bit integers -/

/-- `x` is the value of a signed 128-bit integer. -/
def InI128 (x : ℤ) : Prop := -2 ^ 127 ≤ x ∧ x < 2 ^ 127

instance (x : ℤ) : Decidable (InI128 x) := inferInstanceAs (Decidable (_ ∧ _))

/-- Keep a result that fits a signed 128-bit integer. -/
def fit (x : ℤ) : Option ℤ := if InI128 x then some x else none

/-- `i128::checked_add`. -/
def checkedAdd (a b : ℤ) : Option ℤ := fit (a + b)

/-- `i128::checked_sub`. -/
def checkedSub (a b : ℤ) : Option ℤ := fit (a - b)

/-- `i128::checked_mul`. -/
def checkedMul (a b : ℤ) : Option ℤ := fit (a * b)

/-- `i128::checked_div`: nothing for a zero divisor, truncation towards zero otherwise. -/
def checkedDiv (a b : ℤ) : Option ℤ := if b = 0 then none else fit (a.tdiv b)

/-- `i128::saturating_sub`. -/
def saturatingSub (a b : ℤ) : ℤ := max (-2 ^ 127) (min (2 ^ 127 - 1) (a - b))

/-- `i128::saturating_add`. -/
def saturatingAdd (a b : ℤ) : ℤ := max (-2 ^ 127) (min (2 ^ 127 - 1) (a + b))

/-- `i128::saturating_mul`. -/
def saturatingMul (a b : ℤ) : ℤ := max (-2 ^ 127) (min (2 ^ 127 - 1) (a * b))

theorem fit_eq_some (x y : ℤ) : fit x = some y ↔ y = x ∧ InI128 x := by
  unfold fit
  split_ifs with h <;> simp [h, eq_comm]

@[simp]
theorem checkedAdd_eq_some (a b c : ℤ) : checkedAdd a b = some c ↔ c = a + b ∧ InI128 (a + b) :=
  fit_eq_some _ _

@[simp]
theorem checkedSub_eq_some (a b c : ℤ) : checkedSub a b = some c ↔ c = a - b ∧ InI128 (a - b) :=
  fit_eq_some _ _

@[simp]
theorem checkedMul_eq_some (a b c : ℤ) : checkedMul a b = some c ↔ c = a * b ∧ InI128 (a * b) :=
  fit_eq_some _ _

@[simp]
theorem checkedDiv_eq_some (a b c : ℤ) :
    checkedDiv a b = some c ↔ b ≠ 0 ∧ c = a.tdiv b ∧ InI128 (a.tdiv b) := by
  unfold checkedDiv
  split_ifs with h <;> simp [h, fit_eq_some]

/-- A subtraction that stays above the lower end of the range saturates at most at the upper end. -/
theorem saturatingSub_le (a b : ℤ) (h : -2 ^ 127 ≤ a - b) : saturatingSub a b ≤ a - b := by
  unfold saturatingSub
  omega

theorem saturatingAdd_eq (a b : ℤ) (h : InI128 (a + b)) : saturatingAdd a b = a + b := by
  unfold saturatingAdd InI128 at *
  omega

theorem saturatingSub_eq (a b : ℤ) (h : InI128 (a - b)) : saturatingSub a b = a - b := by
  unfold saturatingSub InI128 at *
  omega

/-- A product that stays above the lower end of the range saturates at most at the upper end. -/
theorem saturatingMul_le (a b : ℤ) (h : -2 ^ 127 ≤ a * b) : saturatingMul a b ≤ a * b := by
  unfold saturatingMul
  omega

theorem saturatingMul_nonneg {a b : ℤ} (ha : 0 ≤ a) (hb : 0 ≤ b) : 0 ≤ saturatingMul a b := by
  have hab : 0 ≤ a * b := mul_nonneg ha hb
  unfold saturatingMul
  omega

/-- A positive quotient by a positive divisor rounds down. -/
theorem tdiv_mul_le {a b : ℤ} (hb : 0 < b) (h : 0 < a.tdiv b) : a.tdiv b * b ≤ a := by
  have ha : 0 ≤ a := by
    by_contra hneg
    have hneg' : 0 ≤ (-a).tdiv b := Int.tdiv_nonneg (by omega) hb.le
    rw [Int.neg_tdiv] at hneg'
    omega
  rw [Int.tdiv_eq_ediv_of_nonneg ha]
  exact Int.ediv_mul_le a hb.ne'

theorem tdiv_mul_le_of_nonneg {a b : ℤ} (hb : 0 < b) (ha : 0 ≤ a) : a.tdiv b * b ≤ a := by
  rw [Int.tdiv_eq_ediv_of_nonneg ha]
  exact Int.ediv_mul_le a hb.ne'

theorem tdiv_le_of_le_mul {a b c : ℤ} (hb : 0 < b) (ha : 0 ≤ a) (h : a ≤ c * b) :
    a.tdiv b ≤ c := by
  rw [Int.tdiv_eq_ediv_of_nonneg ha]
  exact Int.ediv_le_of_le_mul hb h

/-- Comparing ratios by cross multiplication is transitive. -/
theorem ratio_trans {a b c d e f : ℤ} (hb : 0 ≤ b) (hd : 0 < d) (hf : 0 ≤ f)
    (h₁ : a * d ≤ c * b) (h₂ : c * f ≤ e * d) : a * f ≤ e * b := by
  have hmul : (a * f) * d ≤ (e * b) * d := by
    calc (a * f) * d = (a * d) * f := by ring
      _ ≤ (c * b) * f := mul_le_mul_of_nonneg_right h₁ hf
      _ = (c * f) * b := by ring
      _ ≤ (e * d) * b := mul_le_mul_of_nonneg_right h₂ hb
      _ = (e * b) * d := by ring
  exact le_of_mul_le_mul_right hmul hd

/-! ## Unsigned integers and conversions -/

/-- Keep a result that fits `w` bits. -/
def fitU (w : ℕ) (x : ℕ) : Option ℕ := if x < 2 ^ w then some x else none

theorem fitU_eq_some (w x y : ℕ) : fitU w x = some y ↔ y = x ∧ x < 2 ^ w := by
  unfold fitU
  split_ifs with h <;> simp [h, eq_comm]

/-- `saturating_add` of unsigned integers of `w` bits. -/
def saturatingAddU (w a b : ℕ) : ℕ := min (a + b) (2 ^ w - 1)

/-- `saturating_mul` of unsigned integers of `w` bits. -/
def saturatingMulU (w a b : ℕ) : ℕ := min (a * b) (2 ^ w - 1)

/-- The low `w` bits of a signed integer (`x as uN`). -/
def toU (w : ℕ) (x : ℤ) : ℕ := (x % 2 ^ w).toNat

/-- The low `w` bits of an unsigned integer (`x as uN`). -/
def truncU (w : ℕ) (x : ℕ) : ℕ := x % 2 ^ w

/-- Keep a result that fits a signed integer of `w` bits. -/
def fitI (w : ℕ) (x : ℤ) : Option ℤ :=
  if -2 ^ (w - 1) ≤ x ∧ x < 2 ^ (w - 1) then some x else none

theorem fitI_eq_some (w : ℕ) (x y : ℤ) :
    fitI w x = some y ↔ y = x ∧ -2 ^ (w - 1) ≤ x ∧ x < 2 ^ (w - 1) := by
  unfold fitI
  split_ifs with h <;> simp [h, eq_comm]

/-- The signed reading of the low `w` bits (`x as iN`). -/
def toI (w : ℕ) (x : ℤ) : ℤ := x.bmod (2 ^ w)

/-- The signed 128-bit reading of an unsigned 128-bit integer (`x as i128`). -/
def toI128 (x : ℕ) : ℤ := if x < 2 ^ 127 then x else (x : ℤ) - 2 ^ 128

theorem toU_of_nonneg (w : ℕ) (x : ℤ) (h₀ : 0 ≤ x) (h : x < 2 ^ w) : (toU w x : ℤ) = x := by
  unfold toU
  rw [Int.emod_eq_of_lt h₀ h, Int.toNat_of_nonneg h₀]

/-- The low bits of an integer that is not negative are at most the integer. -/
theorem toU_le {w : ℕ} {x : ℤ} (hx : 0 ≤ x) : (toU w x : ℤ) ≤ x := by
  unfold toU
  have hpos : (0 : ℤ) < 2 ^ w := by positivity
  rw [Int.toNat_of_nonneg (Int.emod_nonneg x hpos.ne')]
  have hdiv : 0 ≤ 2 ^ w * (x / 2 ^ w) := mul_nonneg hpos.le (Int.ediv_nonneg hx hpos.le)
  have hsplit := Int.emod_add_mul_ediv x (2 ^ w)
  omega

/-- A sum of parts, checked after each of them. -/
theorem foldlM_fitU {α : Type} {w : ℕ} {step : ℕ → α → Option ℕ} {part : α → ℕ}
    (hstep : ∀ acc a, acc < 2 ^ w → step acc a = fitU w (acc + part a)) :
    ∀ (l : List α) (acc : ℕ), acc < 2 ^ w →
      l.foldlM step acc = fitU w (acc + (l.map part).sum) := by
  intro l
  induction l with
  | nil =>
    intro acc hacc
    simp [fitU, hacc]
  | cons a l ih =>
    intro acc hacc
    rw [List.foldlM_cons, hstep acc a hacc, List.map_cons, List.sum_cons, ← Nat.add_assoc]
    by_cases hfits : acc + part a < 2 ^ w
    · have hone : fitU w (acc + part a) = some (acc + part a) := if_pos hfits
      rw [hone]
      exact ih (acc + part a) hfits
    · have hone : fitU w (acc + part a) = none := if_neg hfits
      have hall : fitU w (acc + part a + (l.map part).sum) = none := if_neg (by omega)
      rw [hone, hall]
      rfl

end Machine
