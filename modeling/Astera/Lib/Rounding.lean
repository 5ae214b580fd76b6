import Mathlib.Algebra.BigOperators.Ring.List
import Mathlib.Algebra.Order.BigOperators.Group.List
import Mathlib.Tactic.Linarith
import Mathlib.Tactic.Ring

/-!
# Rounded quotients

What rounded quotients of integers lose: a mean that is kept up to date from its truncated value, a
weighted mean, a total whose parts are rounded up one by one, and a pool that is divided among
weights with each share rounded down.
-/

namespace Rounding

/-- What a quotient towards zero leaves over is smaller than the divisor. -/
theorem abs_tmod_lt (a : ℤ) {m : ℤ} (hm : 0 < m) : |a.tmod m| < m := by
  have hneg := Int.tmod_lt_of_pos (-a) hm
  rw [Int.neg_tmod] at hneg
  exact abs_lt.2 ⟨by linarith, Int.tmod_lt_of_pos a hm⟩

/-- A number is the quotient towards zero when what is left over is smaller than the divisor and does
not point the other way. -/
theorem tdiv_eq_iff {a q m : ℤ} (hm : 0 < m) :
    a.tdiv m = q ↔ |a - q * m| < m ∧ 0 ≤ q * (a - q * m) := by
  constructor
  · rintro rfl
    have hrest : a - a.tdiv m * m = a.tmod m := by linarith [Int.tmod_add_tdiv_mul a m]
    rw [hrest]
    refine ⟨abs_tmod_lt a hm, ?_⟩
    rcases le_total 0 a with ha | ha
    · exact mul_nonneg (Int.tdiv_nonneg ha hm.le) (Int.tmod_nonneg m ha)
    · have hquot := Int.tdiv_nonneg (neg_nonneg.2 ha) hm.le
      have hmod := Int.tmod_nonneg m (neg_nonneg.2 ha)
      rw [Int.neg_tdiv] at hquot
      rw [Int.neg_tmod] at hmod
      nlinarith only [hquot, hmod]
  · rintro ⟨hsmall, hsign⟩
    obtain ⟨hlow, hhigh⟩ := abs_lt.1 hsmall
    rcases le_total 0 a with ha | ha
    · have hq : 0 ≤ q := by nlinarith only [hlow, hhigh, hm, ha]
      have hrest : 0 ≤ a - q * m := by
        rcases hq.eq_or_lt with rfl | hpos
        · linarith
        · exact nonneg_of_mul_nonneg_right hsign hpos
      refine ((Int.tdiv_tmod_unique (r := a - q * m) ha hm.ne').2 ⟨by ring, hrest, ?_⟩).1
      rwa [Int.natAbs_of_nonneg hm.le]
    · have hq : q ≤ 0 := by nlinarith only [hlow, hhigh, hm, ha]
      have hrest : a - q * m ≤ 0 := by
        rcases hq.eq_or_lt with rfl | hneg
        · linarith
        · nlinarith only [hsign, hneg]
      refine ((Int.tdiv_tmod_unique' (r := a - q * m) ha hm.ne').2 ⟨by ring, ?_, hrest⟩).1
      rwa [Int.natAbs_of_nonneg hm.le]

theorem tdiv_eq_zero_iff {a m : ℤ} (hm : 0 < m) : a.tdiv m = 0 ↔ |a| < m := by
  rw [tdiv_eq_iff hm]
  simp

/-- A quotient has the sign of the number, unless it is 0. -/
theorem tdiv_mul_nonneg_iff {a m : ℤ} (hm : 0 < m) (x : ℤ) :
    0 ≤ a.tdiv m * x ↔ |a| < m ∨ 0 ≤ a * x := by
  by_cases hzero : a.tdiv m = 0
  · simp [hzero, (tdiv_eq_zero_iff hm).1 hzero]
  · simp only [mt (tdiv_eq_zero_iff hm).2 hzero, false_or]
    rcases lt_or_gt_of_ne hzero with hneg | hpos
    · have ha : a < 0 := not_le.1 fun h => hneg.not_ge (Int.tdiv_nonneg h hm.le)
      rw [← neg_mul_neg, mul_nonneg_iff_of_pos_left (neg_pos.2 hneg), ← neg_mul_neg a,
        mul_nonneg_iff_of_pos_left (neg_pos.2 ha)]
    · have ha : 0 < a := not_le.1 fun h => hpos.not_ge <| by
        have hquot := Int.tdiv_nonneg (neg_nonneg.2 h) hm.le
        rw [Int.neg_tdiv] at hquot
        exact neg_nonneg.1 hquot
      rw [mul_nonneg_iff_of_pos_left hpos, mul_nonneg_iff_of_pos_left ha]

/-! ## A running mean -/

/-- The mean of `k + 1` numbers, from the truncated mean of the first `k`. -/
def nextMean (mean : ℤ) (k : ℕ) (x : ℤ) : ℤ := (mean * k + x).tdiv (k + 1)

/-- The sum of `k` numbers that their truncated mean stands for. -/
def roundedSum (sum : ℤ) (k : ℕ) : ℤ := sum - sum.tmod k

/-- What the truncated mean of `k` numbers drops, together with what is left over when the next mean is
formed, is left over in turn: it is smaller than the new number of numbers, and does not point the
other way unless the new mean is 0. -/
def Absorbed (sum : ℤ) (k : ℕ) (x : ℤ) : Prop :=
  let whole := roundedSum sum k + x
  let rest := sum.tmod k + whole.tmod (k + 1)
  |rest| < k + 1 ∧ (|whole| < k + 1 ∨ 0 ≤ whole * rest)

instance (sum : ℤ) (k : ℕ) (x : ℤ) : Decidable (Absorbed sum k x) :=
  inferInstanceAs (Decidable (_ ∧ _))

/-- The truncated mean is brought up to date exactly as long as what it drops is absorbed. -/
theorem nextMean_eq_iff (sum : ℤ) (k : ℕ) (x : ℤ) :
    nextMean (sum.tdiv k) k x = (sum + x).tdiv (k + 1) ↔ Absorbed sum k x := by
  have hm : (0 : ℤ) < k + 1 := by omega
  have hmean : sum.tdiv k * k + x = roundedSum sum k + x := by
    unfold roundedSum
    linarith [Int.tmod_add_tdiv_mul sum k]
  have hrest : sum + x - (roundedSum sum k + x).tdiv (k + 1) * (k + 1) =
      sum.tmod k + (roundedSum sum k + x).tmod (k + 1) := by
    have hsplit := Int.tmod_add_tdiv_mul (roundedSum sum k + x) (k + 1)
    unfold roundedSum at hsplit ⊢
    linarith
  unfold nextMean Absorbed
  rw [hmean, eq_comm, tdiv_eq_iff hm, hrest, tdiv_mul_nonneg_iff hm]

section Weighted

variable {a b u v : ℕ}

/-- A weighted mean, rounded down, is not below the smaller number. -/
theorem min_le_weighted (h : 0 < u + v) : min a b ≤ (a * u + b * v) / (u + v) := by
  rw [Nat.le_div_iff_mul_le h, Nat.mul_add]
  exact Nat.add_le_add (Nat.mul_le_mul_right u (min_le_left a b))
    (Nat.mul_le_mul_right v (min_le_right a b))

/-- A weighted mean, rounded down, is not above the larger number. -/
theorem weighted_le_max : (a * u + b * v) / (u + v) ≤ max a b := by
  refine Nat.div_le_of_le_mul ?_
  rw [Nat.add_mul, Nat.mul_comm a, Nat.mul_comm b]
  exact Nat.add_le_add (Nat.mul_le_mul_left u (le_max_left a b))
    (Nat.mul_le_mul_left v (le_max_right a b))

/-- Numbers that are at most `bound` have a weighted sum of at most `bound` times the weights. -/
theorem weighted_sum_le {l : List (ℕ × ℕ)} {bound : ℕ} (h : ∀ x ∈ l, x.2 ≤ bound) :
    (l.map fun x => x.1 * x.2).sum ≤ (l.map fun x => x.1).sum * bound := by
  rw [← List.sum_map_mul_right]
  exact List.sum_le_sum fun x hx => Nat.mul_le_mul_left x.1 (h x hx)

end Weighted

/-- Limiting two numbers to a range keeps their order; it puts numbers in order that were not only by
limiting both to the same end. -/
theorem limited_le_iff {lo hi x y : ℤ} (hle : lo ≤ hi) :
    max lo (min hi x) ≤ max lo (min hi y) ↔ x ≤ y ∨ x ≤ lo ∨ hi ≤ y ∨ hi = lo := by
  omega

def up (a m : ℤ) : ℤ := (a + (m - 1)) / m

theorem up_le_iff {a c m : ℤ} (hm : 0 < m) : up a m ≤ c ↔ a ≤ c * m := by
  unfold up
  rw [← Int.lt_add_one_iff, Int.ediv_lt_iff_lt_mul hm, add_mul]
  omega

theorem le_up_mul {m : ℤ} (a : ℤ) (hm : 0 < m) : a ≤ up a m * m := (up_le_iff hm).1 le_rfl

theorem up_mul_lt {m : ℤ} (a : ℤ) (hm : 0 < m) : up a m * m < a + m := by
  have := Int.ediv_mul_le (a + (m - 1)) hm.ne'
  unfold up
  omega

theorem up_mono {a b m : ℤ} (hm : 0 < m) (h : a ≤ b) : up a m ≤ up b m :=
  (up_le_iff hm).2 (h.trans (le_up_mul b hm))

/-- The parts of a total, each rounded up, are at least the total rounded up. -/
theorem up_sum_le {m : ℤ} (hm : 0 < m) (l : List ℤ) :
    up l.sum m ≤ (l.map fun a => up a m).sum := by
  rw [up_le_iff hm]
  induction l with
  | nil => simp
  | cons a l ih =>
    rw [List.map_cons, List.sum_cons, List.sum_cons, add_mul]
    exact add_le_add (le_up_mul a hm) ih

/-- Each part adds less than one to the exact total. -/
theorem sum_up_mul_le {m : ℤ} (hm : 0 < m) (l : List ℤ) :
    (l.map fun a => up a m).sum * m ≤ l.sum + l.length * (m - 1) := by
  induction l with
  | nil => simp
  | cons a l ih =>
    have hfirst := up_mul_lt a hm
    rw [List.map_cons, List.sum_cons, List.sum_cons, List.length_cons]
    push_cast
    linarith

/-- The parts of a total are at most one more than it for each further part. -/
theorem sum_up_le {m total : ℤ} (hm : 0 < m) {l : List ℤ} (hne : l ≠ []) (hle : l.sum ≤ total) :
    (l.map fun a => up a m).sum ≤ up total m + (l.length - 1) := by
  have hparts := sum_up_mul_le hm l
  have htotal := le_up_mul total hm
  have hlen : 1 ≤ (l.length : ℤ) := by
    have := List.length_pos_iff.2 hne
    omega
  by_contra hmore
  have hmul : (up total m + l.length) * m ≤ (l.map fun a => up a m).sum * m :=
    mul_le_mul_of_nonneg_right (by omega) hm.le
  linarith

end Rounding

namespace ProRata

def share (pool total weight : ℤ) : ℤ := (pool * weight).tdiv total

theorem share_nonneg {pool total weight : ℤ} (hpool : 0 ≤ pool) (htotal : 0 ≤ total)
    (hweight : 0 ≤ weight) : 0 ≤ share pool total weight :=
  Int.tdiv_nonneg (mul_nonneg hpool hweight) htotal

/-- One share against the exact quotient. -/
theorem share_mul_le {pool total weight : ℤ} (hpool : 0 ≤ pool) (htotal : 0 < total)
    (hweight : 0 ≤ weight) :
    share pool total weight * total ≤ pool * weight ∧
      pool * weight < (share pool total weight + 1) * total := by
  have hnn : 0 ≤ pool * weight := mul_nonneg hpool hweight
  have hshare : share pool total weight = pool * weight / total := Int.tdiv_eq_ediv_of_nonneg hnn
  rw [hshare]
  exact ⟨Int.ediv_mul_le _ htotal.ne', Int.lt_ediv_add_one_mul_self _ htotal⟩

/-- The shares of a list of weights against the exact quotients. -/
theorem sum_shares_mul_le {pool total : ℤ} (hpool : 0 ≤ pool) (htotal : 0 < total) :
    ∀ {weights : List ℤ}, (∀ weight ∈ weights, 0 ≤ weight) →
      (weights.map (share pool total)).sum * total ≤ pool * weights.sum ∧
        (weights ≠ [] → pool * weights.sum <
          ((weights.map (share pool total)).sum + weights.length) * total) := by
  intro weights
  induction weights with
  | nil =>
    intro _
    simp
  | cons weight weights ih =>
    intro hnn
    obtain ⟨hlow, hhigh⟩ := share_mul_le hpool htotal (hnn weight List.mem_cons_self)
    obtain ⟨hlows, hhighs⟩ := ih fun w hw => hnn w (List.mem_cons_of_mem _ hw)
    rw [List.map_cons, List.sum_cons, List.sum_cons, List.length_cons]
    refine ⟨by linarith, fun _ => ?_⟩
    push_cast
    by_cases hempty : weights = []
    · subst hempty
      simp only [List.map_nil, List.sum_nil, List.length_nil, Nat.cast_zero]
      linarith
    · have hrest := hhighs hempty
      linarith

/-- A pool that is divided among all the weight: nothing is paid twice, and rounding keeps less than
one unit for each share. -/
theorem sum_shares_bounds {pool : ℤ} {weights : List ℤ} (hpool : 0 ≤ pool)
    (hnn : ∀ weight ∈ weights, 0 ≤ weight) (htotal : 0 < weights.sum) :
    (weights.map (share pool weights.sum)).sum ≤ pool ∧
      pool < (weights.map (share pool weights.sum)).sum + weights.length := by
  obtain ⟨hlow, hhigh⟩ := sum_shares_mul_le hpool htotal hnn
  have hne : weights ≠ [] := by
    rintro rfl
    simp at htotal
  refine ⟨?_, ?_⟩
  · exact le_of_mul_le_mul_right hlow htotal
  · exact lt_of_mul_lt_mul_right (hhigh hne) htotal.le

end ProRata
