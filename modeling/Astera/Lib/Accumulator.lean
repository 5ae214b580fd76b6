import Astera.Lib.Store

/-!
# Reward accumulators

A pot is shared among holders without visiting them: a global index grows by the reward per unit,
and the growth since a holder's snapshot times the balance is what the holder can claim.  What has
been paid and is pending never exceeds what was distributed (`Conserved`); a gain of balance keeps
this when the receiver's snapshot is up to date.
-/

namespace Accumulator

open Store

variable {K : Type}

/-- What all holders together can still claim, scaled. -/
def pending (balances : Store K ℤ) (index : ℤ) (snapshot : K → ℤ) : ℤ :=
  balances.total fun a b => (index - snapshot a) * b

/-- Payments and pending claims are within the distributions, and no snapshot is ahead of the
index. -/
structure Conserved (precision : ℤ) (balances : Store K ℤ) (index : ℤ) (snapshot : K → ℤ)
    (paid distributed : ℤ) : Prop where
  snapshot_le : ∀ a, snapshot a ≤ index
  conserved : paid * precision + pending balances index snapshot ≤ distributed * precision

variable {precision index paid distributed amount : ℤ} {balances balances' : Store K ℤ}
  {snapshot : K → ℤ}

theorem pending_eq_zero (h : ∀ a, snapshot a = index) : pending balances index snapshot = 0 := by
  unfold pending total
  apply List.sum_eq_zero
  intro x hx
  obtain ⟨e, -, rfl⟩ := List.mem_map.1 hx
  dsimp only
  rw [h e.1, sub_self, zero_mul]

theorem pending_nonneg [DecidableEq K] (hb : ∀ a b, balances.get a = some b → 0 ≤ b)
    (hs : ∀ a, snapshot a ≤ index) : 0 ≤ pending balances index snapshot := by
  apply total_nonneg
  intro a b hget
  exact mul_nonneg (sub_nonneg.2 (hs a)) (hb a b hget)

/-- Growth of the index adds to the claims in proportion to the balances. -/
theorem pending_add (delta : ℤ) :
    pending balances (index + delta) snapshot =
      pending balances index snapshot + delta * balances.total fun _ b => b := by
  unfold pending total
  rw [← List.sum_map_mul_left, ← List.sum_map_add]
  congr 1
  apply List.map_congr_left
  intro e _
  ring

/-- A claim takes the claim of its holder off the pending claims. -/
theorem pending_update [DecidableEq K] (a : K) :
    pending balances index (Function.update snapshot a index) =
      pending balances index snapshot - balances.part (fun a b => (index - snapshot a) * b) a := by
  unfold pending
  have hagree : ∀ k v, k ≠ a → balances.get k = some v →
      (index - Function.update snapshot a index k) * v = (index - snapshot k) * v := by
    intro k v hk _
    rw [Function.update_of_ne hk]
  rw [total_of_agree hagree]
  have hzero : balances.part (fun k v => (index - Function.update snapshot a index k) * v) a = 0 := by
    unfold part
    cases balances.get a <;> simp
  rw [hzero, add_zero]

theorem Conserved.paid_le [DecidableEq K]
    (hc : Conserved precision balances index snapshot paid distributed) (hp : 0 < precision)
    (hb : ∀ a b, balances.get a = some b → 0 ≤ b) : paid ≤ distributed := by
  have hpending := pending_nonneg hb hc.snapshot_le
  have hle : paid * precision ≤ distributed * precision := by
    have := hc.conserved
    omega
  exact le_of_mul_le_mul_right hle hp

/-- An amount is spread over the balances. -/
theorem Conserved.distribute (hc : Conserved precision balances index snapshot paid distributed)
    {delta : ℤ} (hd : 0 ≤ delta) (hle : delta * balances.total (fun _ b => b) ≤ amount * precision) :
    Conserved precision balances (index + delta) snapshot paid (distributed + amount) := by
  refine ⟨fun a => (hc.snapshot_le a).trans (by omega), ?_⟩
  have := hc.conserved
  rw [pending_add, add_mul]
  omega

/-- A holder is paid at most its claim and its snapshot is brought up to date. -/
theorem Conserved.claim [DecidableEq K]
    (hc : Conserved precision balances index snapshot paid distributed) (a : K)
    (hle : amount * precision ≤ balances.part (fun a b => (index - snapshot a) * b) a) :
    Conserved precision balances index (Function.update snapshot a index) (paid + amount)
      distributed := by
  refine ⟨fun a' => ?_, ?_⟩
  · rw [Function.update_apply]
    split_ifs
    · exact le_rfl
    · exact hc.snapshot_le a'
  · have := hc.conserved
    rw [pending_update, add_mul]
    omega

/-- The balances change and no claim grows. -/
theorem Conserved.move (hc : Conserved precision balances index snapshot paid distributed)
    (hle : pending balances' index snapshot ≤ pending balances index snapshot) :
    Conserved precision balances' index snapshot paid distributed :=
  ⟨hc.snapshot_le, by have := hc.conserved; omega⟩

/-- Nobody has a claim, so any balances will do. -/
theorem Conserved.restart (hc : Conserved precision balances index snapshot paid distributed)
    (hs : ∀ a, snapshot a = index) : Conserved precision balances' index snapshot paid distributed := by
  apply hc.move
  rw [pending_eq_zero hs, pending_eq_zero hs]

end Accumulator
