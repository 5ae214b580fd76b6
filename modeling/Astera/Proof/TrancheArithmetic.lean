import Astera.Tranche.Contract

/-!
# The arithmetic of the tranches

Where nothing saturates, the waterfall pays the senior class up to its principal with interest and
the rest to the junior class, and a loss falls on the junior class up to its first-loss share.  A
deposit is booked before it is priced, a withdrawal after.
-/

namespace Astera.Tranche

open Fallible Machine Transition

def seniorInterest (seniorPrincipal : ℤ) (yieldBps elapsedSecs : ℕ) : ℤ :=
  seniorPrincipal * yieldBps * elapsedSecs / 10000 / 31536000

theorem seniorInterest_nonneg {seniorPrincipal : ℤ} (hnn : 0 ≤ seniorPrincipal)
    (yieldBps elapsedSecs : ℕ) : 0 ≤ seniorInterest seniorPrincipal yieldBps elapsedSecs := by
  unfold seniorInterest
  positivity

theorem saturatingMulU_of_lt {x : ℤ} {n m : ℕ} (hm : (m : ℤ) = x) (hfits : x * n < 2 ^ 128) :
    (saturatingMulU m n : ℤ) = x * n := by
  unfold saturatingMulU
  subst hm
  have hlt : m * n < 2 ^ 128 := by exact_mod_cast hfits
  rw [min_eq_left (by omega)]
  push_cast
  rfl

theorem calculateWaterfallSplit_eq {totalDue seniorPrincipal : ℤ} {yieldBps elapsedSecs : ℕ}
    (hdue : 0 ≤ totalDue) (hdue' : totalDue < 2 ^ 127) (hnn : 0 ≤ seniorPrincipal)
    (hrange : seniorPrincipal < 2 ^ 127) (hyield : seniorPrincipal * yieldBps < 2 ^ 128)
    (hproduct : seniorPrincipal * yieldBps * elapsedSecs < 2 ^ 128)
    (hcap : seniorPrincipal + seniorInterest seniorPrincipal yieldBps elapsedSecs < 2 ^ 127) :
    calculateWaterfallSplit totalDue seniorPrincipal yieldBps elapsedSecs =
      .ok (min (seniorPrincipal + seniorInterest seniorPrincipal yieldBps elapsedSecs) totalDue,
        totalDue -
          min (seniorPrincipal + seniorInterest seniorPrincipal yieldBps elapsedSecs) totalDue) := by
  have hinterest := seniorInterest_nonneg hnn yieldBps elapsedSecs
  have hprincipal : (toU 128 seniorPrincipal : ℤ) = seniorPrincipal :=
    toU_of_nonneg 128 seniorPrincipal hnn (by omega)
  have hscaled := saturatingMulU_of_lt (saturatingMulU_of_lt hprincipal hyield) hproduct
  unfold calculateWaterfallSplit
  dsimp only
  generalize saturatingMulU (saturatingMulU (toU 128 seniorPrincipal) yieldBps) elapsedSecs =
    scaled at hscaled
  have hsmall : scaled / 10000 / (365 * 24 * 60 * 60) < 2 ^ 127 := by omega
  have hcast : ((scaled / 10000 / (365 * 24 * 60 * 60) : ℕ) : ℤ) =
      seniorInterest seniorPrincipal yieldBps elapsedSecs := by
    unfold seniorInterest
    rw [← hscaled]
    rfl
  rw [toI128_of_lt hsmall, hcast, add_eq_ok.mpr ⟨rfl, by omega, hcap⟩, ok_bind]
  have hsenior : (if seniorPrincipal + seniorInterest seniorPrincipal yieldBps elapsedSecs ≤ totalDue
      then seniorPrincipal + seniorInterest seniorPrincipal yieldBps elapsedSecs else totalDue) =
        min (seniorPrincipal + seniorInterest seniorPrincipal yieldBps elapsedSecs) totalDue := by
    rw [min_def]
  rw [hsenior, sub_eq_ok.mpr ⟨rfl, by omega, by omega⟩, ok_bind]
  rfl

theorem calculateLossAllocation_eq {shortfall juniorRemaining : ℤ} {juniorFirstLossBps : ℕ}
    (hshort : 0 ≤ shortfall) (hshort' : shortfall < 2 ^ 127) (hnn : 0 ≤ juniorRemaining)
    (hrange : juniorRemaining < 2 ^ 127)
    (hproduct : juniorRemaining * juniorFirstLossBps < 2 ^ 128) :
    calculateLossAllocation shortfall juniorRemaining juniorFirstLossBps =
      .ok (min shortfall (juniorRemaining * juniorFirstLossBps / 10000),
        shortfall - min shortfall (juniorRemaining * juniorFirstLossBps / 10000)) := by
  have hremaining : (toU 128 juniorRemaining : ℤ) = juniorRemaining :=
    toU_of_nonneg 128 juniorRemaining hnn (by omega)
  have hscaled := saturatingMulU_of_lt hremaining hproduct
  have hmax : 0 ≤ juniorRemaining * juniorFirstLossBps / 10000 := by positivity
  unfold calculateLossAllocation
  dsimp only
  generalize saturatingMulU (toU 128 juniorRemaining) juniorFirstLossBps = scaled at hscaled
  have hsmall : scaled / 10000 < 2 ^ 127 := by omega
  have hcast : ((scaled / 10000 : ℕ) : ℤ) = juniorRemaining * juniorFirstLossBps / 10000 := by
    rw [← hscaled]
    rfl
  rw [toI128_of_lt hsmall, hcast]
  split_ifs with hle
  · rw [min_eq_left hle, Int.sub_self]
    rfl
  · rw [min_eq_right (by omega), sub_eq_ok.mpr ⟨rfl, by omega, by omega⟩, ok_bind]
    rfl

/-- Where nothing saturates and the cap of the senior class fits, the waterfall pays the senior class
first, and where the first-loss rate is at most the whole, a loss falls on the junior class first. -/
theorem waterfall_seniority :
    (∀ (totalDue seniorPrincipal : ℤ) (yieldBps elapsedSecs : ℕ), 0 ≤ totalDue →
      totalDue < 2 ^ 127 → 0 ≤ seniorPrincipal → seniorPrincipal * yieldBps < 2 ^ 128 →
      seniorPrincipal * yieldBps * elapsedSecs < 2 ^ 128 →
      seniorPrincipal + seniorInterest seniorPrincipal yieldBps elapsedSecs < 2 ^ 127 →
      ∃ senior junior,
        calculateWaterfallSplit totalDue seniorPrincipal yieldBps elapsedSecs =
          .ok (senior, junior) ∧
        senior + junior = totalDue ∧ 0 ≤ senior ∧
        senior ≤ seniorPrincipal + seniorInterest seniorPrincipal yieldBps elapsedSecs ∧
        (0 < junior →
          senior = seniorPrincipal + seniorInterest seniorPrincipal yieldBps elapsedSecs) ∧
        ∀ more, totalDue ≤ more → more < 2 ^ 127 → ∃ senior' junior',
          calculateWaterfallSplit more seniorPrincipal yieldBps elapsedSecs =
            .ok (senior', junior') ∧ senior ≤ senior') ∧
    (∀ (shortfall juniorRemaining : ℤ) (juniorFirstLossBps : ℕ), 0 ≤ shortfall →
      shortfall < 2 ^ 127 → 0 ≤ juniorRemaining → juniorRemaining < 2 ^ 127 →
      juniorFirstLossBps ≤ 10000 → juniorRemaining * juniorFirstLossBps < 2 ^ 128 →
      ∃ juniorLoss seniorLoss,
        calculateLossAllocation shortfall juniorRemaining juniorFirstLossBps =
          .ok (juniorLoss, seniorLoss) ∧
        juniorLoss + seniorLoss = shortfall ∧ 0 ≤ juniorLoss ∧ juniorLoss ≤ juniorRemaining ∧
        (0 < seniorLoss → juniorLoss = juniorRemaining * juniorFirstLossBps / 10000)) := by
  constructor
  · intro totalDue seniorPrincipal yieldBps elapsedSecs hdue hdue' hnn hyield hproduct hcap
    have hinterest := seniorInterest_nonneg hnn yieldBps elapsedSecs
    have hrange : seniorPrincipal < 2 ^ 127 := by omega
    refine ⟨_, _, calculateWaterfallSplit_eq hdue hdue' hnn hrange hyield hproduct hcap, by omega,
      by omega, by omega, by omega, fun more hmore hmore' => ?_⟩
    refine ⟨_, _, calculateWaterfallSplit_eq (hdue.trans hmore) hmore' hnn hrange hyield hproduct
      hcap, ?_⟩
    exact min_le_min_left _ hmore
  · intro shortfall juniorRemaining juniorFirstLossBps hshort hshort' hnn hrange hbps hproduct
    have hmax : 0 ≤ juniorRemaining * juniorFirstLossBps / 10000 := by positivity
    have hle : juniorRemaining * juniorFirstLossBps / 10000 ≤ juniorRemaining := by
      apply Int.ediv_le_of_le_mul (by norm_num)
      exact mul_le_mul_of_nonneg_left (by exact_mod_cast hbps) hnn
    exact ⟨_, _, calculateLossAllocation_eq hshort hshort' hnn hrange hproduct, by omega, by omega,
      by omega, by omega⟩

theorem waterfall_seniority_year :
    (∃ senior junior, calculateWaterfallSplit 1500 1000 1000 31536000 = .ok (senior, junior) ∧
      senior + junior = 1500 ∧ senior = 1100) ∧
    ∃ juniorLoss seniorLoss, calculateLossAllocation 700 500 10000 = .ok (juniorLoss, seniorLoss) ∧
      juniorLoss = 500 ∧ seniorLoss = 200 := by
  obtain ⟨hwaterfall, hloss⟩ := waterfall_seniority
  constructor
  · obtain ⟨senior, junior, hsplit, hsum, -, hle, hfull, -⟩ := hwaterfall 1500 1000 1000 31536000
      (by norm_num) (by norm_num) (by norm_num) (by norm_num) (by norm_num) (by decide)
    have hcap : (1000 : ℤ) + seniorInterest 1000 1000 31536000 = 1100 := by decide
    exact ⟨senior, junior, hsplit, hsum, by omega⟩
  · obtain ⟨juniorLoss, seniorLoss, hsplit, hsum, -, hle, hfull⟩ := hloss 700 500 10000
      (by norm_num) (by norm_num) (by norm_num) (by norm_num) (by norm_num) (by norm_num)
    have hjunior := hfull (by omega)
    norm_num at hjunior
    exact ⟨juniorLoss, seniorLoss, hsplit, hjunior, by omega⟩

/-- The cap of the senior class overflows for a principal at the end of the range; a first-loss rate
above the whole charges the junior class more than it has; and a saturated product charges it less
than its share. -/
theorem waterfall_out_of_range :
    (2 ^ 127 - 1) * 1 * 1 < 2 ^ 128 ∧
    calculateWaterfallSplit (2 ^ 127 - 1) (2 ^ 127 - 1) 1 1 = .error .overflow ∧
    calculateLossAllocation 300 100 20000 = .ok (200, 100) ∧
    ∃ juniorLoss seniorLoss,
      calculateLossAllocation (2 ^ 127 - 1) (2 ^ 127 - 1) 10000 = .ok (juniorLoss, seniorLoss) ∧
      0 < seniorLoss ∧ juniorLoss ≠ (2 ^ 127 - 1) * 10000 / 10000 := by
  refine ⟨by norm_num, by decide, by decide, ?_⟩
  obtain ⟨⟨juniorLoss, seniorLoss⟩, hloss, hp⟩ :=
    exists_of_check (x := calculateLossAllocation (2 ^ 127 - 1) (2 ^ 127 - 1) 10000)
      (p := fun x => decide (0 < x.2 ∧ x.1 ≠ (2 ^ 127 - 1) * 10000 / 10000)) (by decide)
  exact ⟨juniorLoss, seniorLoss, hloss, of_decide_eq_true hp⟩

def TrancheAccounting.value (a : TrancheAccounting) : ℤ := a.deposited + a.earned - a.losses

/-- The shares that a deposit mints: it is a part of the value that it is divided by. -/
def TrancheAccounting.minted (a : TrancheAccounting) (amount : ℤ) : ℤ :=
  calculateSharesToMint amount (a.value + amount) a.totalShares

def TrancheAccounting.burned (a : TrancheAccounting) (amount : ℤ) : ℤ :=
  calculateSharesToMint amount a.value a.totalShares

theorem poolValue_eq_ok {a : TrancheAccounting} {value : ℤ} (hv : poolValue a = .ok value) :
    value = a.value ∧ InI128 a.value := by
  unfold poolValue at hv
  simp only [bind_eq_ok, add_eq_ok, sub_eq_ok] at hv
  obtain ⟨_, ⟨rfl, -⟩, rfl, hrange⟩ := hv
  exact ⟨rfl, hrange⟩

section Operations

variable {W : Type} {n : Neighbours W} {signers : List Address} {s s' : State W}
  {investor token : Address} {tranche : TrancheClass} {amount : ℤ} {pool : TranchePool}

theorem depositTranche_minted (hpool : s.pools token = some pool)
    (hd : depositTranche n signers s investor token tranche amount = .ok s') :
    0 < amount ∧ InI128 ((pool.accounting tranche).value + amount) ∧
    InI128 ((pool.accounting tranche).totalShares + (pool.accounting tranche).minted amount) ∧
    ∃ pool', s'.pools token = some pool' ∧ pool'.accounting tranche =
      (pool.accounting tranche).moved amount
        ((pool.accounting tranche).totalShares + (pool.accounting tranche).minted amount) := by
  unfold depositTranche deposit depositAccounting at hd
  simp only [bind_eq_ok, require_eq_ok, requireAuth_eq_ok, getPool_eq_ok, okOr_eq_ok, add_eq_ok,
    exists_unit, pure_eq_ok] at hd
  obtain ⟨-, hpos, -, world, -, _, hget, -, _, ⟨_, ⟨rfl, -⟩, _, ⟨rfl, -⟩, rfl⟩, _, -, value,
    hvalue, shares, -, _, ⟨rfl, hshares⟩, world', -, rfl⟩ := hd
  obtain rfl := Option.some.inj (hpool.symm.trans hget)
  obtain ⟨rfl, hrange⟩ := poolValue_eq_ok hvalue
  have hbooked : TrancheAccounting.value { pool.accounting tranche with
      deposited := (pool.accounting tranche).deposited + amount
      available := (pool.accounting tranche).available + amount } =
        (pool.accounting tranche).value + amount := by
    unfold TrancheAccounting.value
    dsimp only
    ring
  rw [hbooked] at hrange hshares
  refine ⟨hpos, hrange, hshares, _, Function.update_self _ _ _, ?_⟩
  rw [TranchePool.accounting_setAccounting, if_pos rfl, hbooked]
  rfl

theorem withdrawTranche_burned (hpool : s.pools token = some pool)
    (hw : withdrawTranche n signers s investor token tranche amount = .ok s') :
    ∃ pool', s'.pools token = some pool' ∧ pool'.accounting tranche =
      (pool.accounting tranche).moved (-amount)
        ((pool.accounting tranche).totalShares - (pool.accounting tranche).burned amount) := by
  unfold withdrawTranche withdraw withdrawAccounting at hw
  simp only [bind_eq_ok, require_eq_ok, requireAuth_eq_ok, getPool_eq_ok, okOr_eq_ok, sub_eq_ok,
    exists_unit, pure_eq_ok] at hw
  obtain ⟨-, -, -, _, hget, -, value, hvalue, -, _, ⟨-, _, ⟨rfl, -⟩, _, ⟨rfl, -⟩, rfl⟩, _,
    ⟨rfl, -⟩, -, position, -, world, -, world', -, rfl⟩ := hw
  obtain rfl := Option.some.inj (hpool.symm.trans hget)
  obtain ⟨rfl, -⟩ := poolValue_eq_ok hvalue
  refine ⟨_, Function.update_self _ _ _, ?_⟩
  rw [TranchePool.accounting_setAccounting, if_pos rfl]
  rfl

end Operations

/-! ## Fair prices -/

theorem calculateSharesToMint_eq {amount value totalShares : ℤ} (ha : 0 < amount)
    (ha' : amount < 2 ^ 127) (hv : 2 ≤ value) (hv' : value < 2 ^ 128) (ht : 0 < totalShares)
    (ht' : totalShares < 2 ^ 127) :
    calculateSharesToMint amount value totalShares =
      min (amount * totalShares) (2 ^ 128 - 1) / value := by
  have hamount : (toU 128 amount : ℤ) = amount := toU_of_nonneg 128 amount ha.le (by omega)
  have hvalue : (toU 128 value : ℤ) = value := toU_of_nonneg 128 value (by omega) (by omega)
  have hshares : (toU 128 totalShares : ℤ) = totalShares :=
    toU_of_nonneg 128 totalShares ht.le (by omega)
  unfold calculateSharesToMint
  rw [if_neg (by omega), if_neg (by omega)]
  have hproduct : (saturatingMulU (toU 128 amount) (toU 128 totalShares) : ℤ) =
      min (amount * totalShares) (2 ^ 128 - 1) := by
    unfold saturatingMulU
    rw [Nat.cast_min, Nat.cast_mul, hamount, hshares]
    norm_num
  have hlt : saturatingMulU (toU 128 amount) (toU 128 totalShares) / toU 128 value < 2 ^ 127 := by
    rw [Nat.div_lt_iff_lt_mul (by omega)]
    have hle : saturatingMulU (toU 128 amount) (toU 128 totalShares) ≤ 2 ^ 128 - 1 :=
      min_le_right _ _
    omega
  rw [toI128_of_lt hlt, Int.natCast_div, hproduct, hvalue]

theorem le_saturated_iff {q x d : ℤ} (hd : 0 < d) :
    q ≤ min x (2 ^ 128 - 1) / d ↔ q * d ≤ x ∧ q * d < 2 ^ 128 := by
  rw [Int.le_ediv_iff_mul_le hd, le_min_iff]
  omega

theorem saturated_lt {q x d : ℤ} (hd : 0 < d) (hx : x < q * d) : min x (2 ^ 128 - 1) / d < q := by
  rw [Int.ediv_lt_iff_lt_mul hd]
  exact (min_le_left _ _).trans_lt hx

/-- The shares that an amount is worth before it is deposited. -/
def TrancheAccounting.fair (a : TrancheAccounting) (amount : ℤ) : ℤ :=
  amount * a.totalShares / a.value

/-- What a deposit takes off its own price is lost in the rounding of the fair price, and nothing
saturates. -/
def TrancheAccounting.DilutionRoundedOff (a : TrancheAccounting) (amount : ℤ) : Prop :=
  a.fair amount * amount ≤ amount * a.totalShares % a.value ∧
    a.fair amount * (a.value + amount + amount) < 2 ^ 128

/-- Pricing a deposit with itself booked is fair exactly when what the deposit takes off its own price
is lost in the rounding of the fair price, and nothing saturates. -/
theorem fair_iff {a t v m : ℤ} (ha : 0 < a) (ht : 0 < t) (hv : 0 < v)
    (hm : m = min (a * t) (2 ^ 128 - 1) / (v + a)) :
    (m = a * t / v ∧ min (a * (t + m)) (2 ^ 128 - 1) / (v + a) ≤ m ∧
        min (a * (t + m)) (2 ^ 128 - 1) / (v + a + a) = m) ↔
      a * t / v * a ≤ a * t % v ∧ a * t / v * (v + a + a) < 2 ^ 128 := by
  have hsplit := Int.ediv_mul_add_emod (a * t) v
  have hrem := Int.emod_lt_of_pos (a * t) hv
  have hq : 0 ≤ a * t / v := Int.ediv_nonneg (by positivity) hv.le
  generalize a * t / v = q at hsplit hq ⊢
  generalize a * t % v = r at hsplit hrem ⊢
  have hgrown : a * (t + q) = q * v + r + q * a := by
    rw [mul_add, ← hsplit]
    ring
  constructor
  · rintro ⟨hfair, -, hsame⟩
    rw [hfair] at hm hsame
    obtain ⟨hprice, -⟩ := (le_saturated_iff (by omega)).mp hm.le
    obtain ⟨-, hrange⟩ := (le_saturated_iff (by omega)).mp hsame.ge
    exact ⟨by linarith, hrange⟩
  · rintro ⟨hlost, hrange⟩
    have hqa : 0 ≤ q * a := by positivity
    have hnext : (q + 1) * (v + a) = q * v + q * a + v + a := by ring
    have hnext' : (q + 1) * (v + a + a) = q * v + q * a + q * a + v + a + a := by ring
    have hone : q * (v + a) = q * v + q * a := by ring
    have htwo : q * (v + a + a) = q * v + q * a + q * a := by ring
    obtain rfl : m = q := by
      rw [hm]
      apply le_antisymm
      · exact Int.lt_add_one_iff.mp (saturated_lt (by omega) (by omega))
      · exact (le_saturated_iff (by omega)).mpr ⟨by omega, by omega⟩
    refine ⟨rfl, ?_, le_antisymm ?_ ?_⟩
    · exact Int.lt_add_one_iff.mp (saturated_lt (by omega) (by omega))
    · exact Int.lt_add_one_iff.mp (saturated_lt (by omega) (by omega))
    · exact (le_saturated_iff (by omega)).mpr ⟨by omega, hrange⟩

/-- A deposit is priced fairly, the same amount is then withdrawn for no more shares and deposited
again for as many, exactly when what the deposit takes off its own price is lost in the rounding of
the fair price, and nothing saturates. -/
theorem deposit_fair_iff {W : Type} (n : Neighbours W) (signers : List Address) (s s' : State W)
    (investor token : Address) (tranche : TrancheClass) (amount : ℤ) (pool : TranchePool)
    (hpool : s.pools token = some pool) (hamount : amount < 2 ^ 127)
    (hshares : 0 < (pool.accounting tranche).totalShares)
    (hshares' : (pool.accounting tranche).totalShares < 2 ^ 127)
    (hvalue : 0 < (pool.accounting tranche).value)
    (hd : depositTranche n signers s investor token tranche amount = .ok s') :
    ∃ pool', s'.pools token = some pool' ∧
      (∀ signers₂ investor₂ s₂,
        withdrawTranche n signers₂ s' investor₂ token tranche amount = .ok s₂ →
        ∃ pool₂, s₂.pools token = some pool₂ ∧ (pool₂.accounting tranche).totalShares =
          (pool'.accounting tranche).totalShares - (pool'.accounting tranche).burned amount) ∧
      (∀ signers₂ investor₂ s₂,
        depositTranche n signers₂ s' investor₂ token tranche amount = .ok s₂ →
        ∃ pool₂, s₂.pools token = some pool₂ ∧ (pool₂.accounting tranche).totalShares =
          (pool'.accounting tranche).totalShares + (pool'.accounting tranche).minted amount) ∧
      ((pool'.accounting tranche).totalShares - (pool.accounting tranche).totalShares =
          (pool.accounting tranche).fair amount ∧
        (pool'.accounting tranche).burned amount ≤
          (pool'.accounting tranche).totalShares - (pool.accounting tranche).totalShares ∧
        (pool'.accounting tranche).minted amount =
          (pool'.accounting tranche).totalShares - (pool.accounting tranche).totalShares ↔
        (pool.accounting tranche).DilutionRoundedOff amount) := by
  obtain ⟨hpos, hrange, hsum, pool', hpool', hmoved⟩ := depositTranche_minted hpool hd
  refine ⟨pool', hpool', ?_, ?_, ?_⟩
  · intro signers₂ investor₂ s₂ hw
    obtain ⟨pool₂, hpool₂, hmoved₂⟩ := withdrawTranche_burned hpool' hw
    exact ⟨pool₂, hpool₂, by rw [hmoved₂]; rfl⟩
  · intro signers₂ investor₂ s₂ hd₂
    obtain ⟨-, -, -, pool₂, hpool₂, hmoved₂⟩ := depositTranche_minted hpool' hd₂
    exact ⟨pool₂, hpool₂, by rw [hmoved₂]; rfl⟩
  · have hvalue' : (pool'.accounting tranche).value = (pool.accounting tranche).value + amount := by
      rw [hmoved]
      unfold TrancheAccounting.value TrancheAccounting.moved
      dsimp only
      ring
    have htotal : (pool'.accounting tranche).totalShares =
        (pool.accounting tranche).totalShares + (pool.accounting tranche).minted amount := by
      rw [hmoved]
      rfl
    unfold InI128 at hrange hsum
    have hminted : (pool.accounting tranche).minted amount = _ :=
      calculateSharesToMint_eq hpos hamount (by omega) (by omega) hshares hshares'
    have hnn : 0 ≤ (pool.accounting tranche).minted amount := by
      rw [hminted]
      positivity
    have hburned : (pool'.accounting tranche).burned amount = _ :=
      calculateSharesToMint_eq hpos hamount (by omega) (by omega) (by omega) (by omega)
    have hagain : (pool'.accounting tranche).minted amount = _ :=
      calculateSharesToMint_eq hpos hamount (by omega) (by omega) (by omega) (by omega)
    rw [hburned, hagain, hvalue', htotal, add_sub_cancel_left]
    exact fair_iff hpos hshares hvalue hminted

theorem sampleConfig_valid : TrancheConfig.Valid ⟨1000, 8000, 10000⟩ := by decide

/-- A junior class of 100 shares that are worth 150. -/
def appreciatedPool : TranchePool where
  seniorShareToken := 20
  juniorShareToken := 21
  config := ⟨⟨1000, 8000, 10000⟩, sampleConfig_valid⟩
  junior := { deposited := 100, available := 150, earned := 50, totalShares := 100 }

theorem deposit_fair_iff_appreciated :
    ∃ s' pool', depositTranche quietNeighbours [3] (samplePool.setPool 10 appreciatedPool) 3 10
        .Junior 2 = .ok s' ∧
      s'.pools 10 = some pool' ∧ pool'.junior.totalShares - 100 = 1 ∧
      pool'.junior.minted 2 = pool'.junior.totalShares - 100 := by
  obtain ⟨s', hs', -⟩ := exists_of_check
    (x := depositTranche quietNeighbours [3]
      (samplePool.setPool 10 appreciatedPool) 3 10 .Junior 2)
    (p := fun _ => true) (by decide)
  obtain ⟨pool', hpool', -, -, hiff⟩ := deposit_fair_iff quietNeighbours [3] _ s' 3 10
    .Junior 2 appreciatedPool rfl (by norm_num) (by decide) (by decide) (by decide) hs'
  obtain ⟨hfair, -, hsame⟩ := hiff.mpr ⟨by decide, by decide⟩
  exact ⟨s', pool', hs', hpool', hfair, hsame⟩

/-- The first deposit is priced at par.  An equal one then mints half of its 1 000 shares, and
cannot be withdrawn, since it would burn 750. -/
theorem second_deposit_underpriced :
    ∃ s s' pool pool',
      depositTranche quietNeighbours [3] samplePool 3 10 .Junior 1000 = .ok s ∧
      s.pools 10 = some pool ∧ pool.junior.totalShares = 1000 ∧ pool.junior.value = 1000 ∧
      depositTranche quietNeighbours [5] s 5 10 .Junior 1000 = .ok s' ∧
      s'.pools 10 = some pool' ∧ pool.junior.fair 1000 = 1000 ∧
      pool'.junior.totalShares - pool.junior.totalShares = 500 ∧
      pool'.junior.burned 1000 = 750 ∧
      withdrawTranche quietNeighbours [5] s' 5 10 .Junior 1000 =
        .error (.error .InsufficientBalance) := by
  obtain ⟨s, hs, hp⟩ := exists_of_check
    (x := depositTranche quietNeighbours [3] samplePool 3 10 .Junior 1000)
    (p := fun s => decide (∃ pool ∈ s.pools 10, pool.junior.totalShares = 1000 ∧
        pool.junior.value = 1000 ∧ pool.junior.fair 1000 = 1000) &&
      check (depositTranche quietNeighbours [5] s 5 10 .Junior 1000) fun s' =>
        decide (∃ pool' ∈ s'.pools 10, pool'.junior.totalShares = 1500 ∧
          pool'.junior.burned 1000 = 750) &&
        fails (withdrawTranche quietNeighbours [5] s' 5 10 .Junior 1000)
          (.error .InsufficientBalance)) (by decide)
  rw [Bool.and_eq_true, decide_eq_true_eq] at hp
  obtain ⟨⟨pool, hpool, hshares, hvalue, hfair⟩, hsecond⟩ := hp
  obtain ⟨s', hs', hp'⟩ := exists_of_check hsecond
  rw [Bool.and_eq_true, decide_eq_true_eq] at hp'
  obtain ⟨⟨pool', hpool', hshares', hburned⟩, hrefused⟩ := hp'
  exact ⟨s, s', pool, pool', hs, hpool, hshares, hvalue, hs', hpool', hfair, by omega, hburned,
    of_fails hrefused⟩

end Astera.Tranche
