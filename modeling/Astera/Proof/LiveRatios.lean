import Astera.Auction.System

/-!
# Liquidation of covered positions

`compute_live_ratio` reports 100 % for a position that requires no collateral, and `danger_bps` is
above that, so a deposit that nothing requires is seized.  The ratio of any other position is exact
up to products that leave an `i128` and quotients that leave a `u32`.
-/

namespace Astera.Auction

open Fallible Machine Transition

variable {W : Type}

/-! ## Positions -/

/-- An invoice with a deposit that is not settled, at the current prices. -/
structure Quoted (h : Host W) (s : State W) (invoiceId : ℕ) (deposit : Pool.CollateralDeposit)
    (funded : Pool.FundedInvoice) (collateralPrice fundingPrice : ℤ) : Prop where
  getDeposit : s.ledger.collateral.get invoiceId = some deposit
  settled : deposit.settled = false
  getFunded : s.ledger.funded.get invoiceId = some funded
  depositPrice : s.fetchPrice h deposit.token = .ok collateralPrice
  fundedPrice : s.fetchPrice h funded.token = .ok fundingPrice
  amount : 0 < deposit.amount
  principal : 0 < funded.principal ∧ funded.principal < 2 ^ 127

def required (deposit : Pool.CollateralDeposit) (funded : Pool.FundedInvoice) : ℤ :=
  if funded.principal < deposit.thresholdAtDeposit then 0
  else funded.principal * deposit.collateralBpsAtDeposit / 10000

def ratioOf (value requiredValue : ℤ) : Res ℕ :=
  if 2 ^ 127 ≤ value ∨ 2 ^ 127 ≤ requiredValue then .error (.error .AmountOverflow)
  else if 2 ^ 127 ≤ value * 10000 then .error .overflow
  else .ok (toU 32 (value * 10000 / requiredValue))

section Ratios

variable {h : Host W} {s : State W} {invoiceId : ℕ} {deposit : Pool.CollateralDeposit}
  {funded : Pool.FundedInvoice} {collateralPrice fundingPrice : ℤ}

theorem fetchPrice_pos {token : Address} {price : ℤ} (hprice : s.fetchPrice h token = .ok price) :
    0 < price := by
  unfold State.fetchPrice at hprice
  split at hprice
  · split_ifs at hprice with hpos
    obtain rfl := Except.ok.inj hprice
    exact hpos
  · cases hprice

theorem requiredCollateral_eq {principal threshold : ℤ} {bps : ℕ} (hp : 0 < principal)
    (hmax : principal < 2 ^ 127) :
    requiredCollateral principal threshold bps =
      if principal < threshold then .ok 0
      else if principal * bps < 2 ^ 128 then .ok (principal * bps / 10000) else .error .overflow := by
  lift principal to ℕ using hp.le
  have hcast : toU 128 (principal : ℤ) = principal := by
    exact_mod_cast toU_of_nonneg 128 (principal : ℤ) hp.le (by omega)
  unfold requiredCollateral
  rw [hcast]
  refine if_congr Iff.rfl rfl ?_
  by_cases hfits : principal * bps < 2 ^ 128
  · rw [fitU, if_pos hfits, if_pos (by exact_mod_cast hfits)]
    simp only [okOr, ok_bind]
    rw [toI128, if_pos (by omega), Int.natCast_ediv, Nat.cast_mul]
    rfl
  · rw [fitU, if_neg hfits, if_neg (by exact_mod_cast hfits)]
    rfl

theorem okOr_fit {x : ℤ} (hx : 0 ≤ x) (e : Fault) :
    okOr (fit x) e = if x < 2 ^ 127 then .ok x else .error e := by
  by_cases hlt : x < 2 ^ 127
  · rw [if_pos hlt, okOr_eq_ok, fit_eq_some]
    exact ⟨rfl, by omega, hlt⟩
  · rw [if_neg hlt, fit, if_neg fun hin => hlt hin.2]
    rfl

theorem computeLiveRatio_eq
    (hq : Quoted h s invoiceId deposit funded collateralPrice fundingPrice) :
    s.computeLiveRatio h invoiceId =
      if deposit.thresholdAtDeposit ≤ funded.principal ∧
          2 ^ 128 ≤ funded.principal * deposit.collateralBpsAtDeposit then .error .overflow
      else if required deposit funded = 0 then .ok 10000
      else ratioOf (deposit.amount * collateralPrice) (required deposit funded * fundingPrice) := by
  have hfunded := fetchPrice_pos hq.fundedPrice
  have hdeposit := (okOr_eq_ok _ (.error .DepositNotFound : Fault) _).2 hq.getDeposit
  have hinvoice := (okOr_eq_ok _ (.error .InvoiceNotFound : Fault) _).2 hq.getFunded
  have hsettled := (require_eq_ok _ (.error .CollateralAlreadySettled : Fault) ()).2 hq.settled
  unfold State.computeLiveRatio
  simp only [hdeposit, hinvoice, hsettled, hq.depositPrice, hq.fundedPrice, ok_bind,
    requiredCollateral_eq hq.principal.1 hq.principal.2]
  by_cases hbelow : funded.principal < deposit.thresholdAtDeposit
  · have hnone : required deposit funded = 0 := if_pos hbelow
    rw [if_pos hbelow, if_neg (fun hand => absurd hand.1 (not_le.2 hbelow)), if_pos hnone]
    rfl
  rw [if_neg hbelow]
  by_cases hfits : funded.principal * deposit.collateralBpsAtDeposit < 2 ^ 128
  · have hreq : required deposit funded =
        funded.principal * deposit.collateralBpsAtDeposit / 10000 := if_neg hbelow
    have hnn : 0 ≤ required deposit funded := by
      have := hq.principal.1
      rw [hreq]
      positivity
    rw [if_pos hfits, if_neg (fun hand => absurd hfits (not_lt.2 hand.2)), ok_bind, ← hreq]
    by_cases hzero : required deposit funded = 0
    · rw [if_pos hzero.le, if_pos hzero]
      rfl
    · have hvalue : 0 < deposit.amount * collateralPrice := mul_pos hq.amount (fetchPrice_pos hq.depositPrice)
      have hrequired : 0 < required deposit funded * fundingPrice := mul_pos (by omega) hfunded
      rw [if_neg (by omega), if_neg hzero]
      unfold ratioOf checkedMul
      generalize deposit.amount * collateralPrice = value at hvalue ⊢
      generalize required deposit funded * fundingPrice = requiredValue at hrequired ⊢
      rw [okOr_fit hvalue.le, okOr_fit hrequired.le]
      by_cases hv : value < 2 ^ 127
      · by_cases hr : requiredValue < 2 ^ 127
        · rw [if_pos hv, if_pos hr, if_neg (not_or.2 ⟨not_le.2 hv, not_le.2 hr⟩)]
          simp only [ok_bind, bpsDenom]
          rw [if_neg (not_le.2 hrequired), okOr_fit (by omega)]
          by_cases hscaled : value * 10000 < 2 ^ 127
          · rw [if_pos hscaled, if_neg (not_le.2 hscaled), ← Int.tdiv_eq_ediv_of_nonneg (by omega)]
            rfl
          · rw [if_neg hscaled, if_pos (not_lt.1 hscaled)]
            rfl
        · rw [if_pos hv, if_neg hr, if_pos (Or.inr (not_lt.1 hr))]
          rfl
      · rw [if_neg hv, if_pos (Or.inl (not_lt.1 hv))]
        rfl
  · rw [if_neg hfits, if_pos ⟨not_lt.1 hbelow, not_lt.1 hfits⟩]
    rfl

theorem ratio_of_check {signers : List Address} {caller : Address} {s' : State W}
    (hx : checkCollateralRisk h signers s caller invoiceId = .ok (s', true)) :
    ∃ ratio, s.computeLiveRatio h invoiceId = .ok ratio ∧
      ratio < s.getCollateralRiskConfig.dangerBps := by
  simp only [checkCollateralRisk, bind_eq_ok, exists_unit] at hx
  obtain ⟨-, ratio, hratio, hx⟩ := hx
  split_ifs at hx with hdanger
  · exact ⟨ratio, hratio, hdanger⟩
  · simp at hx

theorem ratio_of_liquidate {signers : List Address} {caller : Address} {s' : State W}
    (hx : liquidateCollateral h signers s caller invoiceId = .ok (s', true)) :
    ∃ ratio, s.computeLiveRatio h invoiceId = .ok ratio ∧
      ratio < s.getCollateralRiskConfig.dangerBps := by
  simp only [liquidateCollateral, bind_eq_ok, exists_unit] at hx
  obtain ⟨-, ratio, hratio, -, -, -, hx⟩ := hx
  split_ifs at hx with hsafe
  · simp at hx
  · exact ⟨ratio, hratio, not_le.1 hsafe⟩

theorem check_of_ratio {ratio : ℕ} (hratio : s.computeLiveRatio h invoiceId = .ok ratio)
    (hdanger : ratio < s.getCollateralRiskConfig.dangerBps) (caller : Address) :
    ∃ s', checkCollateralRisk h [caller] s caller invoiceId = .ok (s', true) := by
  have hauth : requireAuth [caller] caller = .ok () := requireAuth_eq_ok.2 List.mem_cons_self
  unfold checkCollateralRisk
  rw [hauth, ok_bind, hratio, ok_bind, if_pos hdanger]
  cases s.atRiskSince invoiceId with
  | none | some => exact ⟨_, rfl⟩

end Ratios

/-! ## Right judgements -/

/-- The position requires collateral, and the deposit is worth less of it than the limit. -/
def State.UnderCollateralised (s : State W) (deposit : Pool.CollateralDeposit)
    (funded : Pool.FundedInvoice) (collateralPrice fundingPrice : ℤ) : Prop :=
  0 < required deposit funded * fundingPrice ∧
    deposit.amount * collateralPrice * 10000 <
      s.getCollateralRiskConfig.dangerBps * (required deposit funded * fundingPrice)

/-- A computed ratio is the quotient, and the only failure is `AmountOverflow`. -/
def Computes (x : Res ℕ) (value requiredValue : ℤ) : Prop :=
  (∀ f, x = .error f → f = .error .AmountOverflow) ∧
    ∀ ratio, x = .ok ratio → 0 < requiredValue → (ratio : ℤ) = value * 10000 / requiredValue

def topUp (deposit : Pool.CollateralDeposit) (extra : ℤ) : Pool.CollateralDeposit :=
  { deposit with amount := deposit.amount + extra }

def State.toppedUp (s : State W) (invoiceId : ℕ) (deposit : Pool.CollateralDeposit) (extra : ℤ) :
    State W :=
  { s with ledger := { s.ledger with
      collateral := s.ledger.collateral.set invoiceId (topUp deposit extra) } }

/-- Only an under-collateralised position is flagged or seized, the ratio does not fall when the
deposit is topped up, and it is computed right before and after. -/
structure JudgesRight (h : Host W) (s : State W) (invoiceId : ℕ) (deposit : Pool.CollateralDeposit)
    (funded : Pool.FundedInvoice) (collateralPrice fundingPrice extra : ℤ) : Prop where
  flags : ∀ signers caller s', checkCollateralRisk h signers s caller invoiceId = .ok (s', true) →
    s.UnderCollateralised deposit funded collateralPrice fundingPrice
  seizes : ∀ signers caller s', liquidateCollateral h signers s caller invoiceId = .ok (s', true) →
    s.UnderCollateralised deposit funded collateralPrice fundingPrice
  rises : ∀ ratio ratio', s.computeLiveRatio h invoiceId = .ok ratio →
    (s.toppedUp invoiceId deposit extra).computeLiveRatio h invoiceId = .ok ratio' → ratio ≤ ratio'
  computes : Computes (s.computeLiveRatio h invoiceId) (deposit.amount * collateralPrice)
    (required deposit funded * fundingPrice)
  computesToppedUp : Computes ((s.toppedUp invoiceId deposit extra).computeLiveRatio h invoiceId)
    ((deposit.amount + extra) * collateralPrice) (required deposit funded * fundingPrice)

/-- The values are refused as too large, or the product and the quotient fit their types. -/
def Representable (value requiredValue : ℤ) : Prop :=
  (2 ^ 127 ≤ value ∨ 2 ^ 127 ≤ requiredValue) ∨
    value * 10000 < 2 ^ 127 ∧ value * 10000 < 2 ^ 32 * requiredValue

theorem computes_ratioOf_iff {value requiredValue : ℤ} (hvalue : 0 < value)
    (hrequired : 0 < requiredValue) :
    Computes (ratioOf value requiredValue) value requiredValue ↔
      Representable value requiredValue := by
  unfold ratioOf Representable Computes
  by_cases hlarge : 2 ^ 127 ≤ value ∨ 2 ^ 127 ≤ requiredValue
  · rw [if_pos hlarge]
    exact iff_of_true ⟨fun f hf => (Except.error.inj hf).symm, fun _ hx => by cases hx⟩ (.inl hlarge)
  rw [if_neg hlarge]
  by_cases hscaled : 2 ^ 127 ≤ value * 10000
  · rw [if_pos hscaled]
    refine iff_of_false (fun hall => ?_) (by omega)
    exact absurd (hall.1 _ rfl) (by decide)
  rw [if_neg hscaled]
  have hnn : 0 ≤ value * 10000 / requiredValue := by positivity
  have hlt : value * 10000 / requiredValue < 2 ^ 32 ↔ value * 10000 < 2 ^ 32 * requiredValue :=
    Int.ediv_lt_iff_lt_mul hrequired
  constructor
  · rintro ⟨-, hexact⟩
    refine .inr ⟨not_le.1 hscaled, hlt.1 ?_⟩
    rw [← hexact _ rfl hrequired, toU]
    have hmod := Int.emod_lt_of_pos (value * 10000 / requiredValue) (by norm_num : (0 : ℤ) < 2 ^ 32)
    omega
  · intro hfits
    have hfits := hfits.resolve_left hlarge
    refine ⟨fun f hf => (by cases hf), fun ratio hratio _ => ?_⟩
    rw [← Except.ok.inj hratio]
    exact toU_of_nonneg 32 _ hnn (hlt.2 hfits.2)

/-- What the pool admits and the contract is configured with is judged right, before and after a
top-up, exactly when the position requires collateral, the product of the principal and the required
share fits in a `u128`, and the values either overflow or leave room for the ratio. -/
theorem liquidates_under_collateralised_iff {h : Host W} {s : State W} {invoiceId : ℕ}
    {deposit : Pool.CollateralDeposit} {funded : Pool.FundedInvoice}
    {collateralPrice fundingPrice extra : ℤ}
    (hq : Quoted h s invoiceId deposit funded collateralPrice fundingPrice)
    (hconfig : 10000 < s.getCollateralRiskConfig.dangerBps) (hextra : 0 ≤ extra) :
    JudgesRight h s invoiceId deposit funded collateralPrice fundingPrice extra ↔
      deposit.thresholdAtDeposit ≤ funded.principal ∧
      10000 ≤ funded.principal * deposit.collateralBpsAtDeposit ∧
      funded.principal * deposit.collateralBpsAtDeposit < 2 ^ 128 ∧
      Representable (deposit.amount * collateralPrice) (required deposit funded * fundingPrice) ∧
      Representable ((deposit.amount + extra) * collateralPrice)
        (required deposit funded * fundingPrice) := by
  have hcp := fetchPrice_pos hq.depositPrice
  have hfp := fetchPrice_pos hq.fundedPrice
  have hvalue : 0 < deposit.amount * collateralPrice := mul_pos hq.amount hcp
  have hle : deposit.amount * collateralPrice ≤ (deposit.amount + extra) * collateralPrice :=
    mul_le_mul_of_nonneg_right (by omega) hcp.le
  have hq' : Quoted h (s.toppedUp invoiceId deposit extra) invoiceId (topUp deposit extra) funded
      collateralPrice fundingPrice :=
    ⟨Store.get_set_self _ _ _, hq.settled, hq.getFunded, hq.depositPrice, hq.fundedPrice,
      add_pos_of_pos_of_nonneg hq.amount hextra, hq.principal⟩
  have hratio := computeLiveRatio_eq hq
  have hratio' : (s.toppedUp invoiceId deposit extra).computeLiveRatio h invoiceId =
      if deposit.thresholdAtDeposit ≤ funded.principal ∧
          2 ^ 128 ≤ funded.principal * deposit.collateralBpsAtDeposit then .error .overflow
      else if required deposit funded = 0 then .ok 10000
      else ratioOf ((deposit.amount + extra) * collateralPrice)
        (required deposit funded * fundingPrice) := computeLiveRatio_eq hq'
  have hprod : 0 ≤ funded.principal * deposit.collateralBpsAtDeposit := by
    have := hq.principal.1
    positivity
  constructor
  · intro hj
    have hfits : ¬ (deposit.thresholdAtDeposit ≤ funded.principal ∧
        2 ^ 128 ≤ funded.principal * deposit.collateralBpsAtDeposit) := by
      intro hbad
      rw [if_pos hbad] at hratio
      exact absurd (hj.computes.1 _ hratio) (by decide)
    rw [if_neg hfits] at hratio hratio'
    have hpos : required deposit funded ≠ 0 := by
      intro hzero
      -- nothing is required: the ratio of 100 % is below the limit
      rw [if_pos hzero] at hratio
      obtain ⟨s', hx⟩ := check_of_ratio hratio hconfig 0
      have hunder := (hj.flags _ _ _ hx).1
      rw [hzero, zero_mul] at hunder
      exact lt_irrefl _ hunder
    rw [if_neg hpos] at hratio hratio'
    have habove : deposit.thresholdAtDeposit ≤ funded.principal := by
      by_contra hbelow
      exact hpos (if_pos (not_le.1 hbelow))
    have hreq : required deposit funded =
        funded.principal * deposit.collateralBpsAtDeposit / 10000 := if_neg (not_lt.2 habove)
    have hrequired : 0 < required deposit funded * fundingPrice := mul_pos (by omega) hfp
    have hcomputes := hj.computes
    have hcomputes' := hj.computesToppedUp
    rw [hratio, computes_ratioOf_iff hvalue hrequired] at hcomputes
    rw [hratio', computes_ratioOf_iff (hvalue.trans_le hle) hrequired] at hcomputes'
    exact ⟨habove, by omega, not_le.1 fun hlarge => hfits ⟨habove, hlarge⟩, hcomputes, hcomputes'⟩
  · rintro ⟨habove, hsome, hfits, hrep, hrep'⟩
    have hreq : required deposit funded =
        funded.principal * deposit.collateralBpsAtDeposit / 10000 := if_neg (not_lt.2 habove)
    have hrequired : 0 < required deposit funded * fundingPrice := mul_pos (by omega) hfp
    have hfits : ¬ (deposit.thresholdAtDeposit ≤ funded.principal ∧
        2 ^ 128 ≤ funded.principal * deposit.collateralBpsAtDeposit) := fun hbad => by omega
    have hpos : required deposit funded ≠ 0 := by omega
    rw [if_neg hfits, if_neg hpos] at hratio hratio'
    have hcomputes := (computes_ratioOf_iff hvalue hrequired).2 hrep
    have hcomputes' := (computes_ratioOf_iff (hvalue.trans_le hle) hrequired).2 hrep'
    rw [← hratio] at hcomputes
    rw [← hratio'] at hcomputes'
    have hunder : (∃ ratio, s.computeLiveRatio h invoiceId = .ok ratio ∧
        ratio < s.getCollateralRiskConfig.dangerBps) →
          s.UnderCollateralised deposit funded collateralPrice fundingPrice := by
      rintro ⟨ratio, hok, hdanger⟩
      have hexact := hcomputes.2 ratio hok hrequired
      exact ⟨hrequired, (Int.ediv_lt_iff_lt_mul hrequired).1 (by omega)⟩
    refine ⟨fun _ _ _ hx => hunder (ratio_of_check hx), fun _ _ _ hx => hunder (ratio_of_liquidate hx),
      fun ratio ratio' hok hok' => ?_, hcomputes, hcomputes'⟩
    have hexact := hcomputes.2 ratio hok hrequired
    have hexact' := hcomputes'.2 ratio' hok' hrequired
    have hmono := Int.ediv_le_ediv hrequired (mul_le_mul_of_nonneg_right hle (by norm_num : (0 : ℤ) ≤ 10000))
    omega

/-- 200 are deposited for an invoice that is funded with a principal; collateral is required from 1000
on. -/
def fundedWith (principal : ℤ) : List (Tx sampleHost) :=
  [⟨[1], self_ne_one, .pool (.setMaxInvestorConcentration 1 10000)⟩,
    ⟨[3], self_ne_three, .pool (.deposit 3 10 1000 none)⟩,
    ⟨[1], self_ne_one, .pool (.setParams (sampleParams 1))⟩,
    ⟨[4], self_ne_four, .pool (.depositCollateral 7 4 10 200)⟩,
    ⟨[1], self_ne_one, .pool (.fundInvoice 1 ⟨7, principal, 4, 31536001, 10⟩)⟩]

def flagAndWait : List (Tx sampleHost) :=
  [⟨[9], self_ne_nine, .checkCollateralRisk 9 7⟩, ⟨[], self_notMem_nil, .pool (.advance 259201)⟩,
    ⟨[1], self_ne_one, .pool (.setParams (sampleParams 259201))⟩]

def State.quotes (s : State Unit) (principal : ℤ) : Bool :=
  decide (∃ deposit ∈ s.ledger.collateral.get 7, ∃ funded ∈ s.ledger.funded.get 7,
    deposit.settled = false ∧ deposit.amount = 200 ∧ deposit.thresholdAtDeposit = 1000 ∧
      deposit.collateralBpsAtDeposit = 2000 ∧ funded.principal = principal ∧
      s.fetchPrice sampleHost deposit.token = .ok 1 ∧
      s.fetchPrice sampleHost funded.token = .ok 1 ∧ s.getCollateralRiskConfig.dangerBps = 12000)

theorem liquidates_under_collateralised_iff_funded :
    ∃ s deposit funded, Reaches (exec sampleHost) (fun _ _ => True) sampleStart s ∧
      Quoted sampleHost s 7 deposit funded 1 1 ∧
      JudgesRight sampleHost s 7 deposit funded 1 1 50 := by
  obtain ⟨s, hs, hp⟩ := exists_of_check (x := (fundedWith 1000).foldlM (exec sampleHost) sampleStart)
    (p := fun s => s.quotes 1000) (by decide)
  obtain ⟨deposit, hdeposit, funded, hfunded, hsettled, hamount, hthreshold, hbps, hprincipal, hcp, hfp,
    hdanger⟩ := of_decide_eq_true hp
  have hq : Quoted sampleHost s 7 deposit funded 1 1 :=
    ⟨hdeposit, hsettled, hfunded, hcp, hfp, by omega, by omega⟩
  refine ⟨s, deposit, funded, reaches_of_along .refl (along_of_forall (fun _ _ => trivial) _ _) hs, hq,
    (liquidates_under_collateralised_iff hq (by omega) (by norm_num)).2 ?_⟩
  rw [required, hamount, hthreshold, hbps, hprincipal]
  norm_num [Representable]

/-- A principal of 900 requires nothing: the deposit is flagged, and seized after the grace period. -/
theorem unrequired_deposit_seized :
    ¬ ∀ (s s' : State Unit) (deposit : Pool.CollateralDeposit) (funded : Pool.FundedInvoice)
      (collateralPrice fundingPrice : ℤ),
      Reaches (exec sampleHost) (fun _ _ => True) sampleStart s →
      Quoted sampleHost s 7 deposit funded collateralPrice fundingPrice →
      liquidateCollateral sampleHost [9] s 9 7 = .ok (s', true) →
      s.UnderCollateralised deposit funded collateralPrice fundingPrice := by
  intro hclaim
  obtain ⟨s, hs, hp⟩ := exists_of_check
    (x := (fundedWith 900 ++ flagAndWait).foldlM (exec sampleHost) sampleStart)
    (p := fun s => s.quotes 900 && check (liquidateCollateral sampleHost [9] s 9 7) fun x => x.2)
    (by decide)
  obtain ⟨hp, hseized⟩ := (Bool.and_eq_true _ _).mp hp
  obtain ⟨⟨s', _⟩, hseized, rfl⟩ := exists_of_check hseized
  obtain ⟨deposit, hdeposit, funded, hfunded, hsettled, hamount, hthreshold, hbps, hprincipal, hcp, hfp,
    hdanger⟩ := of_decide_eq_true hp
  have hq : Quoted sampleHost s 7 deposit funded 1 1 :=
    ⟨hdeposit, hsettled, hfunded, hcp, hfp, by omega, by omega⟩
  have hunder := (hclaim s s' deposit funded 1 1
    (reaches_of_along .refl (along_of_forall (fun _ _ => trivial) _ _) hs) hq hseized).1
  rw [required, if_pos (by omega)] at hunder
  omega

end Astera.Auction
