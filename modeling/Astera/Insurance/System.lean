import Astera.Lib.Transition
import Astera.Insurance.Contract

/-!
# The insurance reserve as a machine

`Call` lists the entrypoints, the passing of time, token transfers and moves of the other contracts;
a run is a run of `exec h` (`Transition.Reaches`).
-/

namespace Astera.Insurance

open Fallible Machine Transition

variable {W : Type}

inductive Setting
  | setPremiumConfig (admin : Address) (config : PremiumConfig)
  | setMinCoverageRatio (admin token : Address) (minRatioBps : ℕ)
  | setCreditScoreContract (admin creditScoreContract : Address)
  | pause (admin : Address)
  | unpause (admin : Address)
  | rotateAdmin (currentAdmin newAdmin : Address)
  | setMinReserveAmount (admin token : Address) (minAmount : ℤ)
  deriving DecidableEq

/-- What can happen to the reserve. -/
inductive Call (W : Type)
  | fundReserveFromTreasury (admin token : Address) (amount : ℤ)
  | purchaseCoverage (payer : Address) (invoiceId : ℕ) (principal : ℤ) (sme : Address) (dueDate : ℕ)
      (token : Address)
  | releaseCoverage (invoiceId : ℕ)
  | fileClaim (invoiceId : ℕ)
  | set (setting : Setting)
  | advance (now : ℕ)
  | elsewhere (world : W)
  | tokenTransfer (token sender receiver : Address) (amount : ℤ)

/-- A call and the addresses that authorize it.  A contract cannot sign, so the reserve is not among
them. -/
structure Tx (h : Host W) where
  signers : List Address
  self_not_mem : h.self ∉ signers
  call : Call W

def applySetting (signers : List Address) (s : State W) : Setting → Res (State W)
  | .setPremiumConfig admin config => setPremiumConfig signers s admin config
  | .setMinCoverageRatio admin token minRatioBps => setMinCoverageRatio signers s admin token minRatioBps
  | .setCreditScoreContract admin contract => setCreditScoreContract signers s admin contract
  | .pause admin => pause signers s admin
  | .unpause admin => unpause signers s admin
  | .rotateAdmin currentAdmin newAdmin => rotateAdmin signers s currentAdmin newAdmin
  | .setMinReserveAmount admin token minAmount => setMinReserveAmount signers s admin token minAmount

def advance (s : State W) (now : ℕ) : Res (State W) := do
  require (s.now ≤ now ∧ now < 2 ^ 64) .overflow
  return { s with now := now }

def tokenTransfer (signers : List Address) (s : State W) (token sender receiver : Address)
    (amount : ℤ) : Res (State W) := do
  requireAuth signers sender
  s.transfer token sender receiver amount

def exec (h : Host W) (s : State W) (tx : Tx h) : Res (State W) :=
  let signers := tx.signers
  match tx.call with
  | .fundReserveFromTreasury admin token amount => fundReserveFromTreasury h signers s admin token amount
  | .purchaseCoverage payer invoiceId principal sme dueDate token =>
    purchaseCoverage h signers s payer invoiceId principal sme dueDate token
  | .releaseCoverage invoiceId => releaseCoverage s invoiceId
  | .fileClaim invoiceId => fileClaim h s invoiceId
  | .set setting => applySetting signers s setting
  | .advance now => advance s now
  | .elsewhere world => .ok { s with world := world }
  | .tokenTransfer token sender receiver amount => tokenTransfer signers s token sender receiver amount

/-! ## A sample ledger -/

/-- The reserve at address 1, beside a pool that reports a loan of 1000 in default. -/
def sampleHost : Host Unit where
  self := 1
  getCreditScore := fun _ _ _ => none
  isInvoiceDefaulted := fun _ _ _ => some true
  getInvoiceVerificationState := fun _ _ _ => some (true, 1000)
  getFundedInvoice := fun _ _ _ => some (some { principal := 1000, repaidAmount := 0 })
  getCollateralDeposit := fun _ _ _ => some none
  receiveInsurancePayout := fun world _ _ _ _ _ => some world

theorem self_ne_three : sampleHost.self ∉ [3] := by decide
theorem self_notMem_nil : sampleHost.self ∉ [] := by decide

/-- A new reserve with the admin 2, the pool 3 and the invoice contract 4. -/
def sampleStart : State Unit :=
  initializeInsurance 5 () (fun _ a => if a = 1 then 0 else 10_000) 2 3 4

def sampleConfig : PremiumConfig where
  baseRateBps := 200
  tenorBpsPerDay := 0
  riskTiers := []
  defaultRiskMultiplierBps := 10_000
  minPremiumBps := 0
  maxPremiumBps := 10_000
  defaultCoverageBps := 5_000

/-- The admin sets the premiums and funds the reserve of token 9 with 5000, and the pool insures a
loan of 1000. -/
def samplePurchase : List (Tx sampleHost) :=
  [⟨[2], by decide, .set (.setPremiumConfig 2 sampleConfig)⟩,
    ⟨[2], by decide, .fundReserveFromTreasury 2 9 5_000⟩,
    ⟨[3], by decide, .purchaseCoverage 3 7 1_000 8 900_000 9⟩]

/-!
# What a call of the insurance reserve does

`exec_effect` reads a successful call backwards: what was checked, and the state it leaves.
-/

variable {h : Host W} {signers : List Address} {s s' : State W}

theorem Tx.self_ne {tx : Tx h} {a : Address} (ha : a ∈ tx.signers) : a ≠ h.self := by
  rintro rfl
  exact tx.self_not_mem ha

@[simp]
theorem requireAuth_eq_ok {a : Address} {u : Unit} : requireAuth signers a = .ok u ↔ a ∈ signers := by
  simp [requireAuth]

@[simp]
theorem reach_eq_ok {a : Address} {u : Unit} : h.reach a = .ok u ↔ a ≠ h.self := by
  simp [Host.reach]

@[simp]
theorem requireNotPaused_eq_ok {u : Unit} : s.requireNotPaused = .ok u ↔ s.paused = false := by
  simp [State.requireNotPaused]

@[simp]
theorem asAdmin_eq_ok {a : Address} {u : Unit} :
    s.asAdmin signers a = .ok u ↔ a ∈ signers ∧ a = s.config.admin := by
  simp [State.asAdmin, State.requireAdmin]

def State.moved (s : State W) (token sender receiver : Address) (amount : ℤ) : State W :=
  { s with
    balances := Function.update s.balances token
      (Ledger.move (s.balances token) sender receiver amount) }

theorem transfer_eq_ok {token sender receiver : Address} {amount : ℤ} :
    s.transfer token sender receiver amount = .ok s' ↔
      0 ≤ amount ∧ amount ≤ s.balances token sender ∧ s' = s.moved token sender receiver amount := by
  simp only [State.transfer, bind_eq_ok, okOr_eq_ok, Ledger.transfer_eq_some, pure_eq_ok]
  constructor
  · rintro ⟨balances, ⟨hnn, hle, rfl⟩, rfl⟩
    exact ⟨hnn, hle, rfl⟩
  · rintro ⟨hnn, hle, rfl⟩
    exact ⟨_, ⟨hnn, hle, rfl⟩, rfl⟩

theorem balances_moved (s : State W) (token sender receiver : Address) (amount : ℤ) (t : Address) :
    (s.moved token sender receiver amount).balances t =
      if t = token then Ledger.move (s.balances token) sender receiver amount else s.balances t := by
  unfold State.moved
  exact Function.update_apply _ _ _ _

theorem reserveFund_setReserve (s : State W) (token : Address) (reserve : ReserveFund) (t : Address) :
    (s.setReserve token reserve).reserveFund t = if t = token then reserve else s.reserveFund t := by
  unfold State.setReserve
  exact Function.update_apply _ _ _ _

def CoverageRecord.insured (record : CoverageRecord) : ℤ :=
  record.principal * record.coverageBps / bpsDenom

def CoverageRecord.Open (record : CoverageRecord) : Prop := record.claimed = false

instance (record : CoverageRecord) : Decidable record.Open := inferInstanceAs (Decidable (_ = _))

theorem coveredExposure_eq_ok {principal covered : ℤ} {bps : ℕ} :
    coveredExposure principal bps = .ok covered ↔
      InI128 (principal * bps) ∧ covered = (principal * bps).tdiv bpsDenom ∧
        InI128 ((principal * bps).tdiv bpsDenom) := by
  have hdenom : ((bpsDenom : ℕ) : ℤ) ≠ 0 := by decide
  simp only [coveredExposure, okOr_eq_ok, Option.bind_eq_some_iff, checkedMul_eq_some,
    checkedDiv_eq_some]
  constructor
  · rintro ⟨_, ⟨rfl, hmul⟩, -, hcovered, hdiv⟩
    exact ⟨hmul, hcovered, hdiv⟩
  · rintro ⟨hmul, hcovered, hdiv⟩
    exact ⟨_, ⟨rfl, hmul⟩, hdenom, hcovered, hdiv⟩

theorem coveredExposure_of_pos {principal covered : ℤ} {bps : ℕ} (hpos : 0 < principal)
    (hx : coveredExposure principal bps = .ok covered) :
    covered = principal * bps / bpsDenom ∧ 0 ≤ covered ∧ covered < 2 ^ 127 := by
  obtain ⟨-, rfl, hfits⟩ := coveredExposure_eq_ok.1 hx
  have hnn : 0 ≤ principal * bps := mul_nonneg hpos.le (Int.natCast_nonneg bps)
  exact ⟨Int.tdiv_eq_ediv_of_nonneg hnn, Int.tdiv_nonneg hnn (by decide), hfits.2⟩

theorem coveredExposure_of_covered_pos {principal covered : ℤ} {bps : ℕ} (hpos : 0 < covered)
    (hx : coveredExposure principal bps = .ok covered) :
    covered = principal * bps / bpsDenom ∧ covered < 2 ^ 127 := by
  obtain ⟨-, rfl, hfits⟩ := coveredExposure_eq_ok.1 hx
  have hnn : 0 ≤ principal * bps := by
    have hle := tdiv_mul_le (by decide) hpos
    have hdenom : (0 : ℤ) < (bpsDenom : ℕ) := by decide
    nlinarith
  exact ⟨Int.tdiv_eq_ediv_of_nonneg hnn, hfits.2⟩

theorem lessExposure_eq {total covered : ℤ} (hnn : 0 ≤ total) (hlt : total < 2 ^ 127)
    (hcovered : 0 ≤ covered) (hfits : covered < 2 ^ 127) :
    lessExposure total covered = max (total - covered) 0 := by
  have hin : InI128 (total - covered) := by
    unfold InI128
    omega
  unfold lessExposure
  rw [(checkedSub_eq_some total covered _).2 ⟨rfl, hin⟩, Option.getD_some]

/-! ## Effects -/

/-- The treasury funded the reserve. -/
def State.endowed (h : Host W) (s : State W) (admin token : Address) (amount : ℤ) : State W :=
  (s.moved token admin h.self amount).setReserve token
    { s.reserveFund token with
      totalReserves := (s.reserveFund token).totalReserves + amount }.recomputeRatio

/-- The reserve of a token with a new coverage. -/
def ReserveFund.insuring (reserve : ReserveFund) (premium covered : ℤ) : ReserveFund :=
  { reserve with
    totalReserves := reserve.totalReserves + premium
    totalPremiumsCollected := reserve.totalPremiumsCollected + premium
    totalCoveredExposure := reserve.totalCoveredExposure + covered }.recomputeRatio

/-- A coverage is stored and its premium is paid. -/
def State.covered (h : Host W) (s : State W) (payer : Address) (invoiceId : ℕ)
    (record : CoverageRecord) : State W :=
  { (s.moved record.token payer h.self record.premiumPaid).setReserve record.token
      ((s.reserveFund record.token).insuring record.premiumPaid record.insured) with
    coverageRecords := s.coverageRecords.set invoiceId record }

def State.paidOut (h : Host W) (s : State W) (invoiceId : ℕ) (record : CoverageRecord)
    (shortfall payout : ℤ) (world : W) : State W :=
  let reserve := s.reserveFund record.token
  let paidToDate := record.paidToDate + payout
  { (s.moved record.token h.self s.config.poolContract payout).setReserve record.token
      (reserve.paid (reserve.totalReserves - payout) (reserve.totalClaimsPaid + payout) record.insured
        paidToDate) with
    world := world
    coverageRecords := s.coverageRecords.set invoiceId (record.paid record.insured paidToDate)
    claimHistory := Function.update s.claimHistory invoiceId (s.claimHistory invoiceId ++ [{
      invoiceId := invoiceId
      token := record.token
      payout := payout
      shortfalls := shortfall
      timestamp := s.now }]) }

/-- What a setter leaves of a reserve. -/
structure SameFund (r r' : ReserveFund) : Prop where
  reserves : r'.totalReserves = r.totalReserves
  premiums : r'.totalPremiumsCollected = r.totalPremiumsCollected
  claims : r'.totalClaimsPaid = r.totalClaimsPaid
  exposure : r'.totalCoveredExposure = r.totalCoveredExposure

/-- Nothing but the settings differs. -/
structure SameBooks (s s' : State W) : Prop where
  world : s'.world = s.world
  balances : s'.balances = s.balances
  funds : ∀ token, SameFund (s.reserveFund token) (s'.reserveFund token)
  coverageRecords : s'.coverageRecords = s.coverageRecords
  instanceRecords : s'.instanceRecords = s.instanceRecords
  claimHistory : s'.claimHistory = s.claimHistory

inductive Effect (h : Host W) (s : State W) (tx : Tx h) : State W → Prop
  | endowed {admin token : Address} {amount : ℤ}
      (hcall : tx.call = .fundReserveFromTreasury admin token amount) (hsigned : admin ∈ tx.signers)
      (hpos : 0 < amount) : Effect h s tx (s.endowed h admin token amount)
  | covered {payer : Address} {invoiceId : ℕ} {principal : ℤ} {sme : Address} {dueDate : ℕ}
      {token : Address} {record : CoverageRecord}
      (hcall : tx.call = .purchaseCoverage payer invoiceId principal sme dueDate token)
      (hsigned : payer ∈ tx.signers) (hrunning : s.paused = false)
      (hfree : s.coverageRecords.get invoiceId = none)
      (htoken : record.token = token) (hprincipal : 0 < record.principal)
      (hpremium : 0 < record.premiumPaid) (hopen : record.Open) (hpaid : record.paidToDate = 0)
      (hinsured : 0 ≤ record.insured)
      (hfits : (s.reserveFund token).totalCoveredExposure + record.insured < 2 ^ 127)
      (hratio : ¬ (0 < (s.reserveFund token).totalCoveredExposure + record.insured ∧
        ratioBps ((s.reserveFund token).totalReserves + record.premiumPaid)
          ((s.reserveFund token).totalCoveredExposure + record.insured) <
            (s.reserveFund token).minCoverageRatioBps)) :
      Effect h s tx (s.covered h payer invoiceId record)
  | released {invoiceId : ℕ} {record : CoverageRecord} {s' : State W}
      (hcall : tx.call = .releaseCoverage invoiceId)
      (hget : s.instanceRecords.get invoiceId = some record) : Effect h s tx s'
  | paidOut {invoiceId : ℕ} {record : CoverageRecord} {shortfall payout : ℤ} {world : W}
      (hcall : tx.call = .fileClaim invoiceId)
      (hget : s.coverageRecords.get invoiceId = some record)
      (hpool : s.config.poolContract ≠ h.self)
      (hshortfall : shortfallOf h s invoiceId = .ok shortfall)
      (hpayout : payout =
        min (min record.insured shortfall) (s.reserveFund record.token).totalReserves)
      (hpos : 0 < payout) (hinsured : record.insured < 2 ^ 127) :
      Effect h s tx (s.paidOut h invoiceId record shortfall payout world)
  | configured {setting : Setting} {s' : State W} (hcall : tx.call = .set setting)
      (hsame : SameBooks s s') : Effect h s tx s'
  | advanced {now : ℕ} (hcall : tx.call = .advance now) : Effect h s tx { s with now := now }
  | elsewhere {world : W} (hcall : tx.call = .elsewhere world) :
      Effect h s tx { s with world := world }
  | moved {token sender receiver : Address} {amount : ℤ}
      (hcall : tx.call = .tokenTransfer token sender receiver amount) (hsigned : sender ∈ tx.signers) :
      Effect h s tx (s.moved token sender receiver amount)

theorem fundReserveFromTreasury_effect {tx : Tx h} {admin token : Address} {amount : ℤ}
    (hcall : tx.call = .fundReserveFromTreasury admin token amount)
    (hx : fundReserveFromTreasury h tx.signers s admin token amount = .ok s') : Effect h s tx s' := by
  simp only [fundReserveFromTreasury, bind_eq_ok, exists_unit, asAdmin_eq_ok, require_eq_ok,
    transfer_eq_ok, okOr_eq_ok, checkedAdd_eq_some, pure_eq_ok] at hx
  obtain ⟨⟨hsigned, -⟩, hpos, _, ⟨-, -, rfl⟩, _, ⟨rfl, -⟩, rfl⟩ := hx
  exact .endowed hcall hsigned hpos

theorem purchaseCoverage_effect {tx : Tx h} {payer : Address} {invoiceId : ℕ} {principal : ℤ}
    {sme : Address} {dueDate : ℕ} {token : Address}
    (hcall : tx.call = .purchaseCoverage payer invoiceId principal sme dueDate token)
    (hx : purchaseCoverage h tx.signers s payer invoiceId principal sme dueDate token = .ok s') :
    Effect h s tx s' := by
  simp only [purchaseCoverage, bind_eq_ok, exists_unit, requireAuth_eq_ok, requireNotPaused_eq_ok,
    require_eq_ok, reach_eq_ok, okOr_eq_ok, transfer_eq_ok, checkedAdd_eq_some, pure_eq_ok] at hx
  obtain ⟨hsigned, hrunning, -, hprincipal, -, _, -, hfree, config, -, premium, -, hpremium, covered,
    hcovered, _, ⟨rfl, hexposure⟩, _, ⟨rfl, -⟩, hratio, _, ⟨-, -, rfl⟩, _, ⟨rfl, -⟩, rfl⟩ := hx
  obtain ⟨rfl, hnn, -⟩ := coveredExposure_of_pos hprincipal hcovered
  show Effect h s tx (s.covered h payer invoiceId {
    invoiceId := invoiceId
    token := token
    principal := principal
    premiumPaid := premium
    coverageBps := config.defaultCoverageBps
    purchasedAt := s.now
    claimed := false
    paidToDate := 0 })
  exact .covered hcall hsigned hrunning hfree rfl hprincipal hpremium rfl rfl hnn hexposure.2 hratio

theorem releaseCoverage_effect {tx : Tx h} {invoiceId : ℕ} (hcall : tx.call = .releaseCoverage invoiceId)
    (hx : releaseCoverage s invoiceId = .ok s') : Effect h s tx s' := by
  simp only [releaseCoverage, bind_eq_ok, exists_unit, okOr_eq_ok] at hx
  obtain ⟨-, record, hget, -⟩ := hx
  exact .released hcall hget

theorem fileClaim_effect {tx : Tx h} {invoiceId : ℕ} (hcall : tx.call = .fileClaim invoiceId)
    (hx : fileClaim h s invoiceId = .ok s') : Effect h s tx s' := by
  simp only [fileClaim, bind_eq_ok, exists_unit, requireNotPaused_eq_ok, require_eq_ok, reach_eq_ok,
    okOr_eq_ok, transfer_eq_ok, checkedSub_eq_some, checkedAdd_eq_some, pure_eq_ok] at hx
  obtain ⟨-, record, hget, -, _, -, -, shortfall, hshortfall, hpos, nominal, hnominal, hreserves, hpaid,
    _, ⟨-, -, rfl⟩, world, -, _, ⟨rfl, -⟩, _, ⟨rfl, -⟩, _, ⟨rfl, -⟩, -, rfl⟩ := hx
  have hpool : s.config.poolContract ≠ h.self := by
    simp only [shortfallOf, bind_eq_ok, exists_unit, reach_eq_ok] at hshortfall
    exact hshortfall.1
  have hpayout : max (min (min nominal shortfall) (s.reserveFund record.token).totalReserves) 0 =
      min (min nominal shortfall) (s.reserveFund record.token).totalReserves := by omega
  obtain ⟨rfl, hfits⟩ := coveredExposure_of_covered_pos (by omega) hnominal
  exact .paidOut hcall hget hpool hshortfall hpayout hpaid hfits

theorem SameFund.refl (r : ReserveFund) : SameFund r r := ⟨rfl, rfl, rfl, rfl⟩

theorem applySetting_same {setting : Setting} (hx : applySetting signers s setting = .ok s') :
    SameBooks s s' := by
  cases setting with
  | setMinCoverageRatio admin token minRatioBps =>
    simp only [applySetting, setMinCoverageRatio, bind_eq_ok, exists_unit, pure_eq_ok] at hx
    obtain ⟨-, -, rfl⟩ := hx
    refine ⟨rfl, rfl, fun t => ?_, rfl, rfl, rfl⟩
    rw [reserveFund_setReserve]
    split_ifs with ht
    · subst ht
      exact ⟨rfl, rfl, rfl, rfl⟩
    · exact .refl _
  | setPremiumConfig | setCreditScoreContract | pause | unpause | rotateAdmin | setMinReserveAmount =>
    simp only [applySetting, setPremiumConfig, setCreditScoreContract, pause, unpause, rotateAdmin,
      setMinReserveAmount, bind_eq_ok, exists_unit, pure_eq_ok] at hx
    obtain ⟨-, hx⟩ := hx
    first
      | subst hx
      | (obtain ⟨-, hx⟩ := hx; first | subst hx | (obtain ⟨-, rfl⟩ := hx))
    exact ⟨rfl, rfl, fun _ => .refl _, rfl, rfl, rfl⟩

theorem exec_effect {tx : Tx h} (hx : exec h s tx = .ok s') : Effect h s tx s' := by
  unfold exec at hx
  cases hcall : tx.call with
  | fundReserveFromTreasury =>
    simp only [hcall] at hx
    exact fundReserveFromTreasury_effect hcall hx
  | purchaseCoverage =>
    simp only [hcall] at hx
    exact purchaseCoverage_effect hcall hx
  | releaseCoverage =>
    simp only [hcall] at hx
    exact releaseCoverage_effect hcall hx
  | fileClaim =>
    simp only [hcall] at hx
    exact fileClaim_effect hcall hx
  | set =>
    simp only [hcall] at hx
    exact .configured hcall (applySetting_same hx)
  | advance =>
    simp only [hcall, advance, bind_eq_ok, exists_unit, pure_eq_ok] at hx
    obtain ⟨-, rfl⟩ := hx
    exact .advanced hcall
  | elsewhere =>
    simp only [hcall, Except.ok.injEq] at hx
    subst hx
    exact .elsewhere hcall
  | tokenTransfer =>
    simp only [hcall, tokenTransfer, bind_eq_ok, exists_unit, requireAuth_eq_ok,
      transfer_eq_ok] at hx
    obtain ⟨hsigned, -, -, rfl⟩ := hx
    exact .moved hcall hsigned

end Astera.Insurance
