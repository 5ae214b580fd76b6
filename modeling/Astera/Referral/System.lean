import Astera.Linked.System
import Astera.Referral.Contract

/-!
# The pool and the referral registry on one ledger

A state is the pool's, whose neighbours are the registry and a value of `V`.  The pool calls the
registry by `poolHost`; the activities that the registry records are kept as a history.
-/

namespace Astera.Referral

open Fallible Machine Transition
open Pool (ActivityKind)

variable {V : Type}

/-- An activity of a referee, with the rate at which it was rewarded and the reward. -/
structure Activity where
  referee : Address
  token : Address
  fee : ℤ
  bps : ℕ
  reward : ℤ
  deriving DecidableEq

structure World (V : Type) where
  registry : Registry
  /-- The activities of referees with a referrer, the newest first. -/
  activities : List Activity
  others : V

/-- The ledger of the two contracts. -/
abbrev State (V : Type) := Pool.State (World V)

/-- Where the two contracts stand. -/
structure Host (V : Type) where
  /-- The pool, and what the others around it answer. -/
  pool : Pool.Host V
  /-- `env.current_contract_address()` of the registry. -/
  self : Address
  self_ne_pool : self ≠ pool.self

def World.recorded (w : World V) (referee token : Address) (kind : ActivityKind) (fee : ℤ)
    (registry : Registry) (reward : ℤ) : World V :=
  { w with
    registry := registry
    activities :=
      if (w.registry.referrer referee).isSome then
        { referee := referee
          token := token
          fee := fee
          bps := w.registry.rewardBps kind
          reward := reward } :: w.activities
      else w.activities }

/-- The neighbours of the pool: the registry at its address, and what the host says of the others.
-/
def poolHost (h : Host V) : Pool.Host (World V) where
  self := h.pool.self
  getAuthorizedPool := fun w => h.pool.getAuthorizedPool w.others
  isInvoiceDefaulted := fun w => h.pool.isInvoiceDefaulted w.others
  recordFunding := fun w contract id amount =>
    { w with others := h.pool.recordFunding w.others contract id amount }
  markCancelled := fun w contract id =>
    (h.pool.markCancelled w.others contract id).map fun v => { w with others := v }
  isCleared := fun w => h.pool.isCleared w.others
  getCreditScore := fun w => h.pool.getCreditScore w.others
  recordCreditFunding := fun w contract id sme amount =>
    { w with others := h.pool.recordCreditFunding w.others contract id sme amount }
  purchaseCoverage := fun w contract request =>
    (h.pool.purchaseCoverage w.others contract request).map fun x => (x.1, { w with others := x.2 })
  recordActivity := fun w contract referee kind fee token =>
    if contract = h.self then
      match recordActivity [h.pool.self] w.registry h.pool.self referee kind fee token with
      | .ok (registry, reward) => some (reward, w.recorded referee token kind fee registry reward)
      | .error _ => none
    else (h.pool.recordActivity w.others contract referee kind fee token).map fun x =>
      (x.1, { w with others := x.2 })
  lastPrice := fun w => h.pool.lastPrice w.others
  decimals := fun w => h.pool.decimals w.others

/-- The entrypoints of the registry that write a setting. -/
inductive Setting
  | pause (admin : Address)
  | unpause (admin : Address)
  | setPool (admin pool : Address)
  | setBorrowRewardBps (admin : Address) (bps : ℕ)
  | setDepositRewardBps (admin : Address) (bps : ℕ)
  | setLifetimeRewardCap (admin token : Address) (cap : ℤ) (fits : InI128 cap)
  | setAccessControl (admin accessControl : Address)
  | setAccessControlViaAc (accessControl newAccessControl : Address)
  | setPausedViaAc (accessControl : Address) (paused : Bool)
  | setPoolViaAc (accessControl pool : Address)
  | setBorrowRewardBpsViaAc (accessControl : Address) (bps : ℕ)
  | setDepositRewardBpsViaAc (accessControl : Address) (bps : ℕ)
  deriving DecidableEq

def applySetting (signers : List Address) (r : Registry) : Setting → Res Registry
  | .pause admin => pause signers r admin
  | .unpause admin => unpause signers r admin
  | .setPool admin pool => setPool signers r admin pool
  | .setBorrowRewardBps admin bps => setBorrowRewardBps signers r admin bps
  | .setDepositRewardBps admin bps => setDepositRewardBps signers r admin bps
  | .setLifetimeRewardCap admin token cap _ => setLifetimeRewardCap signers r admin token cap
  | .setAccessControl admin accessControl => setAccessControl signers r admin accessControl
  | .setAccessControlViaAc accessControl newAccessControl =>
    setAccessControlViaAc signers r accessControl newAccessControl
  | .setPausedViaAc accessControl paused => setPausedViaAc signers r accessControl paused
  | .setPoolViaAc accessControl pool => setPoolViaAc signers r accessControl pool
  | .setBorrowRewardBpsViaAc accessControl bps => setBorrowRewardBpsViaAc signers r accessControl bps
  | .setDepositRewardBpsViaAc accessControl bps =>
    setDepositRewardBpsViaAc signers r accessControl bps

inductive LedgerFault
  | pool (e : Pool.Fault)
  | registry (e : Fault)
  deriving DecidableEq

inductive Call (V : Type)
  | pool (call : Pool.Call (World V)) (own : call.own = true)
  | register (referee referrer : Address)
  | recordActivity (caller referee : Address) (kind : ActivityKind) (feeAmount : ℤ) (token : Address)
  | claimRewards (referrer token : Address)
  | set (setting : Setting)
  | others (world : V)
  | advance (now : ℕ)

/-- A call and the addresses that authorize it.  A contract cannot sign, so neither of the two is
among them. -/
structure Tx (h : Host V) where
  signers : List Address
  pool_not_mem : h.pool.self ∉ signers
  self_not_mem : h.self ∉ signers
  call : Call V

/-- The ledger with another storage of the registry. -/
def setRegistry (s : State V) (r : Registry) : State V :=
  { s with world := { s.world with registry := r } }

def claimRewards (h : Host V) (signers : List Address) (s : State V) (referrer token : Address) :
    Res (State V) := do
  let (r, amount) ← takeRewards signers s.world.registry (s.cash token h.self) referrer token
  let s := setRegistry s r
  if amount = 0 then return s
  else (s.transfer token h.self referrer amount).mapError fun _ => .token

/-- `record_activity`, called by someone else than the pool. -/
def recordActivityCall (signers : List Address) (s : State V) (caller referee : Address)
    (kind : ActivityKind) (feeAmount : ℤ) (token : Address) : Res (State V) := do
  let (r, reward) ← recordActivity signers s.world.registry caller referee kind feeAmount token
  return { s with world := s.world.recorded referee token kind feeAmount r reward }

def exec (h : Host V) (s : State V) (tx : Tx h) : Except LedgerFault (State V) :=
  let signers := tx.signers
  match tx.call with
  | .pool call _ => (Pool.exec (poolHost h) s ⟨signers, tx.pool_not_mem, call⟩).mapError .pool
  | .register referee referrer =>
    ((register signers s.world.registry referee referrer).map (setRegistry s)).mapError .registry
  | .recordActivity caller referee kind feeAmount token =>
    (recordActivityCall signers s caller referee kind feeAmount token).mapError .registry
  | .claimRewards referrer token => (claimRewards h signers s referrer token).mapError .registry
  | .set setting =>
    ((applySetting signers s.world.registry setting).map (setRegistry s)).mapError .registry
  | .others world => .ok { s with world := { s.world with others := world } }
  | .advance now => (Pool.advance s now).mapError .pool

/-- The ledger after both contracts are initialized, the registry for the pool. -/
def initialState (h : Host V) (now : ℕ) (others : V) (cash : Address → Address → ℤ)
    (shareTokens : Address → Share.ShareToken)
    (poolAdmin token share invoiceContract admin : Address) : State V :=
  Pool.initialState now
    { registry := initializeReferral admin h.pool.self, activities := [], others := others }
    cash shareTokens poolAdmin token share invoiceContract

/-! ## A sample ledger -/

/-- The pool at 0 and the registry at 40, beside others that accept everything. -/
def sampleHost : Host Unit where
  pool := Pool.quietHost
  self := 40
  self_ne_pool := by decide

/-- Two new contracts with the admin 1; the token is 10 and its share contract 20. -/
def sampleStart : State Unit :=
  initialState sampleHost 1 () (fun _ a => if a = 0 ∨ a = 40 then 0 else 1_000_000)
    (fun _ => Share.ShareToken.fresh 0) 1 10 20 2 1

/-- The pool's parameters with the registry and a fee of 10%. -/
def sampleParams : Pool.Params :=
  { sampleStart.params with
    config := { sampleStart.params.config with factoringFeeBps := 1_000 }
    referralRegistry := some 40 }

/-- Account 5 refers account 4, whose loan of 1000 is repaid with its fee. -/
def referredLoan : List (Tx sampleHost) :=
  [⟨[1], by decide, by decide, .set (.setLifetimeRewardCap 1 10 4 (by decide))⟩,
    ⟨[4], by decide, by decide, .register 4 5⟩,
    ⟨[1], by decide, by decide, .pool (.setParams sampleParams) rfl⟩,
    ⟨[1], by decide, by decide, .pool (.setMaxInvestorConcentration 1 10_000) rfl⟩,
    ⟨[3], by decide, by decide, .pool (.deposit 3 10 1_000 none) rfl⟩,
    ⟨[1], by decide, by decide, .pool (.fundInvoice 1 ⟨7, 1_000, 4, 31_536_001, 10⟩) rfl⟩,
    ⟨[4], by decide, by decide, .pool (.repayInvoice 4 ⟨7, 1_100⟩) rfl⟩]

/-!
# What a call of the referral registry does

One lemma for each entrypoint of the registry that reads a successful call backwards, and what a
write of a reward does to the sum of the unclaimed rewards.
-/

variable {h : Host V} {signers : List Address} {r r' : Registry}

@[simp]
theorem requireAuth_eq_ok {a : Address} {u : Unit} : requireAuth signers a = .ok u ↔ a ∈ signers := by
  simp [requireAuth]

@[simp]
theorem requireNotPaused_eq_ok {u : Unit} : r.requireNotPaused = .ok u ↔ r.paused = false := by
  simp [Registry.requireNotPaused]

/-- An unclaimed reward, in a token. -/
def owed (token : Address) (key : Address × Address) (amount : ℤ) : ℤ :=
  if key.2 = token then amount else 0

def Registry.liabilities (r : Registry) (token : Address) : ℤ := r.pendingReward.total (owed token)

theorem part_owed (r : Registry) (referrer token t : Address) :
    r.pendingReward.part (owed t) (referrer, token) =
      if token = t then r.pending referrer token else 0 := by
  unfold Store.part Registry.pending owed
  cases r.pendingReward.get (referrer, token) <;> simp

theorem liabilities_set (r : Registry) (referrer token : Address) (amount : ℤ) (t : Address) :
    ({ r with pendingReward := r.pendingReward.set (referrer, token) amount } : Registry).liabilities t =
      r.liabilities t + if token = t then amount - r.pending referrer token else 0 := by
  unfold Registry.liabilities
  rw [Store.total_set, part_owed]
  unfold owed
  split_ifs <;> ring

theorem pending_le_liabilities
    (hnn : ∀ key amount, r.pendingReward.get key = some amount → 0 ≤ amount) (referrer token : Address) :
    r.pending referrer token ≤ r.liabilities token := by
  have howed : ∀ key amount, r.pendingReward.get key = some amount → 0 ≤ owed token key amount := by
    intro key amount hget
    unfold owed
    split_ifs
    · exact hnn key amount hget
    · exact le_rfl
  have hle := Store.part_le_total howed (referrer, token)
  rw [part_owed, if_pos rfl] at hle
  exact hle

def Registry.credited (r : Registry) (referee referrer token : Address) (reward : ℤ) : Registry :=
  { r with
    pendingReward := r.pendingReward.set (referrer, token) (r.pending referrer token + reward)
    refereeRewardAccrued := Function.update r.refereeRewardAccrued (referee, token)
      (saturatingAdd (r.refereeRewardAccrued (referee, token)) reward) }

/-- A referee with its first activity: the counts and the leaderboard differ. -/
def Registry.counted (r : Registry) (activated : Address → Bool) (referralCount : Address → ℕ)
    (topReferrers : List LeaderboardEntry) : Registry :=
  { r with activated := activated, referralCount := referralCount, topReferrers := topReferrers }

theorem activate_eq_ok {referee referrer : Address} (hx : activate r referee referrer = .ok r') :
    ∃ activated referralCount topReferrers, r' = r.counted activated referralCount topReferrers := by
  unfold activate at hx
  split_ifs at hx
  · exact ⟨_, _, _, ((pure_eq_ok _ _).1 hx).symm⟩
  · simp only [bind_eq_ok, pure_eq_ok] at hx
    obtain ⟨_, -, rfl⟩ := hx
    exact ⟨_, _, _, rfl⟩

theorem credit_eq_ok {referee referrer token : Address} {reward : ℤ}
    (hx : credit r referee referrer token reward = .ok r') :
    r' = r.credited referee referrer token reward := by
  simp only [credit, bind_eq_ok, okOr_eq_ok, checkedAdd_eq_some, pure_eq_ok] at hx
  obtain ⟨_, ⟨rfl, -⟩, rfl⟩ := hx
  rfl

theorem calculatedReward_le {fee : ℤ} (hfee : 0 < fee) (bps : ℕ) :
    (saturatingMul fee bps).tdiv bpsDenom ≤ fee * bps / bpsDenom := by
  have hnn : 0 ≤ fee * (bps : ℤ) := mul_nonneg hfee.le (Int.natCast_nonneg bps)
  rw [Int.tdiv_eq_ediv_of_nonneg (saturatingMul_nonneg hfee.le (Int.natCast_nonneg bps))]
  exact Int.ediv_le_ediv (by decide) (saturatingMul_le _ _ (by omega))

/-- What `record_activity` did: nothing for a referee without referrer; else it counted the
activity, and credited a reward within the fee's share and the cap, or none. -/
theorem recordActivity_eq_ok {caller referee : Address} {kind : ActivityKind} {fee reward : ℤ}
    {token : Address} (hx : recordActivity signers r caller referee kind fee token = .ok (r', reward)) :
    caller ∈ signers ∧ caller = r.pool ∧
      (r.referrer referee = none ∧ r' = r ∧ reward = 0 ∨
        ∃ referrer activated referralCount topReferrers, r.referrer referee = some referrer ∧
          (r' = r.counted activated referralCount topReferrers ∧ reward = 0 ∨
            ∃ cap, r.lifetimeRewardCap token = some cap ∧ 0 < fee ∧ 0 < reward ∧
              reward ≤ fee * r.rewardBps kind / bpsDenom ∧
              reward ≤ cap - r.refereeRewardAccrued (referee, token) ∧
              r' = (r.counted activated referralCount topReferrers).credited referee referrer token
                reward)) := by
  simp only [recordActivity, bind_eq_ok, exists_unit, requireAuth_eq_ok, requireNotPaused_eq_ok,
    require_eq_ok] at hx
  obtain ⟨hsigned, -, hpool, hx⟩ := hx
  refine ⟨hsigned, hpool, ?_⟩
  cases hreferrer : r.referrer referee with
  | none =>
    simp only [hreferrer, pure_eq_ok, Prod.mk.injEq] at hx
    obtain ⟨rfl, rfl⟩ := hx
    exact .inl ⟨rfl, rfl, rfl⟩
  | some referrer =>
    simp only [hreferrer, bind_eq_ok] at hx
    obtain ⟨r₁, hactivate, hx⟩ := hx
    obtain ⟨activated, referralCount, topReferrers, rfl⟩ := activate_eq_ok hactivate
    refine .inr ⟨referrer, activated, referralCount, topReferrers, rfl, ?_⟩
    split_ifs at hx with hfee
    · obtain ⟨rfl, rfl⟩ := Prod.mk.inj ((pure_eq_ok _ _).1 hx)
      exact .inl ⟨rfl, rfl⟩
    · split at hx
      · obtain ⟨rfl, rfl⟩ := Prod.mk.inj ((pure_eq_ok _ _).1 hx)
        exact .inl ⟨rfl, rfl⟩
      · rename_i cap hcap
        have hpos : 0 < fee := not_le.1 hfee
        split_ifs at hx with hreward
        · simp only [bind_eq_ok, pure_eq_ok, Prod.mk.injEq] at hx
          obtain ⟨r₂, hcredit, rfl, rfl⟩ := hx
          refine .inr ⟨cap, hcap, hpos, hreward, ?_, ?_, credit_eq_ok hcredit⟩
          · exact (min_le_left _ _).trans (calculatedReward_le hpos (r.rewardBps kind))
          · -- what remains below the cap is positive, so its difference did not saturate
            show min _ (max (saturatingSub cap (r.refereeRewardAccrued (referee, token))) 0) ≤ _
            have hremaining : 0 < max (saturatingSub cap (r.refereeRewardAccrued (referee, token))) 0 :=
              lt_of_lt_of_le hreward (min_le_right _ _)
            unfold saturatingSub at *
            omega
        · obtain ⟨rfl, rfl⟩ := Prod.mk.inj ((pure_eq_ok _ _).1 hx)
          refine .inl ⟨rfl, ?_⟩
          have hcalculated : 0 ≤ (saturatingMul fee (r.rewardBps kind)).tdiv bpsDenom :=
            Int.tdiv_nonneg (saturatingMul_nonneg hpos.le (Int.natCast_nonneg _)) (by decide)
          have hremaining := le_max_right
            (saturatingSub cap (r.refereeRewardAccrued (referee, token))) 0
          exact le_antisymm (not_lt.1 hreward) (le_min hcalculated hremaining)

theorem takeRewards_eq_ok {balance amount : ℤ} {referrer token : Address}
    (hx : takeRewards signers r balance referrer token = .ok (r', amount)) :
    referrer ∈ signers ∧ (r' = r ∧ amount = 0 ∨ 0 < amount ∧ amount ≤ r.pending referrer token ∧
      r' = { r with pendingReward :=
        r.pendingReward.set (referrer, token) (r.pending referrer token - amount) }) := by
  simp only [takeRewards, bind_eq_ok, exists_unit, requireAuth_eq_ok, requireNotPaused_eq_ok] at hx
  obtain ⟨hsigned, -, hx⟩ := hx
  refine ⟨hsigned, ?_⟩
  split_ifs at hx with hzero hshort hnone <;>
    obtain ⟨rfl, rfl⟩ := Prod.mk.inj ((pure_eq_ok _ _).1 hx)
  · exact .inl ⟨rfl, rfl⟩
  · exact .inl ⟨rfl, rfl⟩
  · exact .inr ⟨not_le.1 hnone, hshort.le, rfl⟩
  · exact .inr ⟨not_le.1 hzero, le_rfl, rfl⟩

theorem takeRewards_of_covered {balance : ℤ} {referrer token : Address} (hsigned : referrer ∈ signers)
    (hrunning : r.paused = false) (hpos : 0 < r.pending referrer token)
    (hle : r.pending referrer token ≤ balance) :
    takeRewards signers r balance referrer token =
      .ok ({ r with pendingReward := r.pendingReward.set (referrer, token) 0 },
        r.pending referrer token) := by
  unfold takeRewards
  rw [(requireAuth_eq_ok (u := ())).2 hsigned, (requireNotPaused_eq_ok (u := ())).2 hrunning]
  simp only [bind, Except.bind, if_neg (not_le.2 hpos), if_neg (not_lt.2 hle), sub_self]
  rfl

structure SameRewards (r r' : Registry) : Prop where
  pendingReward : r'.pendingReward = r.pendingReward
  refereeRewardAccrued : r'.refereeRewardAccrued = r.refereeRewardAccrued

def Setting.namedPool : Setting → Option Address
  | .setPool _ pool | .setPoolViaAc _ pool => some pool
  | _ => none

def Setting.namedCap : Setting → Option (Address × ℤ)
  | .setLifetimeRewardCap _ token cap _ => some (token, cap)
  | _ => none

theorem applySetting_eq_ok {setting : Setting} (hx : applySetting signers r setting = .ok r') :
    SameRewards r r' ∧ r'.pool = setting.namedPool.getD r.pool ∧
      (setting.namedCap = none ∧ r'.lifetimeRewardCap = r.lifetimeRewardCap ∨
        ∃ token cap, setting.namedCap = some (token, cap) ∧ 0 ≤ cap ∧ cap < 2 ^ 127 ∧
          r'.lifetimeRewardCap = Function.update r.lifetimeRewardCap token (some cap)) := by
  cases setting with
  | setLifetimeRewardCap admin token cap fits =>
    simp only [applySetting, setLifetimeRewardCap, bind_eq_ok, exists_unit, require_eq_ok,
      pure_eq_ok] at hx
    obtain ⟨-, hnn, rfl⟩ := hx
    exact ⟨⟨rfl, rfl⟩, rfl, .inr ⟨token, cap, rfl, hnn, fits.2, rfl⟩⟩
  | setPool | setPoolViaAc | pause | unpause | setAccessControl | setAccessControlViaAc
  | setPausedViaAc =>
    simp only [applySetting, setPool, setPoolViaAc, pause, unpause, setAccessControl,
      setAccessControlViaAc, setPausedViaAc, bind_eq_ok, exists_unit, pure_eq_ok] at hx
    obtain ⟨-, rfl⟩ := hx
    exact ⟨⟨rfl, rfl⟩, rfl, .inl ⟨rfl, rfl⟩⟩
  | setBorrowRewardBps | setDepositRewardBps | setBorrowRewardBpsViaAc | setDepositRewardBpsViaAc =>
    simp only [applySetting, setBorrowRewardBps, setDepositRewardBps, setBorrowRewardBpsViaAc,
      setDepositRewardBpsViaAc, bind_eq_ok, exists_unit, pure_eq_ok] at hx
    obtain ⟨-, -, rfl⟩ := hx
    exact ⟨⟨rfl, rfl⟩, rfl, .inl ⟨rfl, rfl⟩⟩

theorem register_eq_ok {referee referrer : Address}
    (hx : register signers r referee referrer = .ok r') :
    r.referrer referee = none ∧
      r' = { r with referrer := Function.update r.referrer referee (some referrer) } := by
  simp only [register, bind_eq_ok, exists_unit, require_eq_ok, pure_eq_ok] at hx
  obtain ⟨-, -, -, -, hfree, rfl⟩ := hx
  exact ⟨hfree, rfl⟩

end Astera.Referral
