import Astera.Tranche.Contract

/-!
# The advance rate of the senior class

`get_advance_rate_headroom` and the check of `deposit` round down on different sides of the
inequality, and agree on every amount.  While the configuration stays, the senior deposits stay
within the advance rate.
-/

namespace Astera.Tranche

open Fallible Machine Transition

variable {W : Type}
variable {token : Address} {tranche : TrancheClass} {p pool : TranchePool}

/-- No operation of the check or of the headroom leaves its range. -/
structure NoOverflow (p : TranchePool) (amount : ℤ) : Prop where
  total : InI128 (p.junior.deposited + p.senior.deposited)
  newTotal : InI128 (p.junior.deposited + p.senior.deposited + amount)
  product : InI128 (p.rate * (p.junior.deposited + p.senior.deposited + amount))
  newSenior : InI128 (p.senior.deposited + amount)
  juniorTerm : InI128 (p.rate * p.junior.deposited)
  seniorTerm : InI128 ((10000 - p.rate) * p.senior.deposited)
  numerator : InI128 (p.rate * p.junior.deposited - (10000 - p.rate) * p.senior.deposited)

section Headroom

variable {p : TranchePool} {amount : ℤ}

theorem checkAdvanceRate_iff (hn : NoOverflow p amount)
    (hnn : 0 ≤ p.junior.deposited + p.senior.deposited + amount) :
    checkAdvanceRate p amount = .ok () ↔
      (p.senior.deposited + amount) * 10000 ≤
        p.rate * (p.junior.deposited + p.senior.deposited + amount) := by
  unfold checkAdvanceRate
  simp only [bind_eq_ok, add_eq_ok, mul_eq_ok, require_eq_ok, hn.total, hn.newTotal, hn.product,
    hn.newSenior, and_true, exists_eq_left]
  rw [Int.tdiv_eq_ediv_of_nonneg (mul_nonneg p.rate_nonneg hnn),
    Int.le_ediv_iff_mul_le (by norm_num)]

theorem getAdvanceRateHeadroom_eq (hn : NoOverflow p amount) (hrate : p.rate < 10000) :
    getAdvanceRateHeadroom p =
      if p.rate * p.junior.deposited - (10000 - p.rate) * p.senior.deposited ≤ 0 then 0
      else (p.rate * p.junior.deposited - (10000 - p.rate) * p.senior.deposited).tdiv
        (10000 - p.rate) := by
  unfold getAdvanceRateHeadroom
  rw [if_neg (by omega), (checkedMul_eq_some _ _ _).2 ⟨rfl, hn.juniorTerm⟩]
  dsimp only
  rw [(checkedMul_eq_some _ _ _).2 ⟨rfl, hn.seniorTerm⟩]
  dsimp only
  rw [(checkedSub_eq_some _ _ _).2 ⟨rfl, hn.numerator⟩]

theorem checkAdvanceRate_iff_le_headroom (hn : NoOverflow p amount) (hrate : p.rate < 10000)
    (hnn : 0 ≤ p.junior.deposited + p.senior.deposited) (hpos : 0 < amount) :
    checkAdvanceRate p amount = .ok () ↔ amount ≤ getAdvanceRateHeadroom p := by
  rw [checkAdvanceRate_iff hn (by omega), getAdvanceRateHeadroom_eq hn hrate]
  have hslack : 0 < 10000 - p.rate := by omega
  -- the two sides of the check differ by the numerator less its share of the amount
  have hdiff : p.rate * (p.junior.deposited + p.senior.deposited + amount) -
      (p.senior.deposited + amount) * 10000 =
      p.rate * p.junior.deposited - (10000 - p.rate) * p.senior.deposited -
        amount * (10000 - p.rate) := by
    ring
  have hshare : 0 < amount * (10000 - p.rate) := mul_pos hpos hslack
  split_ifs with hnum
  · omega
  · rw [Int.tdiv_eq_ediv_of_nonneg (by omega), Int.le_ediv_iff_mul_le hslack]
    omega

end Headroom

/-! ## The deposits -/

def deposits (s : State W) (token : Address) (c : TrancheClass) : ℤ :=
  ((s.pools token).map fun p => (p.accounting c).deposited).getD 0

theorem deposits_of_some {s : State W} (h : s.pools token = some pool) (c : TrancheClass) :
    deposits s token c = (pool.accounting c).deposited := by
  simp [deposits, h]

def positionsIn (s : State W) (token : Address) (c : TrancheClass) : ℤ :=
  s.positions.total fun k v => if k.2 = (token, c) then v.deposited else 0

/-- The deposits are those of the investors, and no investor has a negative one. -/
structure Deposited (s : State W) : Prop where
  deposits_eq : ∀ token c, deposits s token c = positionsIn s token c
  nonneg : ∀ k v, s.positions.get k = some v → 0 ≤ v.deposited

section Deposits

variable {s s' : State W}

theorem Deposited.deposits_nonneg (h : Deposited s) (token : Address) (c : TrancheClass) :
    0 ≤ deposits s token c := by
  rw [h.deposits_eq]
  apply Store.total_nonneg
  intro k v hget
  split_ifs
  · exact h.nonneg k v hget
  · exact le_rfl

theorem Deposited.position_nonneg (h : Deposited s) (investor token : Address) (c : TrancheClass) :
    0 ≤ (s.position investor token c).deposited := by
  unfold State.position
  cases hget : s.positions.get (investor, token, c) with
  | none => exact le_rfl
  | some v => exact h.nonneg _ v hget

theorem Deposited.of_same (h : Deposited s) (hpositions : s'.positions = s.positions)
    (hdeposits : ∀ token c, deposits s' token c = deposits s token c) : Deposited s' := by
  refine ⟨fun token c => ?_, fun k v hget => ?_⟩
  · rw [hdeposits, h.deposits_eq]
    unfold positionsIn
    rw [hpositions]
  · rw [hpositions] at hget
    exact h.nonneg k v hget

theorem deposits_update (hpools : s'.pools = Function.update s.pools token (some pool))
    (t : Address) (c : TrancheClass) :
    deposits s' t c = if t = token then (pool.accounting c).deposited else deposits s t c := by
  unfold deposits
  rw [hpools, Function.update_apply]
  split_ifs <;> rfl

theorem deposits_moved {investor token : Address} {amount : ℤ} (hpool : s.pools token = some pool)
    (hm : Moved s investor token tranche amount pool s') (t : Address) (c : TrancheClass) :
    deposits s' t c = deposits s t c + if (t, c) = (token, tranche) then amount else 0 := by
  obtain ⟨totalShares, position, world, -, rfl⟩ := hm
  rw [deposits_update rfl, TranchePool.accounting_setAccounting]
  by_cases ht : t = token
  · subst ht
    rw [if_pos rfl, deposits_of_some hpool]
    by_cases hc : c = tranche
    · subst hc
      rw [if_pos rfl, if_pos rfl]
      rfl
    · rw [if_neg hc, if_neg (by simp [hc]), add_zero]
  · rw [if_neg ht, if_neg (by simp [ht]), add_zero]
    rfl

theorem Deposited.moved (h : Deposited s) {investor token : Address} {amount : ℤ}
    (hpool : s.pools token = some pool)
    (hcovered : 0 ≤ (s.position investor token tranche).deposited + amount)
    (hm : Moved s investor token tranche amount pool s') : Deposited s' := by
  have hdeposits := deposits_moved hpool hm
  obtain ⟨totalShares, position, world, hposition, rfl⟩ := hm
  refine ⟨fun t c => ?_, fun k v hget => ?_⟩
  · rw [hdeposits, h.deposits_eq]
    unfold positionsIn
    show _ = (s.positions.set (investor, token, tranche) position).total _
    rw [Store.total_set]
    by_cases htc : (t, c) = (token, tranche)
    · obtain ⟨rfl, rfl⟩ := Prod.mk.injEq .. ▸ htc
      have hpart : s.positions.part (fun k v => if k.2 = (t, c) then v.deposited else 0)
          (investor, t, c) = (s.position investor t c).deposited := by
        unfold Store.part State.position
        cases s.positions.get (investor, t, c) <;> simp
      rw [hpart, if_pos rfl, if_pos rfl, hposition]
      ring
    · have hpart : s.positions.part (fun k v => if k.2 = (t, c) then v.deposited else 0)
          (investor, token, tranche) = 0 := by
        unfold Store.part
        cases s.positions.get (investor, token, tranche) <;> simp [Ne.symm htc]
      rw [hpart, if_neg htc, if_neg (Ne.symm htc)]
      ring
  · replace hget : (s.positions.set (investor, token, tranche) position).get k = some v := hget
    rw [Store.get_set] at hget
    split_ifs at hget
    · rw [← Option.some.inj hget, hposition]
      exact hcovered
    · exact h.nonneg k v hget

theorem lossOn_deposited {a a' : TrancheAccounting} {loss exposure : ℤ}
    (h : lossOn a loss exposure = .ok a') : a'.deposited = a.deposited := by
  unfold lossOn at h
  rw [bind_eq_ok] at h
  obtain ⟨charged, hcharge, hrelease⟩ := h
  have hcharged : charged.deposited = a.deposited := by
    unfold chargeLoss at hcharge
    split_ifs at hcharge
    · simp only [bind_eq_ok] at hcharge
      obtain ⟨_, -, _, -, hcharge⟩ := hcharge
      split_ifs at hcharge
      · simp only [bind_eq_ok, pure_eq_ok] at hcharge
        obtain ⟨_, -, _, -, _, -, _, -, rfl⟩ := hcharge
        rfl
      · exact (pure_eq_ok _ _).1 hcharge ▸ rfl
    · exact (pure_eq_ok _ _).1 hcharge ▸ rfl
  unfold releaseExposure at hrelease
  split_ifs at hrelease
  · simp only [bind_eq_ok, pure_eq_ok] at hrelease
    obtain ⟨_, -, rfl⟩ := hrelease
    exact hcharged
  · exact (pure_eq_ok _ _).1 hrelease ▸ hcharged

theorem Deposited.of_pool (h : Deposited s)
    (hpools : s'.pools = Function.update s.pools token (some pool))
    (hpositions : s'.positions = s.positions)
    (hsame : ∀ c, (pool.accounting c).deposited = deposits s token c) : Deposited s' := by
  refine h.of_same hpositions fun t c => ?_
  rw [deposits_update hpools]
  split_ifs with ht
  · rw [ht, hsame]
  · rfl

theorem Deposited.step (h : Deposited s) {n : Neighbours W} {tx : Tx W}
    (hstep : exec n s tx = .ok s') : Deposited s' := by
  obtain ⟨signers, call⟩ := tx
  cases call with
  | depositTranche investor token tranche amount =>
    obtain ⟨hpos, pool, hpool, -, hm⟩ := depositTranche_eq_ok hstep
    have := h.position_nonneg investor token tranche
    exact h.moved hpool (by omega) hm
  | withdrawTranche investor token tranche amount =>
    obtain ⟨hpos, hcovered, pool, -, hpool, -, -, -, hm⟩ := withdrawTranche_eq_ok hstep
    exact h.moved hpool (by omega) hm
  | fundInvoiceFromTranches token invoiceId totalAmount =>
    obtain ⟨-, -, pool, e, hpool, -, -, rfl⟩ := fundInvoiceFromTranches_eq_ok hstep
    refine h.of_pool rfl rfl fun c => ?_
    rw [TranchePool.accounting_withAccounts, deposits_of_some hpool]
  | distributeWaterfallRepayment token invoiceId totalDue elapsedSecs =>
    obtain ⟨-, pool, e, paid, hpool, -, -, rfl⟩ := distributeWaterfallRepayment_eq_ok hstep
    refine h.of_pool rfl rfl fun c => ?_
    rw [TranchePool.accounting_withAccounts, deposits_of_some hpool]
  | allocateLoss token invoiceId shortfall =>
    obtain ⟨pool, e, loss, accounts, hpool, -, -, haccounts, rfl⟩ := allocateLoss_eq_ok hstep
    refine h.of_pool rfl rfl fun c => ?_
    rw [TranchePool.accounting_withAccounts, deposits_of_some hpool]
    exact lossOn_deposited (haccounts c)
  | setTrancheConfig admin token config =>
    obtain ⟨pool, valid, hpool, rfl⟩ := setTrancheConfig_eq_ok hstep
    refine h.of_pool rfl rfl fun c => ?_
    rw [deposits_of_some hpool]
    cases c <;> rfl
  | openTrancheForToken admin token seniorShareToken juniorShareToken config =>
    obtain ⟨pool, rfl, haccounts⟩ := openTrancheForToken_eq_ok hstep
    refine h.of_pool rfl rfl fun c => ?_
    rw [haccounts]
    unfold deposits
    cases s.pools token <;> rfl
  | setPaused paused | neighbours world =>
    obtain rfl := Except.ok.inj hstep
    exact h.of_same rfl fun _ _ => rfl

theorem deposited_initial (world : W) (admin token seniorShareToken juniorShareToken : Address)
    (config : ValidConfig) :
    Deposited (initialState world admin token seniorShareToken juniorShareToken config) := by
  refine ⟨fun t c => ?_, fun k v hget => ?_⟩
  · unfold deposits initialState positionsIn
    dsimp only
    rw [Function.update_apply]
    split_ifs
    · cases c <;> rfl
    · rfl
  · simp [initialState] at hget

end Deposits

/-! ## The ratio -/

/-- The senior deposits are within the advance rate. -/
def WithinRate (p : TranchePool) : Prop :=
  p.senior.deposited * 10000 ≤ p.rate * (p.junior.deposited + p.senior.deposited)

/-- A configuration is written only while nothing is deposited in the pool. -/
def ConfigSettled (s : State W) (tx : Tx W) : Prop :=
  match tx.call with
  | .setTrancheConfig _ token _ | .openTrancheForToken _ token _ _ _ =>
    deposits s token .Senior = 0 ∧ deposits s token .Junior = 0
  | _ => True

instance (s : State W) (tx : Tx W) : Decidable (ConfigSettled s tx) := by
  unfold ConfigSettled
  obtain ⟨signers, call⟩ := tx
  cases call <;> infer_instance

section Ratio

variable {s s' : State W}

theorem withinRate_of_empty (hs : p.senior.deposited = 0) (hj : p.junior.deposited = 0) :
    WithinRate p := by
  unfold WithinRate
  rw [hs, hj]
  simp

theorem withinRate_of_pool (h : ∀ t p, s.pools t = some p → WithinRate p)
    (hpools : s'.pools = Function.update s.pools token (some pool)) (hpool : WithinRate pool) :
    ∀ t p, s'.pools t = some p → WithinRate p := by
  intro t p hp
  rw [hpools, Function.update_apply] at hp
  split_ifs at hp
  · exact Option.some.inj hp ▸ hpool
  · exact h t p hp

theorem withinRate_deposit {amount totalShares : ℤ} (h : WithinRate p) (hpos : 0 < amount)
    (hs : 0 ≤ p.senior.deposited) (hj : 0 ≤ p.junior.deposited)
    (hcheck : checkDeposit p tranche amount = .ok ()) :
    WithinRate (p.setAccounting tranche ((p.accounting tranche).moved amount totalShares)) := by
  have hrate := p.rate_nonneg
  cases tranche with
  | Senior =>
    replace hcheck : checkAdvanceRate p amount = .ok () := hcheck
    unfold checkAdvanceRate at hcheck
    simp only [bind_eq_ok, add_eq_ok, mul_eq_ok, require_eq_ok] at hcheck
    obtain ⟨_, ⟨rfl, -⟩, _, ⟨rfl, -⟩, _, ⟨rfl, -⟩, _, ⟨rfl, -⟩, hle⟩ := hcheck
    rw [Int.tdiv_eq_ediv_of_nonneg (mul_nonneg hrate (by omega)),
      Int.le_ediv_iff_mul_le (by norm_num), add_assoc] at hle
    exact hle
  | Junior =>
    show p.senior.deposited * 10000 ≤
      p.rate * (p.junior.deposited + amount + p.senior.deposited)
    calc p.senior.deposited * 10000
        ≤ p.rate * (p.junior.deposited + p.senior.deposited) := h
      _ ≤ p.rate * (p.junior.deposited + amount + p.senior.deposited) :=
        mul_le_mul_of_nonneg_left (by omega) hrate

theorem withinRate_withdraw {amount totalShares : ℤ} (h : WithinRate p) (hpos : 0 < amount)
    (hnn : ∀ c, 0 ≤ ((p.setAccounting tranche ((p.accounting tranche).moved (-amount)
      totalShares)).accounting c).deposited)
    (hcheck : checkWithdrawal (p.setAccounting tranche ((p.accounting tranche).moved (-amount)
      totalShares)) tranche = .ok ()) :
    WithinRate (p.setAccounting tranche ((p.accounting tranche).moved (-amount) totalShares)) := by
  cases tranche with
  | Senior =>
    have hrate := p.rate_le
    have hslack : 0 ≤ amount * (10000 - p.rate) := mul_nonneg hpos.le (by omega)
    unfold WithinRate at h
    show (p.senior.deposited + -amount) * 10000 ≤
      p.rate * (p.junior.deposited + (p.senior.deposited + -amount))
    have hdiff : p.rate * (p.junior.deposited + (p.senior.deposited + -amount)) -
        (p.senior.deposited + -amount) * 10000 =
        p.rate * (p.junior.deposited + p.senior.deposited) - p.senior.deposited * 10000 +
          amount * (10000 - p.rate) := by
      ring
    omega
  | Junior =>
    have hsenior := hnn .Senior
    have hjunior := hnn .Junior
    generalize p.setAccounting .Junior ((p.accounting .Junior).moved (-amount) totalShares) = q at *
    replace hcheck : checkJuniorWithdrawal q = .ok () := hcheck
    replace hsenior : 0 ≤ q.senior.deposited := hsenior
    replace hjunior : 0 ≤ q.junior.deposited := hjunior
    unfold checkJuniorWithdrawal at hcheck
    simp only [bind_eq_ok, add_eq_ok] at hcheck
    obtain ⟨_, ⟨rfl, -⟩, hcheck⟩ := hcheck
    split_ifs at hcheck with htotal
    · simp only [bind_eq_ok, mul_eq_ok, require_eq_ok] at hcheck
      obtain ⟨_, ⟨rfl, -⟩, hle⟩ := hcheck
      rw [Int.tdiv_eq_ediv_of_nonneg (mul_nonneg q.rate_nonneg htotal.le),
        Int.le_ediv_iff_mul_le (by norm_num)] at hle
      exact hle
    · -- nothing is left in either class
      exact withinRate_of_empty (by omega) (by omega)

theorem withinRate_step {n : Neighbours W} {tx : Tx W} (hd : Deposited s)
    (h : ∀ t p, s.pools t = some p → WithinRate p) (hsettled : ConfigSettled s tx)
    (hstep : exec n s tx = .ok s') : ∀ t p, s'.pools t = some p → WithinRate p := by
  have hd' := hd.step hstep
  obtain ⟨signers, call⟩ := tx
  cases call with
  | depositTranche investor token tranche amount =>
    obtain ⟨hpos, pool, hpool, hcheck, totalShares, position, world, -, rfl⟩ :=
      depositTranche_eq_ok hstep
    have hsenior := hd.deposits_nonneg token .Senior
    have hjunior := hd.deposits_nonneg token .Junior
    rw [deposits_of_some hpool] at hsenior hjunior
    exact withinRate_of_pool h rfl
      (withinRate_deposit (h token pool hpool) hpos hsenior hjunior hcheck)
  | withdrawTranche investor token tranche amount =>
    obtain ⟨hpos, -, pool, pool', hpool, hpool', -, hcheck, totalShares, position, world, -, rfl⟩ :=
      withdrawTranche_eq_ok hstep
    have hnn := fun c => hd'.deposits_nonneg token c
    simp only [deposits_of_some hpool'] at hnn
    obtain rfl : pool.setAccounting tranche
        ((pool.accounting tranche).moved (-amount) totalShares) = pool' := by
      apply Option.some.inj
      rw [← hpool']
      exact (Function.update_self token _ s.pools).symm
    exact withinRate_of_pool h rfl (withinRate_withdraw (h token pool hpool) hpos hnn hcheck)
  | fundInvoiceFromTranches token invoiceId totalAmount =>
    obtain ⟨-, -, pool, e, hpool, -, -, rfl⟩ := fundInvoiceFromTranches_eq_ok hstep
    exact withinRate_of_pool h rfl (h token pool hpool)
  | distributeWaterfallRepayment token invoiceId totalDue elapsedSecs =>
    obtain ⟨-, pool, e, paid, hpool, -, -, rfl⟩ := distributeWaterfallRepayment_eq_ok hstep
    exact withinRate_of_pool h rfl (h token pool hpool)
  | allocateLoss token invoiceId shortfall =>
    obtain ⟨pool, e, loss, accounts, hpool, -, -, haccounts, rfl⟩ := allocateLoss_eq_ok hstep
    refine withinRate_of_pool h rfl ?_
    have hwithin := h token pool hpool
    unfold WithinRate at hwithin ⊢
    show (accounts .Senior).deposited * 10000 ≤
      pool.rate * ((accounts .Junior).deposited + (accounts .Senior).deposited)
    rw [lossOn_deposited (haccounts .Senior), lossOn_deposited (haccounts .Junior)]
    exact hwithin
  | setTrancheConfig admin token config =>
    obtain ⟨pool, valid, hpool, rfl⟩ := setTrancheConfig_eq_ok hstep
    obtain ⟨hsenior, hjunior⟩ := hsettled
    rw [deposits_of_some hpool] at hsenior hjunior
    exact withinRate_of_pool h rfl (withinRate_of_empty hsenior hjunior)
  | openTrancheForToken admin token seniorShareToken juniorShareToken config =>
    obtain ⟨pool, rfl, haccounts⟩ := openTrancheForToken_eq_ok hstep
    have hempty : ∀ c, (pool.accounting c).deposited = deposits s token c := by
      intro c
      rw [haccounts]
      unfold deposits
      cases s.pools token <;> rfl
    obtain ⟨hsenior, hjunior⟩ := hsettled
    exact withinRate_of_pool h rfl
      (withinRate_of_empty ((hempty .Senior).trans hsenior) ((hempty .Junior).trans hjunior))
  | setPaused paused | neighbours world =>
    obtain rfl := Except.ok.inj hstep
    exact h

end Ratio

section Runs

variable (n : Neighbours W) (world : W) (admin token seniorShareToken juniorShareToken : Address)
  (config : ValidConfig)

theorem deposited_of_reaches {ok : State W → Tx W → Prop} {s : State W}
    (hrun : Reaches (exec n) ok
      (initialState world admin token seniorShareToken juniorShareToken config) s) :
    Deposited s :=
  hrun.invariant (deposited_initial _ _ _ _ _ _) fun _ _ _ hs _ hstep => hs.step hstep

/-- For every pool of every state that is reached and every amount, if no operation overflows, a
senior deposit passes the check exactly when it is within the headroom; and as long as the
configuration is only written while nothing is deposited, the senior deposits are within their
share of the pool. -/
theorem advance_rate_exact {s : State W}
    (hrun : Reaches (exec n) (fun _ _ => True)
      (initialState world admin token seniorShareToken juniorShareToken config) s)
    {t : Address} {pool : TranchePool} (hpool : s.pools t = some pool) :
    (pool.rate < 10000 → ∀ amount, 0 < amount → NoOverflow pool amount →
      (checkAdvanceRate pool amount = .ok () ↔ amount ≤ getAdvanceRateHeadroom pool)) ∧
    (Reaches (exec n) ConfigSettled
        (initialState world admin token seniorShareToken juniorShareToken config) s →
      pool.senior.deposited ≤
        pool.rate * (pool.senior.deposited + pool.junior.deposited) / 10000) := by
  have hd := deposited_of_reaches n world admin token seniorShareToken juniorShareToken config hrun
  have hsenior := hd.deposits_nonneg t .Senior
  have hjunior := hd.deposits_nonneg t .Junior
  rw [deposits_of_some hpool] at hsenior hjunior
  constructor
  · intro hrate amount hpos hn
    exact checkAdvanceRate_iff_le_headroom hn hrate (add_nonneg hjunior hsenior) hpos
  · intro hsettled
    have hwithin : Deposited s ∧ ∀ t p, s.pools t = some p → WithinRate p := by
      refine hsettled.invariant
        (P := fun s => Deposited s ∧ ∀ t p, s.pools t = some p → WithinRate p)
        ⟨deposited_initial _ _ _ _ _ _, fun t p hp => ?_⟩ ?_
      · dsimp only [initialState] at hp
        rw [Function.update_apply] at hp
        split_ifs at hp
        exact Option.some.inj hp ▸ withinRate_of_empty rfl rfl
      · intro s tx s' hs hok hstep
        exact ⟨hs.1.step hstep, withinRate_step hs.1 hs.2 hok hstep⟩
    rw [Int.le_ediv_iff_mul_le (by norm_num), add_comm]
    exact hwithin.2 t pool hpool

end Runs

/-- The junior class has deposited 101 and the senior class 3. -/
def smallDeposits : List (Tx Unit) :=
  [⟨[2], .depositTranche 2 10 .Junior 101⟩, ⟨[3], .depositTranche 3 10 .Senior 3⟩]

theorem advance_rate_exact_small : ∃ (s : State Unit) (pool : TranchePool),
    smallDeposits.foldlM (exec quietNeighbours) samplePool = .ok s ∧
    s.pools 10 = some pool ∧ checkAdvanceRate pool 401 = .ok () ∧
    checkAdvanceRate pool 402 ≠ .ok () ∧
    pool.senior.deposited ≤
      pool.rate * (pool.senior.deposited + pool.junior.deposited) / 10000 := by
  obtain ⟨s, hs, hcheck⟩ := exists_of_check
    (p := fun s => (s.pools 10).any fun p : TranchePool => decide (p.rate = 8000 ∧
      p.senior.deposited = 3 ∧ p.junior.deposited = 101 ∧ getAdvanceRateHeadroom p = 401))
    (x := smallDeposits.foldlM (exec quietNeighbours) samplePool) (by decide)
  obtain ⟨pool, hpool, hvalues⟩ := (Option.any_eq_true _ _).1 hcheck
  obtain ⟨hrate, hsenior, hjunior, hheadroom⟩ := of_decide_eq_true hvalues
  have hrun : Reaches (exec quietNeighbours) (fun _ _ => True) samplePool s :=
    reaches_of_along .refl (by decide) hs
  have hsettled : Reaches (exec quietNeighbours) ConfigSettled samplePool s :=
    reaches_of_along .refl (by decide) hs
  obtain ⟨hexact, hratio⟩ :=
    advance_rate_exact quietNeighbours () 1 10 20 21 _ hrun hpool
  have hno : ∀ amount : ℤ, 0 < amount → amount ≤ 402 → NoOverflow pool amount := by
    intro amount hpos hle
    constructor <;> rw [InI128] <;> simp only [hrate, hsenior, hjunior] <;> omega
  have hiff := fun amount hpos hle => hexact (by omega) amount hpos (hno amount hpos hle)
  refine ⟨s, pool, hs, hpool, (hiff 401 (by omega) (by omega)).2 (by omega), fun h => ?_,
    hratio hsettled⟩
  have := (hiff 402 (by omega) (by omega)).1 h
  omega

end Astera.Tranche
