import Astera.Tranche.Contract

/-!
# The accounts of a tranche

The capital of a class is what was deposited and earned less the losses; what is deployed is what
the open invoices owe it.  A repayment books the principal it returns as earned, so the identity
survives it only for a class that has nothing in the invoice.  `Origins` keeps the token of an
exposure.
-/

namespace Astera.Tranche

open Fallible Machine Transition

variable {W : Type}

/-- The token in which an invoice was funded. -/
abbrev Origins := ℕ → Address

def traced (n : Neighbours W) : State W × Origins → Tx W → Res (State W × Origins) :=
  track (exec n) fun _ tx _ origins =>
    match tx.call with
    | .fundInvoiceFromTranches token invoiceId _ => Function.update origins invoiceId token
    | _ => origins

/-- What the open invoices of a token owe a class. -/
def exposed (c : TrancheClass) (s : State W) (origins : Origins) (token : Address) : ℤ :=
  s.exposures.total fun id e => if origins id = token then e.deployed c else 0

/-- The account of a class is in order. -/
structure Balanced (a : TrancheAccounting) (exposed : ℤ) : Prop where
  available_nonneg : 0 ≤ a.available
  deployed_nonneg : 0 ≤ a.deployed
  identity : a.available + a.deployed = a.deposited + a.earned - a.losses
  exposed_eq : exposed = a.deployed

/-- The account of the class is in order in every pool. -/
def Sound (c : TrancheClass) (x : State W × Origins) : Prop :=
  ∀ token pool, x.1.pools token = some pool →
    Balanced (pool.accounting c) (exposed c x.1 x.2 token)

/-! ## When a step keeps the accounts in order -/

/-- The part of a loss that falls on the available capital: the loss in the proportion of available
to all capital, with the proportion in basis points. -/
def spared (a : TrancheAccounting) (loss : ℤ) : ℤ :=
  loss * (10000 - a.deployed * 10000 / (a.deployed + a.available)) / 10000

/-- A loss of a class takes the exposure off the deployed capital, and no more than there is off the
available capital. -/
def LossMatches (a : TrancheAccounting) (loss exposure : ℤ) : Prop :=
  if 0 < loss then
    0 < a.deployed + a.available ∧ loss - spared a loss = exposure ∧ spared a loss ≤ a.available
  else exposure = 0

instance (a : TrancheAccounting) (loss exposure : ℤ) : Decidable (LossMatches a loss exposure) := by
  unfold LossMatches
  infer_instance

/-- The condition on a step: a repaid invoice owes the class nothing, and a loss matches the exposure
of the class in the token in which the invoice was funded. -/
def Keeps (c : TrancheClass) (x : State W × Origins) (tx : Tx W) : Prop :=
  match tx.call with
  | .distributeWaterfallRepayment _ invoiceId _ _ =>
    match x.1.exposures.get invoiceId with
    | some e => e.deployed c = 0
    | none => True
  | .allocateLoss token invoiceId shortfall =>
    match x.1.pools token, x.1.exposures.get invoiceId with
    | some pool, some e =>
      match calculateLossAllocation shortfall (pool.junior.deployed + pool.junior.available)
        pool.config.1.juniorFirstLossBps with
      | .ok (juniorLoss, seniorLoss) =>
        LossMatches (pool.accounting c) (perClass seniorLoss juniorLoss c) (e.deployed c) ∧
          (e.deployed c = 0 ∨ x.2 invoiceId = token)
      | .error _ => True
    | _, _ => True
  | _ => True

instance (c : TrancheClass) (x : State W × Origins) (tx : Tx W) : Decidable (Keeps c x tx) := by
  unfold Keeps
  split
  · split <;> infer_instance
  · split
    · split <;> infer_instance
    · infer_instance
  · infer_instance

section Loss

variable {a a' : TrancheAccounting} {loss exposure part : ℤ}

theorem availableLoss_eq (hd : 0 ≤ a.deployed) (ha : 0 ≤ a.available)
    (ht : 0 < a.deployed + a.available) (hfit : InI128 (a.deployed + a.available)) (hl : 0 < loss)
    (h : availableLoss a (a.deployed + a.available) loss = .ok part)
    (hrest : InI128 (loss - part)) : part = spared a loss := by
  unfold availableLoss at h
  simp only [bind_eq_ok, mulU_eq_ok, subU_eq_ok, pure_eq_ok] at h
  obtain ⟨_, ⟨rfl, hscaled⟩, _, ⟨hratio, rfl⟩, product, ⟨hproduct, hlt⟩, rfl⟩ := h
  have hsmall : product / 10000 < 2 ^ 127 := by omega
  rw [toI128_of_lt hsmall] at hrest ⊢
  have hloss : (toU 128 loss : ℤ) = loss := by
    apply toU_of_nonneg _ _ hl.le
    have := hrest.2
    omega
  have hdeployed : (toU 128 a.deployed : ℤ) = a.deployed := by
    apply toU_of_nonneg _ _ hd
    have := hfit.2
    omega
  have htotal : (toU 128 (a.deployed + a.available) : ℤ) = a.deployed + a.available := by
    apply toU_of_nonneg _ _ ht.le
    have := hfit.2
    omega
  unfold spared
  rw [hproduct]
  push_cast [Nat.cast_sub hratio]
  rw [hloss, hdeployed, htotal]

theorem chargeLoss_eq_ok (hd : 0 ≤ a.deployed) (ha : 0 ≤ a.available) (hl : 0 < loss)
    (h : chargeLoss a loss = .ok a') :
    a' = if 0 < a.deployed + a.available then
        { a with
          losses := a.losses + loss
          deployed := a.deployed - (loss - spared a loss)
          available := a.available - spared a loss }
      else { a with losses := a.losses + loss } := by
  unfold chargeLoss at h
  simp only [if_pos hl, bind_eq_ok, add_eq_ok] at h
  obtain ⟨_, ⟨rfl, -⟩, _, ⟨rfl, hfit⟩, h⟩ := h
  split_ifs at h ⊢ with ht
  · simp only [bind_eq_ok, sub_eq_ok, pure_eq_ok] at h
    obtain ⟨part, hpart, _, ⟨rfl, hrest⟩, _, ⟨rfl, -⟩, _, ⟨rfl, -⟩, rfl⟩ := h
    rw [availableLoss_eq hd ha ht hfit hl hpart hrest]
  · exact ((pure_eq_ok _ _).1 h).symm

theorem lossOn_of_pos (hd : 0 ≤ a.deployed) (ha : 0 ≤ a.available) (hl : 0 < loss)
    (h : lossOn a loss exposure = .ok a') :
    a' = if 0 < a.deployed + a.available then
        { a with
          losses := a.losses + loss
          deployed := a.deployed - (loss - spared a loss)
          available := a.available - spared a loss }
      else { a with losses := a.losses + loss } := by
  unfold lossOn releaseExposure at h
  simp only [bind_eq_ok, if_neg hl.ne', pure_eq_ok] at h
  obtain ⟨_, hcharge, rfl⟩ := h
  exact chargeLoss_eq_ok hd ha hl hcharge

theorem lossOn_of_nonpos (hl : ¬ 0 < loss) (h : lossOn a loss exposure = .ok a') :
    a' = { a with deployed := a.deployed - if loss = 0 then exposure else 0 } := by
  unfold lossOn chargeLoss releaseExposure at h
  simp only [if_neg hl, bind_eq_ok, pure_eq_ok, exists_eq_left'] at h
  split_ifs at h ⊢ with hzero
  · simp only [bind_eq_ok, sub_eq_ok, pure_eq_ok] at h
    obtain ⟨_, ⟨rfl, -⟩, rfl⟩ := h
    rfl
  · rw [sub_zero]
    exact ((pure_eq_ok _ _).1 h).symm

end Loss

/-- The accounts are in order, no invoice owes a negative amount, and every open invoice was funded
from a pool. -/
structure Accounted (c : TrancheClass) (x : State W × Origins) : Prop where
  sound : Sound c x
  owed_nonneg : ∀ id e, x.1.exposures.get id = some e → 0 ≤ e.deployed c
  funded : ∀ id e, x.1.exposures.get id = some e → ∃ pool, x.1.pools (x.2 id) = some pool

section Exposures

variable {c : TrancheClass} {s s' : State W} {origins : Origins} {token : Address} {id : ℕ}
  {e : InvoiceTrancheExposure} {pool : TranchePool}

theorem exposed_fund (hnone : s.exposures.get id = none)
    (hset : s'.exposures = s.exposures.set id e) (t : Address) :
    exposed c s' (Function.update origins id token) t =
      exposed c s origins t + if token = t then e.deployed c else 0 := by
  unfold exposed
  rw [hset, Store.total_set_of_agree (f := fun id e => if origins id = t then e.deployed c else 0),
    Store.part_of_get_none hnone, Function.update_self]
  · ring
  · intro k v hk _
    rw [Function.update_of_ne hk]

theorem exposed_remove (hget : s.exposures.get id = some e)
    (hremove : s'.exposures = s.exposures.remove id) (t : Address) :
    exposed c s' origins t = exposed c s origins t - if origins id = t then e.deployed c else 0 := by
  unfold exposed
  rw [hremove, Store.total_remove, Store.part_of_get hget]

theorem Accounted.exposed_eq_zero (h : Accounted c (s, origins)) {t : Address}
    (ht : s.pools t = none) : exposed c s origins t = 0 := by
  have hzero : exposed c s origins t = s.exposures.total fun _ _ => 0 := by
    apply Store.total_congr
    intro k v hget
    obtain ⟨p, hp⟩ := h.funded k v hget
    rw [if_neg]
    rintro rfl
    rw [ht] at hp
    cases hp
  rw [hzero]
  simp [Store.total]

theorem Accounted.of_pool (h : Accounted c (s, origins))
    (hpools : s'.pools = Function.update s.pools token (some pool))
    (hexposures : s'.exposures = s.exposures)
    (hb : Balanced (pool.accounting c) (exposed c s origins token)) :
    Accounted c (s', origins) := by
  have hexposed : exposed c s' origins = exposed c s origins := by
    unfold exposed
    rw [hexposures]
  refine ⟨fun t p hp => ?_, fun k v hget => ?_, fun k v hget => ?_⟩
  · dsimp only at hp ⊢
    rw [hpools, Function.update_apply] at hp
    rw [hexposed]
    split_ifs at hp with ht
    · obtain rfl := Option.some.inj hp
      rw [ht]
      exact hb
    · exact h.sound t p hp
  · dsimp only at hget
    rw [hexposures] at hget
    exact h.owed_nonneg k v hget
  · dsimp only at hget ⊢
    rw [hexposures] at hget
    obtain ⟨p, hp⟩ := h.funded k v hget
    rw [hpools, Function.update_apply]
    split_ifs with ht
    · exact ⟨pool, rfl⟩
    · exact ⟨p, hp⟩

/-- When an invoice is closed and a pool written, the accounts stay in order exactly when the new
account is, and the invoice owed nothing in another token. -/
theorem Accounted.sound_iff (h : Accounted c (s, origins)) (hget : s.exposures.get id = some e)
    (hpools : s'.pools = Function.update s.pools token (some pool))
    (hremove : s'.exposures = s.exposures.remove id) :
    Sound c (s', origins) ↔
      Balanced (pool.accounting c) (exposed c s' origins token) ∧
        (e.deployed c = 0 ∨ origins id = token) := by
  constructor
  · intro hs
    refine ⟨hs token pool (by simp [hpools]), ?_⟩
    by_contra hne
    obtain ⟨hzero, hother⟩ := not_or.1 hne
    obtain ⟨p, hp⟩ := h.funded id e hget
    have hp' : s'.pools (origins id) = some p := by
      rw [hpools, Function.update_of_ne hother]
      exact hp
    have hbefore := (h.sound (origins id) p hp).exposed_eq
    have hafter := (hs (origins id) p hp').exposed_eq
    dsimp only at hbefore hafter
    rw [exposed_remove hget hremove, if_pos rfl] at hafter
    omega
  · rintro ⟨hb, hother⟩ t p hp
    dsimp only at hp ⊢
    rw [hpools, Function.update_apply] at hp
    split_ifs at hp with ht
    · obtain rfl := Option.some.inj hp
      rw [ht]
      exact hb
    · have hsame : exposed c s' origins t = exposed c s origins t := by
        rw [exposed_remove hget hremove]
        split_ifs with ho
        · have hzero : e.deployed c = 0 := by
            refine hother.resolve_right fun hsame => ht ?_
            rw [← ho, hsame]
          omega
        · omega
      rw [hsame]
      exact h.sound t p hp

theorem Accounted.exposed_close_nonneg (h : Accounted c (s, origins))
    (hremove : s'.exposures = s.exposures.remove id) (t : Address) :
    0 ≤ exposed c s' origins t := by
  apply Store.total_nonneg
  intro k v hget
  rw [hremove] at hget
  split_ifs
  · exact h.owed_nonneg k v (Store.get_of_get_remove hget)
  · exact le_rfl

theorem Accounted.of_close (h : Accounted c (s, origins))
    (hpools : s'.pools = Function.update s.pools token (some pool))
    (hremove : s'.exposures = s.exposures.remove id) (hs : Sound c (s', origins)) :
    Accounted c (s', origins) := by
  refine ⟨hs, fun k v hget => ?_, fun k v hget => ?_⟩
  · dsimp only at hget
    rw [hremove] at hget
    exact h.owed_nonneg k v (Store.get_of_get_remove hget)
  · dsimp only at hget ⊢
    rw [hremove] at hget
    obtain ⟨p, hp⟩ := h.funded k v (Store.get_of_get_remove hget)
    rw [hpools, Function.update_apply]
    split_ifs
    · exact ⟨pool, rfl⟩
    · exact ⟨p, hp⟩

end Exposures

/-! ## The steps -/

section Steps

variable {c : TrancheClass} {s s' : State W} {origins : Origins} {token : Address}
  {invoiceId : ℕ}

theorem accounted_moved {investor : Address} {tranche : TrancheClass} {amount : ℤ}
    {pool : TranchePool} (h : Accounted c (s, origins)) (hpool : s.pools token = some pool)
    (hcovered : c = tranche → 0 ≤ (pool.accounting tranche).available + amount)
    (hm : Moved s investor token tranche amount pool s') : Accounted c (s', origins) := by
  obtain ⟨totalShares, position, world, -, rfl⟩ := hm
  refine h.of_pool rfl rfl ?_
  have hb := h.sound token pool hpool
  rw [TranchePool.accounting_setAccounting]
  split_ifs with hc
  · subst hc
    refine ⟨hcovered rfl, hb.deployed_nonneg, ?_, hb.exposed_eq⟩
    have := hb.identity
    dsimp only [TrancheAccounting.moved]
    omega
  · exact hb

theorem fundingSplit_nonneg {pool : TranchePool} {total senior junior : ℤ} (hpos : 0 < total)
    (h : fundingSplit pool total = .ok (senior, junior)) : 0 ≤ senior ∧ 0 ≤ junior := by
  unfold fundingSplit at h
  simp only [bind_eq_ok, mul_eq_ok, sub_eq_ok, pure_eq_ok, Prod.mk.injEq] at h
  obtain ⟨_, ⟨rfl, -⟩, _, ⟨rfl, -⟩, rfl, rfl⟩ := h
  have hnn : 0 ≤ total * pool.rate := mul_nonneg hpos.le pool.rate_nonneg
  have hle : (total * pool.rate).tdiv 10000 ≤ total := by
    apply tdiv_le_of_le_mul (by norm_num) hnn
    exact mul_le_mul_of_nonneg_left pool.rate_le hpos.le
  have hsenior : 0 ≤ (total * pool.rate).tdiv 10000 := Int.tdiv_nonneg hnn (by norm_num)
  omega

theorem accounted_fund {signers : List Address} {totalAmount : ℤ} (h : Accounted c (s, origins))
    (hf : fundInvoiceFromTranches signers s token invoiceId totalAmount = .ok s') :
    Accounted c (s', Function.update origins invoiceId token) := by
  obtain ⟨hpos, hnone, pool, e, hpool, hsplit, havailable, rfl⟩ := fundInvoiceFromTranches_eq_ok hf
  have hparts : 0 ≤ e.deployed c := by
    obtain ⟨hsenior, hjunior⟩ := fundingSplit_nonneg hpos hsplit
    cases c
    · exact hsenior
    · exact hjunior
  refine ⟨fun t p hp => ?_, fun k v hget => ?_, fun k v hget => ?_⟩
  · dsimp only at hp ⊢
    rw [exposed_fund hnone rfl]
    rw [Function.update_apply] at hp
    split_ifs at hp with ht
    · obtain rfl := Option.some.inj hp
      have hb := h.sound token pool hpool
      rw [TranchePool.accounting_withAccounts, if_pos ht.symm, ht]
      have hcovered := havailable c
      refine ⟨?_, add_nonneg hb.deployed_nonneg hparts, ?_, congrArg (· + _) hb.exposed_eq⟩
      · show 0 ≤ (pool.accounting c).available - e.deployed c
        omega
      · have := hb.identity
        dsimp only
        omega
    · rw [if_neg (Ne.symm ht), add_zero]
      exact h.sound t p hp
  · dsimp only at hget
    rw [Store.get_set] at hget
    split_ifs at hget
    · exact Option.some.inj hget ▸ hparts
    · exact h.owed_nonneg k v hget
  · dsimp only at hget ⊢
    rw [Store.get_set] at hget
    split_ifs at hget with hk
    · rw [hk, Function.update_self, Function.update_self]
      exact ⟨_, rfl⟩
    · obtain ⟨p, hp⟩ := h.funded k v hget
      rw [Function.update_of_ne hk, Function.update_apply]
      split_ifs
      · exact ⟨_, rfl⟩
      · exact ⟨p, hp⟩

theorem paid_nonneg {e : InvoiceTrancheExposure} {totalDue : ℤ} {yieldBps elapsedSecs : ℕ}
    {paid : TrancheClass → ℤ} (hpos : 0 < totalDue) (hzero : e.deployed c = 0)
    (h : calculateWaterfallSplit totalDue e.seniorDeployed yieldBps elapsedSecs =
      .ok (paid .Senior, paid .Junior)) : 0 ≤ paid c := by
  unfold calculateWaterfallSplit at h
  simp only [bind_eq_ok, add_eq_ok, sub_eq_ok, pure_eq_ok, Prod.mk.injEq] at h
  obtain ⟨cap, ⟨hcap, -⟩, junior, ⟨hjunior, -⟩, hsenior, rfl⟩ := h
  cases c with
  | Senior =>
    have hprincipal : e.seniorDeployed = 0 := hzero
    have hcap₀ : cap = 0 := by
      rw [hcap, hprincipal]
      simp [saturatingMulU, toU, toI128]
    rw [← hsenior, hcap₀, if_pos hpos.le]
  | Junior =>
    rw [hjunior]
    split_ifs <;> omega

theorem sound_repay_iff {totalDue : ℤ} {elapsedSecs : ℕ} (h : Accounted c (s, origins))
    (hr : distributeWaterfallRepayment s token invoiceId totalDue elapsedSecs = .ok s') :
    ∃ e pool, s.exposures.get invoiceId = some e ∧
      s'.pools = Function.update s.pools token (some pool) ∧
      s'.exposures = s.exposures.remove invoiceId ∧
      (Sound c (s', origins) ↔ e.deployed c = 0) := by
  obtain ⟨hpos, pool, e, paid, hpool, he, hsplit, rfl⟩ := distributeWaterfallRepayment_eq_ok hr
  refine ⟨e, _, he, rfl, rfl, ?_⟩
  have hb := h.sound token pool hpool
  have hidentity := hb.identity
  rw [h.sound_iff he rfl rfl, TranchePool.accounting_withAccounts, exposed_remove he rfl]
  constructor
  · rintro ⟨hb', -⟩
    have hidentity' := hb'.identity
    dsimp only at hidentity'
    omega
  · intro hzero
    have hpaid := paid_nonneg hpos hzero hsplit
    have havailable := hb.available_nonneg
    refine ⟨⟨?_, ?_, ?_, ?_⟩, .inl hzero⟩
    · show 0 ≤ (pool.accounting c).available + paid c
      omega
    · show 0 ≤ (pool.accounting c).deployed - e.deployed c
      have := hb.deployed_nonneg
      omega
    · dsimp only
      omega
    · rw [hzero, ite_self, sub_zero, sub_zero]
      exact hb.exposed_eq

theorem balanced_loss_iff {a a' : TrancheAccounting} {loss exposure owed owed' : ℤ}
    (hb : Balanced a owed) (howed : owed' = owed - exposure) (hnn : 0 ≤ owed')
    (hl : lossOn a loss exposure = .ok a') : Balanced a' owed' ↔ LossMatches a loss exposure := by
  have hidentity := hb.identity
  have hexposed := hb.exposed_eq
  unfold LossMatches
  by_cases hpos : 0 < loss
  · obtain rfl := lossOn_of_pos hb.deployed_nonneg hb.available_nonneg hpos hl
    rw [if_pos hpos]
    by_cases htotal : 0 < a.deployed + a.available
    · rw [if_pos htotal]
      constructor
      · rintro ⟨havailable, -, -, hexposed'⟩
        dsimp only at havailable hexposed'
        exact ⟨htotal, by omega, by omega⟩
      · rintro ⟨-, hexposure, havailable⟩
        refine ⟨?_, ?_, ?_, ?_⟩ <;> dsimp only <;> omega
    · -- the loss is booked, and no capital is taken
      rw [if_neg htotal]
      constructor
      · rintro ⟨-, -, hidentity', -⟩
        dsimp only at hidentity'
        omega
      · rintro ⟨hpos', -⟩
        exact absurd hpos' htotal
  · obtain rfl := lossOn_of_nonpos hpos hl
    rw [if_neg hpos]
    constructor
    · rintro ⟨-, -, hidentity', hexposed'⟩
      dsimp only at hidentity' hexposed'
      split_ifs at hidentity' hexposed' <;> omega
    · rintro rfl
      rw [ite_self, sub_zero] at *
      exact ⟨hb.available_nonneg, hb.deployed_nonneg, hidentity, howed ▸ hexposed⟩

theorem sound_loss_iff {signers : List Address} {shortfall : ℤ} (h : Accounted c (s, origins))
    (hl : allocateLoss s token invoiceId shortfall = .ok s') :
    ∃ pool, s'.pools = Function.update s.pools token (some pool) ∧
      s'.exposures = s.exposures.remove invoiceId ∧
      (Sound c (s', origins) ↔
        Keeps c (s, origins) ⟨signers, .allocateLoss token invoiceId shortfall⟩) := by
  obtain ⟨pool, e, loss, accounts, hpool, he, hsplit, haccounts, hs'⟩ := allocateLoss_eq_ok hl
  have hpools : s'.pools = Function.update s.pools token (some (pool.withAccounts accounts)) := by
    rw [hs']
  have hremove : s'.exposures = s.exposures.remove invoiceId := by rw [hs']
  refine ⟨_, hpools, hremove, ?_⟩
  have hclass : perClass (loss .Senior) (loss .Junior) c = loss c := by cases c <;> rfl
  unfold Keeps
  simp only [hpool, he, hsplit, hclass]
  rw [h.sound_iff he hpools hremove, TranchePool.accounting_withAccounts]
  refine and_congr_left fun hother => ?_
  have howed : exposed c s' origins token = exposed c s origins token - e.deployed c := by
    rw [exposed_remove he hremove]
    split_ifs with ho
    · rfl
    · rw [hother.resolve_right ho]
  exact balanced_loss_iff (h.sound token pool hpool) howed (h.exposed_close_nonneg hremove token)
    (haccounts c)

theorem sound_iff_keeps {n : Neighbours W} {tx : Tx W} {x y : State W × Origins}
    (h : Accounted c x) (hstep : traced n x tx = .ok y) :
    (Sound c y ↔ Keeps c x tx) ∧ (Sound c y → Accounted c y) := by
  obtain ⟨s, origins⟩ := x
  obtain ⟨s', origins'⟩ := y
  obtain ⟨hexec, horigins⟩ := (track_eq_ok _ _ _ _ _).1 hstep
  dsimp only at hexec horigins
  obtain ⟨signers, call⟩ := tx
  have hquiet : Accounted c (s', origins') → Keeps c (s, origins) ⟨signers, call⟩ →
      (Sound c (s', origins') ↔ Keeps c (s, origins) ⟨signers, call⟩) ∧
        (Sound c (s', origins') → Accounted c (s', origins')) :=
    fun ha hk => ⟨iff_of_true ha.sound hk, fun _ => ha⟩
  cases call with
  | depositTranche investor token tranche amount =>
    obtain ⟨hpos, pool, hpool, -, hm⟩ := depositTranche_eq_ok hexec
    obtain rfl : origins' = origins := horigins
    refine hquiet (accounted_moved h hpool (fun hc => ?_) hm) trivial
    have havailable := (h.sound token pool hpool).available_nonneg
    rw [hc] at havailable
    omega
  | withdrawTranche investor token tranche amount =>
    obtain ⟨hpos, -, pool, _, hpool, -, hcovered, -, hm⟩ := withdrawTranche_eq_ok hexec
    obtain rfl : origins' = origins := horigins
    refine hquiet (accounted_moved h hpool (fun _ => ?_) hm) trivial
    omega
  | fundInvoiceFromTranches token invoiceId totalAmount =>
    obtain rfl : origins' = Function.update origins invoiceId token := horigins
    exact hquiet (accounted_fund h hexec) trivial
  | distributeWaterfallRepayment token invoiceId totalDue elapsedSecs =>
    obtain rfl : origins' = origins := horigins
    obtain ⟨e, pool, he, hpools, hremove, hiff⟩ := sound_repay_iff h hexec
    refine ⟨?_, h.of_close hpools hremove⟩
    unfold Keeps
    simp only [he]
    exact hiff
  | allocateLoss token invoiceId shortfall =>
    obtain rfl : origins' = origins := horigins
    obtain ⟨pool, hpools, hremove, hiff⟩ := sound_loss_iff h hexec
    exact ⟨hiff, h.of_close hpools hremove⟩
  | setTrancheConfig admin token config =>
    obtain ⟨pool, valid, hpool, rfl⟩ := setTrancheConfig_eq_ok hexec
    obtain rfl : origins' = origins := horigins
    refine hquiet (h.of_pool rfl rfl ?_) trivial
    have hb := h.sound token pool hpool
    cases c <;> exact hb
  | openTrancheForToken admin token seniorShareToken juniorShareToken config =>
    obtain ⟨pool, rfl, haccounts⟩ := openTrancheForToken_eq_ok hexec
    obtain rfl : origins' = origins := horigins
    refine hquiet (h.of_pool rfl rfl ?_) trivial
    rw [haccounts]
    cases hpool : s.pools token with
    | none =>
      rw [h.exposed_eq_zero hpool]
      exact ⟨le_rfl, le_rfl, rfl, rfl⟩
    | some existing => exact h.sound token existing hpool
  | setPaused paused | neighbours world =>
    obtain rfl := Except.ok.inj hexec
    obtain rfl : origins' = origins := horigins
    exact hquiet ⟨h.sound, h.owed_nonneg, h.funded⟩ trivial

theorem accounted_initial (world : W) (admin token seniorShareToken juniorShareToken : Address)
    (config : ValidConfig) (origins : Origins) :
    Accounted c (initialState world admin token seniorShareToken juniorShareToken config, origins) := by
  refine ⟨fun t p hp => ?_, fun k v hget => ?_, fun k v hget => ?_⟩
  · dsimp only [initialState] at hp
    rw [Function.update_apply] at hp
    split_ifs at hp
    obtain rfl := Option.some.inj hp
    cases c <;> exact ⟨le_rfl, le_rfl, rfl, rfl⟩
  · simp [initialState] at hget
  · simp [initialState] at hget

end Steps

/-- In every run whose steps meet the condition for a class, the account of the class is in order in
every pool; and a further step leaves it so exactly when it meets the condition as well. -/
theorem tranche_accounts_in_order (n : Neighbours W) (c : TrancheClass) (world : W)
    (admin token seniorShareToken juniorShareToken : Address) (config : ValidConfig)
    (origins : Origins) {x : State W × Origins}
    (hrun : Reaches (traced n) (Keeps c)
      (initialState world admin token seniorShareToken juniorShareToken config, origins) x) :
    Sound c x ∧ ∀ tx y, traced n x tx = .ok y → (Sound c y ↔ Keeps c x tx) := by
  have ha : Accounted c x := by
    refine hrun.invariant (accounted_initial _ _ _ _ _ _ _) ?_
    intro x tx y hx hk hstep
    obtain ⟨hiff, haccounted⟩ := sound_iff_keeps hx hstep
    exact haccounted (hiff.2 hk)
  exact ⟨ha.sound, fun tx y hstep => (sound_iff_keeps ha hstep).1⟩

/-- All the capital is lent to the invoice 7, which then comes to an end. -/
def lentAll (ending : Call Unit) : List (Tx Unit) :=
  [⟨[2], .depositTranche 2 10 .Junior 200⟩, ⟨[3], .depositTranche 3 10 .Senior 800⟩,
    ⟨[1], .fundInvoiceFromTranches 10 7 1000⟩, ⟨[], ending⟩]

theorem tranche_accounts_in_order_lost : ∃ x : State Unit × Origins,
    (lentAll (.allocateLoss 10 7 1000)).foldlM (traced quietNeighbours)
      (samplePool, fun _ => 0) = .ok x ∧
    (x.1.pools 10).map (fun p => (p.senior.losses, p.junior.losses)) = some (800, 200) ∧
    Sound .Senior x ∧ Sound .Junior x := by
  obtain ⟨x, hx, hcheck⟩ := exists_of_check
    (p := fun x => decide ((x.1.pools 10).map (fun p => (p.senior.losses, p.junior.losses)) =
      some (800, 200)))
    (x := (lentAll (.allocateLoss 10 7 1000)).foldlM (traced quietNeighbours)
      (samplePool, fun _ => 0)) (by decide)
  have hrun : ∀ c, Reaches (traced quietNeighbours) (Keeps c) (samplePool, fun _ => 0) x := by
    intro c
    refine reaches_of_along .refl ?_ hx
    cases c <;> decide
  exact ⟨x, hx, of_decide_eq_true hcheck,
    (tranche_accounts_in_order quietNeighbours .Senior () 1 10 20 21 _ _ (hrun .Senior)).1,
    (tranche_accounts_in_order quietNeighbours .Junior () 1 10 20 21 _ _ (hrun .Junior)).1⟩

/-- The loan is repaid with 100 more, and the senior class books 800 of principal as earned: it has
800 available, and 1600 by its books. -/
theorem repaid_principal_earned : ∃ (x : State Unit × Origins) (pool : TranchePool),
    (lentAll (.distributeWaterfallRepayment 10 7 1100 0)).foldlM (traced quietNeighbours)
      (samplePool, fun _ => 0) = .ok x ∧
    x.1.pools 10 = some pool ∧ pool.senior.available + pool.senior.deployed = 800 ∧
    pool.senior.deposited + pool.senior.earned - pool.senior.losses = 1600 := by
  obtain ⟨x, hx, hcheck⟩ := exists_of_check
    (p := fun x => (x.1.pools 10).any fun p : TranchePool => decide (
      p.senior.available + p.senior.deployed = 800 ∧
      p.senior.deposited + p.senior.earned - p.senior.losses = 1600))
    (x := (lentAll (.distributeWaterfallRepayment 10 7 1100 0)).foldlM (traced quietNeighbours)
      (samplePool, fun _ => 0)) (by decide)
  obtain ⟨pool, hpool, hvalues⟩ := (Option.any_eq_true _ _).1 hcheck
  exact ⟨x, pool, hx, hpool, of_decide_eq_true hvalues⟩

end Astera.Tranche
