import Astera.Pool.QueueOrder
import Astera.Pool.System

/-!
# Swallowed errors of the queue

`deposit` and `repay_invoice` discard an error of the pass and commit what it did.  The pass writes
the totals after its last payment, so an error leaves everything as it was exactly when it comes
before the first payment.
-/

namespace Astera.Pool

open Fallible Machine Share

variable {W : Type} {h : Host W} {signers : List Address} {token share : Address}

/-- Totals, queue, requests, shares and token balances are what they were. -/
structure Unchanged (s s' : State W) : Prop where
  totals : s'.totals = s.totals
  queue : s'.queue = s.queue
  withdrawalRequests : s'.withdrawalRequests = s.withdrawalRequests
  shareTokens : s'.shareTokens = s.shareTokens
  cash : s'.cash = s.cash

/-! ## An error before the first payment -/

section Spared

variable {x : Entry} {s : State W}

theorem settle_cohort_spared {c : ℤ} {t : ℕ} (hc : sumShares (x.cohort t) = .ok c)
    (ht : 0 < x.totalShares) {later : List WithdrawalRequest}
    {g : Drain W → Except (Halt W) (Drain W)}
    (hg : ∀ d, d.state = s → d.remainingAmount = x.budget → x.Spares later →
      ∀ e s', g d = .error (.err e s') → s' = s) :
    ∀ {requests : List WithdrawalRequest} {d : Drain W}, (∀ r ∈ requests, r.requestedAt = t) →
      d.state = s → d.remainingAmount = x.budget → x.Spares (requests ++ later) →
      ∀ e s', (requests.foldlM
        (settleRequest h signers token share x.valuation x.totalShares x.budget c) d >>= g) =
          .error (.err e s') → s' = s := by
  intro requests
  induction requests with
  | nil => exact fun _ => hg _
  | cons r requests ih =>
    intro d hat hstate hleft hspares e s' herr
    have hr : sumShares (x.cohort r.requestedAt) = .ok c := by
      rw [hat r List.mem_cons_self]
      exact hc
    rw [List.foldlM_cons] at herr
    by_cases hover : x.Overflows r
    · unfold settleRequest at herr
      cases hpay : requestPayout x.budget c x.valuation x.totalShares r.shares with
      | ok a => exact absurd hpay (Entry.requestPayout_ne_ok hr hover a)
      | error f =>
        rw [hpay] at herr
        cases f with
        | err e' =>
          obtain ⟨-, rfl⟩ := Halt.err.inj (Except.error.inj herr)
          exact hstate
        | trap t => cases herr
    · have hpay := Entry.requestPayout_of_fits hr ht hover
      obtain ⟨hpos, hspares⟩ := (Entry.spares_cons hover).1 hspares
      have hskip : settleRequest h signers token share x.valuation x.totalShares x.budget c d r =
          .ok { d with remainingQueue := d.remainingQueue ++ [r] } := by
        unfold settleRequest
        rw [hpay]
        exact if_pos hpos
      rw [hskip, ok_bind] at herr
      refine ih (fun r' hr' => hat r' (List.mem_cons_of_mem _ hr')) ?_ ?_ hspares e s' herr
      · exact hstate
      · exact hleft

theorem drainCohorts_spared (ht : 0 < x.totalShares) :
    ∀ {fuel : ℕ} {pending : List WithdrawalRequest} {d : Drain W}, x.CohortsOf pending →
      d.state = s → d.remainingAmount = x.budget →
      x.Spares (StableSort.ascending WithdrawalRequest.requestedAt pending) →
      ∀ e s', drainCohorts h signers token share x.valuation x.totalShares fuel d pending =
        .error (.err e s') → s' = s := by
  intro fuel
  induction fuel with
  | zero =>
    intro pending d _ _ _ _ e s' herr
    cases herr
  | succ fuel ih =>
    intro pending d hcohorts hstate hleft hspares e s' herr
    cases pending with
    | nil => cases herr
    | cons first rest =>
      have hat : ∀ r ∈ (first :: rest).filter
          (fun r => r.requestedAt = oldestRequestedAt first rest),
          r.requestedAt = oldestRequestedAt first rest := fun r hr =>
        of_decide_eq_true (List.mem_filter.1 hr).2
      rw [Entry.served_cons] at hspares
      unfold drainCohorts at herr
      dsimp only at herr
      cases hsum : sumShares ((first :: rest).filter fun r =>
          r.requestedAt = oldestRequestedAt first rest) with
      | error f =>
        rw [hsum] at herr
        cases f with
        | err e' =>
          obtain ⟨-, rfl⟩ := Halt.err.inj (Except.error.inj herr)
          exact hstate
        | trap t => cases herr
      | ok c =>
        rw [hsum] at herr
        change ((List.foldlM _ d _ : Except (Halt W) (Drain W)) >>= _) = _ at herr
        rw [hleft] at herr
        exact settle_cohort_spared (hcohorts.oldest ▸ hsum) ht
          (fun d' hstate' hleft' hspares' => ih hcohorts.younger hstate' hleft' hspares')
          hat hstate hleft hspares e s' herr

end Spared

theorem haltAt_eq_err {α : Type} {s s' : State W} {r : Res α} {e : PoolError}
    (herr : haltAt s r = .error (.err e s')) : s' = s := by
  cases r with
  | ok a => cases herr
  | error f =>
    cases f with
    | err e' => exact (Halt.err.inj (Except.error.inj herr)).2.symm
    | trap t => cases herr

theorem haltAt_eq_ok {α : Type} {s : State W} {r : Res α} {a : α} :
    haltAt s r = .ok a ↔ r = .ok a := by
  cases r with
  | ok b => simp [haltAt]
  | error f => cases f <;> simp [haltAt]

theorem queuePass_spared {s s' : State W} {availableAmount : ℤ} {e : PoolError}
    (hspares : ∀ x ∈ s.queueEntry token availableAmount, x.PaysNothing)
    (herr : queuePass h signers s token availableAmount = .error (.err e s')) : s' = s := by
  unfold queuePass at herr
  split_ifs at herr with hempty
  · cases herr
  rcases (bind_eq_error _ _ _).1 herr with hliquid | ⟨liquid, hliquid, herr⟩
  · exact haltAt_eq_err hliquid
  dsimp only at herr
  rw [ite_lt_eq_min] at herr
  split_ifs at herr with hnothing
  · cases herr
  rcases (bind_eq_error _ _ _).1 herr with hshare | ⟨share, hshare, herr⟩
  · exact haltAt_eq_err hshare
  split_ifs at herr with hsupply
  · cases herr
  unfold drainQueue at herr
  rcases (bind_eq_error _ _ _).1 herr with hsplit | ⟨⟨pending, regular⟩, hsplit, herr⟩
  · exact haltAt_eq_err hsplit
  rcases (bind_eq_error _ _ _).1 herr with hdrain | ⟨d, -, herr⟩
  · simp only [haltAt_eq_ok, availableLiquidity, State.shareTokenOf, okOr_eq_ok] at hliquid hshare
    have hpays := hspares _ (queueEntry_eq_some.2
      ⟨share, liquid, pending, regular, hshare, hliquid, haltAt_eq_ok.1 hsplit, rfl⟩)
    exact drainCohorts_spared (not_le.1 hsupply) Entry.cohortsOf_pending rfl rfl hpays _ _ hdrain
  · cases herr

theorem paysNothing_of_planPass {s : State W} {availableAmount : ℤ} {f : Fault}
    (hplan : planPass s token availableAmount = .error (f, [])) :
    ∀ x ∈ s.queueEntry token availableAmount, x.PaysNothing := by
  intro x hx
  obtain ⟨share, liquid, pending, regular, hshare, hliquid, hsplit, rfl⟩ := queueEntry_eq_some.1 hx
  have hsome : availableLiquidity (s.tt token) = .ok liquid := (okOr_eq_ok ..).2 hliquid
  have hregistered : s.shareTokenOf token = .ok share := (okOr_eq_ok ..).2 hshare
  unfold planPass at hplan
  split_ifs at hplan with hempty
  · cases hplan
  rw [hsome] at hplan
  change (if (if availableAmount < liquid then availableAmount else liquid) ≤ 0 then _ else _) = _
    at hplan
  rw [ite_lt_eq_min] at hplan
  split_ifs at hplan with hnothing
  · cases hplan
  rw [hregistered] at hplan
  change (if s.supply share ≤ 0 then _ else _) = _ at hplan
  split_ifs at hplan with hsupply
  · cases hplan
  rcases (bind_eq_error _ _ _).1 hplan with hqueue | ⟨p, -, hend⟩
  · unfold planQueue at hqueue
    dsimp only at hqueue
    rw [hsplit] at hqueue
    rcases (bind_eq_error _ _ _).1 hqueue with hno | ⟨_, hok, hqueue⟩
    · cases hno
    obtain rfl := Except.ok.inj hok
    rcases (bind_eq_error _ _ _).1 hqueue with hcohorts | ⟨p, -, hend⟩
    · refine (Entry.paymentsOf_planCohorts_iff (not_le.1 hsupply) le_rfl Entry.cohortsOf_pending
        (p := ⟨(s.tt token).poolValue, _, [], []⟩) rfl).1 ?_
      rw [hcohorts]
      rfl
    · cases hend
  · cases hend

theorem totalBurned_pos {made : List Payment} (h : ∀ m ∈ made, 0 < m.burned) (hne : made ≠ []) :
    0 < totalBurned made := by
  cases made with
  | nil => exact absurd rfl hne
  | cons m made =>
    have hrest : 0 ≤ totalBurned made := by
      refine List.sum_nonneg fun b hb => ?_
      obtain ⟨m', hm', rfl⟩ := List.mem_map.1 hb
      exact (h m' (List.mem_cons_of_mem _ hm')).le
    have hone := h m List.mem_cons_self
    unfold totalBurned at hrest ⊢
    rw [List.map_cons, List.sum_cons]
    omega

theorem made_eq_nil {made : List Payment} {st st' : Address → ShareToken}
    {cash cash' : Address → Address → ℤ}
    (hset : Settled h.self token share made st st' cash cash') (hsame : st' = st) : made = [] := by
  by_contra hne
  have hburned := totalBurned_pos hset.burned_pos hne
  have hsupply := hset.supply share
  rw [hsame, if_pos rfl] at hsupply
  omega

/-- When the pass returns an error, in whatever state, everything is as it was exactly when the pass
as it begins has no request to pay before the first one at which the arithmetic fails. -/
theorem swallowed_error_harmless_iff {s s' : State W} {availableAmount : ℤ} {e : PoolError}
    (hq : processWithdrawalQueue h signers s token availableAmount = .ok (s', some e)) :
    Unchanged s s' ↔ ∀ x ∈ s.queueEntry token availableAmount, x.PaysNothing := by
  constructor
  · intro hsame
    rcases processWithdrawalQueue_eq_some hq with ⟨hplan, -⟩ |
      ⟨share, made, st, cash, requests, hplan, -, hset, rfl⟩
    · exact paysNothing_of_planPass hplan
    · obtain rfl := made_eq_nil hset hsame.shareTokens
      exact paysNothing_of_planPass hplan
  · intro hspares
    unfold processWithdrawalQueue at hq
    split at hq
    next => cases hq
    next e' s₁ hpass =>
      obtain ⟨rfl, -⟩ := Prod.mk.inj (Except.ok.inj hq)
      obtain rfl := queuePass_spared hspares hpass
      exact ⟨rfl, rfl, rfl, rfl, rfl⟩
    next => cases hq

theorem deposit_of_parts {s s₁ s₂ s₃ : State W} {investor : Address} {amount usdc : ℤ}
    {minRate : Option ℕ} {o : Option PoolError}
    (hguards : depositGuards h signers s investor token amount minRate = .ok usdc)
    (heffects : depositEffects h signers s investor token amount usdc = .ok s₁)
    (hreferral : s₁.recordReferralActivity h investor .deposit 0 token = .ok s₂)
    (hq : processWithdrawalQueue h signers s₂ token
      ((checkedSub (s₁.tt token).poolValue (s₁.tt token).totalDeployed).getD 0) = .ok (s₃, o)) :
    deposit h signers s investor token amount minRate = .ok s₃ := by
  unfold deposit
  rw [hguards, ok_bind, heffects, ok_bind]
  dsimp only
  rw [hreferral, ok_bind, hq]
  rfl

/-- A ledger on which every account but the pool holds ten trillion whole tokens. -/
def wealthyState : State Unit :=
  initialState 1 () (fun _ a => if a = 0 then 0 else 100000000000000000000)
    (fun _ => Share.ShareToken.fresh 0) 1 10 20 2

/-- All that investors 3 and 5 deposited is lent out. -/
def lentOut : List (Tx quietHost) :=
  [⟨[1], self_ne_one, .setMaxInvestorConcentration 1 10000⟩,
    ⟨[3], self_ne_three, .deposit 3 10 100 none⟩,
    ⟨[5], self_ne_five, .deposit 5 10 13000000000000000000 none⟩,
    ⟨[4], self_ne_four, .depositCollateral 7 4 10 13000000000000000100⟩,
    ⟨[1], self_ne_one, .fundInvoice 1 ⟨7, 13000000000000000100, 4, 31536001, 10⟩⟩]

/-- Investor 5 asks for its part. -/
def largeRequest : Tx quietHost :=
  ⟨[5], self_ne_five, .requestWithdrawal 5 10 13000000000000000000⟩

def secondDeposit : Tx quietHost := ⟨[3], self_ne_three, .deposit 3 10 1000000000000000000 none⟩

theorem swallowed_error_harmless_iff_large :
    ∃ s s', execAll quietHost wealthyState (lentOut ++ [largeRequest, secondDeposit]) = .ok s ∧
      processWithdrawalQueue quietHost [3] s 10 1000000000000000000 =
        .ok (s', some .AmountOverflow) ∧ Unchanged s s' := by
  obtain ⟨s, hs, hp⟩ := exists_of_check
    (x := execAll quietHost wealthyState (lentOut ++ [largeRequest, secondDeposit]))
    (p := fun s => check (processWithdrawalQueue quietHost [3] s 10 1000000000000000000)
      fun r => decide (r.2 = some .AmountOverflow ∧
        ∀ x ∈ s.queueEntry 10 1000000000000000000, x.PaysNothing)) (by decide)
  obtain ⟨⟨s', o⟩, hq, hp⟩ := exists_of_check hp
  obtain ⟨rfl, hspares⟩ := of_decide_eq_true hp
  exact ⟨s, s', hs, hq, (swallowed_error_harmless_iff hq).2 hspares⟩

/-- Investor 3 has asked for its 100 shares before: the pass inside its deposit pays them out and
burns them, fails at the large request, and leaves the request of investor 3 in the queue and its
money in the pool value. -/
theorem payment_kept_after_error :
    ∃ s s₁ s₂ s₃, execAll quietHost wealthyState (lentOut ++
        [⟨[3], by decide, .requestWithdrawal 3 10 100⟩, ⟨[], by decide, .advance 10⟩,
          largeRequest]) = .ok s ∧
      depositEffects quietHost [3] s 3 10 1000000000000000000 1000000000000000000 = .ok s₁ ∧
      s₁.recordReferralActivity quietHost 3 .deposit 0 10 = .ok s₂ ∧
      processWithdrawalQueue quietHost [3] s₂ 10 1000000000000000000 =
        .ok (s₃, some .AmountOverflow) ∧
      exec quietHost s secondDeposit = .ok s₃ ∧
      s₃.supply 20 = s₂.supply 20 - 100 ∧ s₃.cash 10 3 = s₂.cash 10 3 + 100 ∧
      s₃.queue 10 = s₂.queue 10 ∧ (s₃.tt 10).poolValue = (s₂.tt 10).poolValue ∧
      ¬ Unchanged s₂ s₃ := by
  obtain ⟨s, hs, hp⟩ := exists_of_check
    (x := execAll quietHost wealthyState (lentOut ++
      [⟨[3], by decide, .requestWithdrawal 3 10 100⟩, ⟨[], by decide, .advance 10⟩, largeRequest]))
    (p := fun s => check (depositGuards quietHost [3] s 3 10 1000000000000000000 none) fun usdc =>
      check (depositEffects quietHost [3] s 3 10 1000000000000000000 usdc) fun s₁ =>
      check (s₁.recordReferralActivity quietHost 3 .deposit 0 10) fun s₂ =>
      check (processWithdrawalQueue quietHost [3] s₂ 10 1000000000000000000) fun r =>
        decide (usdc = 1000000000000000000 ∧
          (checkedSub (s₁.tt 10).poolValue (s₁.tt 10).totalDeployed).getD 0 = 1000000000000000000 ∧
          r.2 = some .AmountOverflow ∧ r.1.supply 20 = s₂.supply 20 - 100 ∧
          r.1.cash 10 3 = s₂.cash 10 3 + 100 ∧ r.1.queue 10 = s₂.queue 10 ∧
          (r.1.tt 10).poolValue = (s₂.tt 10).poolValue)) (by decide)
  obtain ⟨usdc, hguards, hp⟩ := exists_of_check hp
  obtain ⟨s₁, heffects, hp⟩ := exists_of_check hp
  obtain ⟨s₂, hreferral, hp⟩ := exists_of_check hp
  obtain ⟨⟨s₃, o⟩, hq, hp⟩ := exists_of_check hp
  obtain ⟨rfl, hliquidity, rfl, hsupply, hcash, hqueue, hvalue⟩ := of_decide_eq_true hp
  refine ⟨s, s₁, s₂, s₃, hs, heffects, hreferral, hq,
    deposit_of_parts hguards heffects hreferral (by rw [hliquidity]; exact hq), hsupply, hcash,
    hqueue, hvalue, fun hsame => ?_⟩
  have hsame' : s₃.supply 20 = s₂.supply 20 := by
    unfold State.supply
    rw [hsame.shareTokens]
  have hfewer : s₃.supply 20 = s₂.supply 20 - 100 := hsupply
  rw [hsame'] at hfewer
  linarith

end Astera.Pool
