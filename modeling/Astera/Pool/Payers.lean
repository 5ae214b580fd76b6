import Astera.Pool.Writes

/-!
# Who pays

A call of the pool takes tokens from those who authorize it and from the pool itself; the balance of
anyone else only grows.
-/

namespace Astera.Pool

open Fallible

variable {W : Type}

/-- No one but the listed payers holds less of a token. -/
def Spares (payers : List Address) (s s' : State W) : Prop :=
  ∀ a, a ∉ payers → ∀ token, s.cash token a ≤ s'.cash token a

section Parts

variable {h : Host W} {signers payers : List Address} {s s₁ s' : State W}

theorem Spares.trans (h₁ : Spares payers s s₁) (h₂ : Spares payers s₁ s') : Spares payers s s' :=
  fun a ha token => (h₁ a ha token).trans (h₂ a ha token)

theorem Spares.of_eq (hcash : s'.cash = s.cash) : Spares payers s s' :=
  fun a _ token => (congrFun (congrFun hcash token) a).ge

theorem Spares.refl (s : State W) : Spares payers s s := Spares.of_eq rfl

theorem Spares.of_keeps {writes : List Table} (hk : Keeps writes s s') (hcash : Table.cash ∉ writes) :
    Spares payers s s' := Spares.of_eq (hk .cash hcash)

theorem Spares.of_move {token sender receiver : Address} {amount : ℤ} (hnn : 0 ≤ amount)
    (hsender : sender ∈ payers)
    (hcash : s'.cash = State.moveCash s.cash token sender receiver amount) : Spares payers s s' := by
  intro a ha t
  have hne : a ≠ sender := fun heq => ha (heq ▸ hsender)
  rw [hcash, State.moveCash_apply]
  simp only [hne, and_false, if_false, sub_zero]
  split_ifs <;> omega

theorem spares_referral {referee token : Address} {kind : ActivityKind} {fee : ℤ}
    (hself : h.self ∈ payers) (hr : s.recordReferralActivity h referee kind fee token = .ok s') :
    Spares payers s s' := by
  rcases State.recordReferralActivity_eq_ok hr with ⟨_, rfl⟩ | ⟨_, reward, _, -, hpos, -, rfl⟩
  · exact Spares.of_eq rfl
  · exact Spares.of_move hpos.le hself rfl

theorem spares_payments {token share : Address} {made : List Payment} (hself : h.self ∈ payers)
    (hpaid : made.foldlM (pay h signers token share) s = .ok s') : Spares payers s s' := by
  refine foldlM_invariant (P := Spares payers s) (fun s₁ m s₂ _ hs hpay => ?_) (Spares.refl s) hpaid
  obtain ⟨-, -, hnn, -, _, _, -, rfl⟩ := pay_eq_ok hpay
  exact hs.trans (Spares.of_move hnn hself rfl)

theorem spares_pass {token : Address} {availableAmount : ℤ} {o : Option PoolError}
    (hself : h.self ∈ payers)
    (hq : processWithdrawalQueue h signers s token availableAmount = .ok (s', o)) :
    Spares payers s s' := by
  have hf := queuePass_follows h signers s token availableAmount
  unfold processWithdrawalQueue at hq
  split at hq
  · rename_i s₁ hpass
    obtain rfl : s₁ = s' := (Prod.mk.inj (Except.ok.inj hq)).1
    rw [hpass] at hf
    rcases hf with ⟨-, rfl⟩ | ⟨share, p, s₁, -, -, hpaid, rfl⟩
    · exact Spares.refl _
    · exact (spares_payments hself hpaid).trans (Spares.of_eq rfl)
  · rename_i e s₁ hpass
    obtain rfl : s₁ = s' := (Prod.mk.inj (Except.ok.inj hq)).1
    rw [hpass] at hf
    rcases hf with ⟨-, rfl⟩ | ⟨share, made, -, -, s₂, requests, hpaid, rfl⟩
    · exact Spares.refl _
    · exact (spares_payments hself hpaid).trans (Spares.of_eq rfl)
  · cases hq

theorem spares_fund {request : FundingRequest} (hself : h.self ∈ payers)
    (hf : fundInvoiceRequest h s request = .ok s') : Spares payers s s' := by
  obtain ⟨s₁, hloan, rfl⟩ := fundInvoiceRequest_eq_ok hf
  have hlent : Spares payers s s₁ := by
    obtain ⟨_, _, _, _, _, _, _, hpos, -, -, -, -, -, rfl⟩ := fundLoan_eq_ok hloan
    exact Spares.of_move hpos.le hself rfl
  refine hlent.trans ?_
  rcases purchaseInsurance_eq h s₁ request with heq | ⟨_, premium, _, -, -, hnn, -, heq⟩
  · rw [heq]
    exact Spares.refl _
  · rw [heq]
    exact Spares.of_move hnn hself rfl

theorem spares_bookRepayment {invoiceId : ℕ} {payer : Address} {q : RepaymentQuote}
    (hself : h.self ∈ payers) (hpayer : payer ∈ payers)
    (hb : bookRepayment h signers s invoiceId payer q = .ok s') : Spares payers s s' := by
  obtain ⟨s₁, tt, stats, s₂, halloc, hnn, hs₂, hb⟩ := bookRepayment_eq_ok hb
  have hallocated : Spares payers s s₁ := by
    rcases allocateRepayment_eq_ok halloc with ⟨roundId, -, hd⟩ | ⟨-, -, rfl, -⟩ | ⟨-, -, rfl, -⟩
    · obtain ⟨_, _, _, -, hfold, -⟩ := distributePariPassuRepayment_eq_ok hd
      exact Spares.of_keeps (keeps_distribute hfold) (by decide)
    · exact Spares.refl _
    · exact Spares.refl _
  have hpaid : Spares payers s s₂ := by
    rw [hs₂]
    exact hallocated.trans (Spares.of_move hnn hpayer rfl)
  rcases hb with ⟨-, hr⟩ | ⟨-, rfl⟩
  · rcases releaseCollateral_eq_ok hr with rfl | ⟨col, -, -, hamount, rfl⟩
    · exact hpaid
    · exact hpaid.trans (Spares.of_move hamount hself rfl)
  · exact hpaid

theorem spares_repay {payer : Address} {request : RepaymentRequest} (hself : h.self ∈ payers)
    (hpayer : payer ∈ payers)
    (hr : repayInvoiceRequest h signers payer s request = .ok s') : Spares payers s s' := by
  obtain ⟨q, s₁, history, -, hb, hr⟩ := repayInvoiceRequest_eq_ok hr
  have hbooked : Spares payers s { s₁ with rateHistory := history } :=
    (spares_bookRepayment hself hpayer hb).trans (Spares.of_eq rfl)
  rcases hr with ⟨-, s₂, o, hpass, href⟩ | ⟨-, rfl⟩
  · exact (hbooked.trans (spares_pass hself hpass)).trans (spares_referral hself href)
  · exact hbooked

theorem spares_revenue {token : Address} {amount : ℤ} (hself : h.self ∈ payers)
    (hp : payRevenue h s token amount = .ok s') : Spares payers s s' := by
  obtain ⟨treasury, hpos, -, rfl⟩ := payRevenue_eq_ok hp
  exact Spares.of_move hpos.le hself rfl

end Parts

theorem exec_spares {h : Host W} {s s' : State W} {tx : Tx h} (hstep : exec h s tx = .ok s') :
    Spares (h.self :: tx.signers) s s' := by
  by_cases hwrites : tx.call.writes.contains .cash = false
  · exact Spares.of_eq (exec_kept .cash hwrites hstep)
  obtain ⟨signers, hnot, call⟩ := tx
  have hself : h.self ∈ h.self :: signers := List.mem_cons_self
  -- the calls that move no tokens are done
  cases call <;> first | exact absurd rfl hwrites | skip
  case deposit investor token amount minRate =>
    obtain ⟨usdc, s₁, s₂, o, hauth, hpos, -, heff, href, hq⟩ := deposit_eq_ok hstep
    have hpaid : Spares (h.self :: signers) s s₁ := by
      obtain ⟨_, _, _, _, _, -, -, -, -, -, -, -, -, rfl⟩ := depositEffects_eq_ok heff
      exact Spares.of_move hpos.le (List.mem_cons_of_mem _ hauth) rfl
    exact (hpaid.trans (spares_referral hself href)).trans (spares_pass hself hq)
  case withdraw investor token shares =>
    obtain ⟨_, _, _, _, _, _, -, -, -, -, -, -, -, hnn, -, -, rfl⟩ := withdraw_eq_ok hstep
    exact Spares.of_move hnn hself rfl
  case requestWithdrawal investor token shares =>
    obtain ⟨r, hr, rfl⟩ := (map_eq_ok _ _ _).1 hstep
    obtain ⟨share, amount, -, hpos, -, -, -, -, ⟨-, hnow⟩ | hqueue⟩ := requestWithdrawal_eq_ok hr
    · obtain ⟨_, _, -, -, -, hnn, hr⟩ := processImmediateWithdrawal_eq_ok hnow
      rw [hr]
      exact Spares.of_move hnn hself rfl
    · obtain ⟨_, _, -, -, hr⟩ := enqueueWithdrawal_eq_ok hpos hqueue
      rw [hr]
      exact Spares.of_eq rfl
  case drainWithdrawalQueue caller token =>
    obtain ⟨_, -, hq⟩ := drainWithdrawalQueue_eq_ok hstep
    exact spares_pass hself hq
  case claimYield investor token =>
    obtain ⟨_, _, -, -, -, ⟨-, rfl⟩ | ⟨hpos, -, rfl⟩ | ⟨hpos, -, rfl⟩⟩ := claimYield_eq_ok hstep
    · exact Spares.of_eq rfl
    · exact Spares.of_move hpos.le hself rfl
    · exact Spares.of_move hpos.le hself rfl
  case fundInvoice admin request => exact spares_fund hself (fundInvoice_eq_ok.1 hstep).2.2
  case fundMultipleInvoices admin requests =>
    obtain ⟨-, -, -, hfold⟩ := fundMultipleInvoices_eq_ok.1 hstep
    exact foldlM_invariant (P := Spares (h.self :: signers) s)
      (fun _ _ _ _ hs hf => hs.trans (spares_fund hself hf)) (Spares.refl s) hfold
  case repayInvoice payer request =>
    obtain ⟨hauth, hr⟩ := repayInvoice_eq_ok.1 hstep
    exact spares_repay hself (List.mem_cons_of_mem _ hauth) hr
  case repayInvoicesBatch payer requests =>
    obtain ⟨hauth, hfold⟩ := repayInvoicesBatch_eq_ok hstep
    exact foldlM_invariant (P := Spares (h.self :: signers) s)
      (fun _ _ _ _ hs hr => hs.trans (spares_repay hself (List.mem_cons_of_mem _ hauth) hr))
      (Spares.refl s) hfold
  case finalizeCoFunding caller invoiceId =>
    obtain ⟨round, -, -, hfill | hexpire⟩ := finalizeCoFunding_eq_ok hstep
    · obtain ⟨_, _, _, -, hnn, rfl⟩ := fillRound_eq_ok hfill
      exact Spares.of_move hnn hself rfl
    · obtain ⟨s₁, tt, total, hfold, rfl⟩ := expireRound_eq_ok hexpire
      have hrefunded : Spares (h.self :: signers) s s₁ :=
        Spares.of_keeps (credits_of_expire hfold).keeps (by decide)
      exact hrefunded.trans (Spares.of_eq rfl)
  case depositCollateral invoiceId depositor token amount =>
    obtain ⟨hauth, hpos, -, -, rfl⟩ := depositCollateral_eq_ok hstep
    exact Spares.of_move hpos.le (List.mem_cons_of_mem _ hauth) rfl
  case topUpCollateral invoiceId depositor token amount =>
    obtain ⟨_, hauth, hpos, -, -, -, rfl⟩ := topUpCollateral_eq_ok hstep
    exact Spares.of_move hpos.le (List.mem_cons_of_mem _ hauth) rfl
  case riskLiquidateCollateral caller invoiceId =>
    obtain ⟨_, -, -, hnn, -, rfl⟩ := riskLiquidateCollateral_eq_ok hstep
    exact Spares.of_move hnn hself rfl
  case withdrawRevenue admin token amount => exact spares_revenue hself (withdrawRevenue_eq_ok hstep)
  case withdrawRevenueViaAc accessControl token amount =>
    exact spares_revenue hself (withdrawRevenueViaAc_eq_ok hstep)
  case assetTransfer token sender receiver amount =>
    obtain ⟨hauth, hnn, rfl⟩ := assetTransfer_eq_ok hstep
    exact Spares.of_move hnn (List.mem_cons_of_mem _ hauth) rfl

end Astera.Pool
