import Astera.Pool.Writes

/-!
# What the neighbours go through

The pool changes its neighbours only by calling them.  What every answer of the host keeps, a call
of the pool keeps.
-/

namespace Astera.Pool

open Fallible

variable {W : Type}

/-- Every call that the pool makes keeps `P` of its neighbours. -/
structure Host.Keeps (h : Host W) (P : W → Prop) : Prop where
  recordFunding : ∀ w contract id amount, P w → P (h.recordFunding w contract id amount)
  markCancelled : ∀ w contract id w', P w → h.markCancelled w contract id = some w' → P w'
  recordCreditFunding : ∀ w contract id sme amount,
    P w → P (h.recordCreditFunding w contract id sme amount)
  purchaseCoverage : ∀ w contract request premium w',
    P w → h.purchaseCoverage w contract request = some (premium, w') → P w'
  recordActivity : ∀ w registry referee kind fee token reward w',
    P w → h.recordActivity w registry referee kind fee token = some (reward, w') → P w'

section Parts

variable {h : Host W} {P : W → Prop} {signers : List Address} {s s' : State W}

theorem Host.Keeps.referral (hk : h.Keeps P) {referee token : Address} {kind : ActivityKind}
    {fee : ℤ} (hr : s.recordReferralActivity h referee kind fee token = .ok s')
    (hs : P s.world) : P s'.world := by
  unfold State.recordReferralActivity at hr
  split_ifs at hr
  · obtain rfl := (pure_eq_ok _ _).1 hr
    exact hs
  · split at hr
    · obtain rfl := (pure_eq_ok _ _).1 hr
      exact hs
    · split at hr
      · obtain rfl := (pure_eq_ok _ _).1 hr
        exact hs
      · rename_i registry _ _ reward w hact
        have hw : P w := hk.recordActivity _ _ _ _ _ _ _ _ hs hact
        simp only at hr
        split_ifs at hr
        · obtain rfl := (pure_eq_ok _ _).1 hr
          exact hw
        · obtain ⟨-, -, rfl⟩ := State.transfer_eq_ok.1 hr
          exact hw

theorem Host.Keeps.notify (hk : h.Keeps P) {invoiceId : ℕ} {sme : Address} {amount : ℤ}
    (hs : P s.world) : P (s.notifyCreditScore h invoiceId sme amount).world := by
  unfold State.notifyCreditScore
  split
  · exact hs
  · exact hk.recordCreditFunding _ _ _ _ _ hs

theorem Host.Keeps.fund (hk : h.Keeps P) {request : FundingRequest}
    (hf : fundInvoiceRequest h s request = .ok s') (hs : P s.world) : P s'.world := by
  apply fundInvoiceRequest_world _ _ hf
  · exact hk.recordFunding _ _ _ _ (hk.recordFunding _ _ _ _ hs)
  · intro w contract hw
    exact hk.recordCreditFunding _ _ _ _ _ hw
  · intro w contract premium w' hw hcover
    exact hk.purchaseCoverage _ _ _ _ _ hw hcover

theorem Host.Keeps.repay (hk : h.Keeps P) {payer : Address} {request : RepaymentRequest}
    (hr : repayInvoiceRequest h signers payer s request = .ok s') (hs : P s.world) :
    P s'.world := by
  obtain ⟨q, s₁, history, -, hb, hr⟩ := repayInvoiceRequest_eq_ok hr
  have hbooked : s₁.world = s.world := keeps_bookRepayment hb .world (by decide)
  rcases hr with ⟨-, s₂, o, hpass, href⟩ | ⟨-, rfl⟩
  · have hqueue : s₂.world = s₁.world :=
      (processWithdrawalQueue_frame hpass).keeps .world (by decide)
    apply hk.referral href
    rw [hqueue, hbooked]
    exact hs
  · exact hbooked ▸ hs

end Parts

theorem exec_world {h : Host W} {P : W → Prop} {s s' : State W} {tx : Tx h} (hk : h.Keeps P)
    (hown : ∀ world, tx.call ≠ .neighbours world) (hx : exec h s tx = .ok s') (hs : P s.world) :
    P s'.world := by
  have hquiet : tx.call.writes.contains .world = false → P s'.world := by
    intro hwrites
    have hsame : s'.world = s.world := exec_kept .world hwrites hx
    exact hsame ▸ hs
  obtain ⟨signers, hself, call⟩ := tx
  cases call with
  | deposit investor token amount minRate =>
    obtain ⟨usdc, s₁, s₂, o, -, -, -, heff, href, hq⟩ := deposit_eq_ok hx
    have hqueue : s'.world = s₂.world := (processWithdrawalQueue_frame hq).keeps .world (by decide)
    rw [hqueue]
    apply hk.referral href
    obtain ⟨_, _, _, _, _, -, -, -, -, -, -, -, -, rfl⟩ := depositEffects_eq_ok heff
    exact hs
  | fundInvoice admin request => exact hk.fund (fundInvoice_eq_ok.1 hx).2.2 hs
  | fundMultipleInvoices admin requests =>
    exact foldlM_invariant (P := fun s => P s.world) (fun _ _ _ _ hs hf => hk.fund hf hs) hs
      (fundMultipleInvoices_eq_ok.1 hx).2.2.2
  | repayInvoice payer request => exact hk.repay (repayInvoice_eq_ok.1 hx).2 hs
  | repayInvoicesBatch payer requests =>
    exact foldlM_invariant (P := fun s => P s.world) (fun _ _ _ _ hs hr => hk.repay hr hs) hs
      (repayInvoicesBatch_eq_ok hx).2
  | cancelFundedInvoice admin invoiceId =>
    simp only [exec, cancelFundedInvoice, bind_eq_ok, exists_unit, okOr_eq_ok, pure_eq_ok] at hx
    obtain ⟨-, -, record, -, w, hw, s₁, hs₁, rfl⟩ := hx
    have hcancelled : P w := hk.markCancelled _ _ _ _ hs hw
    unfold State.undeploy at hs₁
    split_ifs at hs₁
    · obtain rfl := (pure_eq_ok _ _).1 hs₁
      exact hcancelled
    · simp only [bind_eq_ok] at hs₁
      obtain ⟨_, -, hsnap⟩ := hs₁
      obtain ⟨history, rfl⟩ := State.recordRateSnapshot_eq_ok hsnap
      exact hcancelled
  | finalizeCoFunding caller invoiceId =>
    obtain ⟨round, -, -, hfill | hexpire⟩ := finalizeCoFunding_eq_ok hx
    · unfold fillRound at hfill
      simp only [bind_eq_ok, exists_unit, State.transfer_eq_ok, pure_eq_ok] at hfill
      obtain ⟨-, _, -, _, -, _, ⟨-, -, rfl⟩, rfl⟩ := hfill
      exact hk.notify hs
    · obtain ⟨s₁, tt, total, hfold, rfl⟩ := expireRound_eq_ok hexpire
      have hc : s₁.world = s.world := (credits_of_expire hfold).keeps .world (by decide)
      exact hc ▸ hs
  | neighbours world => exact absurd rfl (hown world)
  | _ => exact hquiet rfl

end Astera.Pool
