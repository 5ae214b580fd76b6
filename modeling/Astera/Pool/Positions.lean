import Astera.Pool.Rounds

/-!
# What the positions count as deposited

The `deposited` figure is raised by a deposit and by every credit of value, and no call lowers it.
`exec_credited` says which call raises whose figure, as long as no co-funding round is closed.
-/

namespace Astera.Pool

open Fallible Machine

variable {W : Type}

/-! ## Credits -/

def State.creditOf (s : State W) (token : Address) (amount : ℤ) : ℤ :=
  if amount ≤ 0 then 0 else (amount * s.params.exchangeRate token).tdiv 10000

/-- The investor, the token and the amount of a credit: a deposit, or a commitment that is
withdrawn. -/
def Call.credited (s : State W) : Call W → Option (Address × Address × ℤ)
  | .deposit investor token amount _ => some (investor, token, amount)
  | .withdrawCoFundingCommitment investor invoiceId =>
    (s.rounds.get invoiceId).map fun round =>
      (investor, round.token, s.coFundCommitted round.invoiceId investor)
  | _ => none

def Call.closesRound : Call W → Bool
  | .finalizeCoFunding .. => true
  | _ => false

/-- Nobody's figure changes. -/
def KeepsDeposited (s s' : State W) : Prop :=
  ∀ a t, (s'.position a t).deposited = (s.position a t).deposited

structure Credited (s s' : State W) (investor token : Address) (usdc : ℤ) : Prop where
  deposited : ∀ a t, (s'.position a t).deposited =
    set₂ (fun a t => (s.position a t).deposited) investor token
      ((s.position investor token).deposited + usdc) a t
  fits : (s.position investor token).deposited < 2 ^ 127 →
    (s'.position investor token).deposited < 2 ^ 127

section Parts

variable {h : Host W} {signers : List Address} {s s₁ s' : State W} {investor token : Address}

theorem keepsDeposited_of_eq (hposition : s'.position = s.position) : KeepsDeposited s s' := by
  intro a t
  rw [hposition]

theorem KeepsDeposited.trans (h₁ : KeepsDeposited s s₁) (h₂ : KeepsDeposited s₁ s') :
    KeepsDeposited s s' := fun a t => (h₂ a t).trans (h₁ a t)

theorem keepsDeposited_of_set₂ {p : InvestorPosition}
    (hposition : s'.position = set₂ s.position investor token p)
    (hp : p.deposited = (s.position investor token).deposited) : KeepsDeposited s s' := by
  intro a t
  rw [hposition, set₂_apply]
  split_ifs with hkey
  · obtain ⟨rfl, rfl⟩ := hkey
    exact hp
  · rfl

theorem keepsDeposited_updateInvestorAvailable {delta : ℤ}
    (hu : s.updateInvestorAvailable investor token delta = .ok s') : KeepsDeposited s s' := by
  obtain ⟨position, -, -, hdeposited, rfl⟩ := State.updateInvestorAvailable_eq_ok hu
  exact keepsDeposited_of_set₂ rfl hdeposited

theorem position_of_burn {share holder : Address} {amount : ℤ}
    (hb : s.burn h signers share holder amount = .ok s') : s'.position = s.position := by
  obtain ⟨-, -, _, -, rfl⟩ := State.burn_eq_ok hb
  rfl

/-! ### Withdrawals -/

theorem withdraw_keepsDeposited {shares : ℤ}
    (hw : withdraw h signers s investor token shares = .ok s') : KeepsDeposited s s' := by
  unfold withdraw at hw
  simp only [bind_eq_ok, exists_unit, State.transfer_eq_ok] at hw
  obtain ⟨-, -, -, -, -, -, share, -, -, _, -, _, -, _, -, _, -, _, -, -, -, s₁, hburn, s₂, hupd, _,
    -, -, -, -, rfl⟩ := hw
  have hburned : KeepsDeposited s s₁ := keepsDeposited_of_eq (position_of_burn hburn)
  have hupdated := hburned.trans (keepsDeposited_updateInvestorAvailable hupd)
  exact hupdated

theorem requestWithdrawal_keepsDeposited {shares : ℤ} {r : State W × ℕ}
    (hr : requestWithdrawal h signers s investor token shares = .ok r) :
    KeepsDeposited s r.1 := by
  obtain ⟨share, amount, -, -, -, -, -, -, ⟨-, hnow⟩ | hqueue⟩ := requestWithdrawal_eq_ok hr
  · simp only [processImmediateWithdrawal, bind_eq_ok, State.transfer_eq_ok] at hnow
    obtain ⟨s₁, hburn, s₂, hupd, _, -, -, -, hs'⟩ := hnow
    have hburned : KeepsDeposited s s₁ := keepsDeposited_of_eq (position_of_burn hburn)
    have hupdated := hburned.trans (keepsDeposited_updateInvestorAvailable hupd)
    rw [← hs']
    exact hupdated
  · simp only [enqueueWithdrawal, bind_eq_ok, exists_unit, pure_eq_ok] at hqueue
    obtain ⟨-, s₁, hupd, _, -, rfl⟩ := hqueue
    have hupdated := keepsDeposited_updateInvestorAvailable hupd
    exact hupdated

theorem cancelWithdrawalRequest_keepsDeposited
    (hc : cancelWithdrawalRequest signers s investor token = .ok s') : KeepsDeposited s s' := by
  simp only [cancelWithdrawalRequest, bind_eq_ok, exists_unit] at hc
  obtain ⟨-, request, -, -, hupd⟩ := hc
  have hupdated := keepsDeposited_updateInvestorAvailable hupd
  exact hupdated

theorem adjustWithdrawalRequest_keepsDeposited {newShares : ℤ}
    (ha : adjustWithdrawalRequest signers s investor token newShares = .ok s') :
    KeepsDeposited s s' := by
  simp only [adjustWithdrawalRequest, bind_eq_ok, exists_unit, pure_eq_ok] at ha
  obtain ⟨-, -, _, -, _, -, _, -, -, s₁, hupd, rfl⟩ := ha
  have hupdated := keepsDeposited_updateInvestorAvailable hupd
  exact hupdated

/-! ### Commitments and listings -/

theorem commitToInvoice_keepsDeposited {invoiceId : ℕ} {amount : ℤ}
    (hc : commitToInvoice h signers s investor invoiceId amount = .ok s') :
    KeepsDeposited s s' := by
  simp only [commitToInvoice, bind_eq_ok, exists_unit, pure_eq_ok] at hc
  obtain ⟨round, -, c, -, _, -, -, s₁, hburn, _, -, _, -, _, -, -, _, -, rfl⟩ := hc
  have hburned : KeepsDeposited s s₁ := keepsDeposited_of_eq (position_of_burn hburn)
  refine hburned.trans ?_
  exact keepsDeposited_of_set₂ rfl rfl

theorem marketSettleListing_keepsDeposited {market : Address} {l : ListingSettlement}
    (hm : marketSettleListing h signers s market l = .ok s') : KeepsDeposited s s' := by
  simp only [marketSettleListing, bind_eq_ok, exists_unit, pure_eq_ok] at hm
  obtain ⟨-, _, -, -, -, -, -, -, -, -, record, -, -, -, s₁, hmove, -, _, -, _, -, _, -, _, -,
    rfl⟩ := hm
  have hposition : s₁.position = s.position := by
    obtain ⟨_, rfl | ⟨_, _, _, -, -, rfl⟩⟩ := moveCoFundShare_eq_ok hmove <;> rfl
  intro a t
  simp only [set₂_apply, hposition]
  split_ifs with hseller hbuyer
  · obtain ⟨rfl, rfl⟩ := hseller
    rfl
  · obtain ⟨rfl, rfl⟩ := hbuyer
    rfl
  · rfl

/-! ### Credits -/

theorem credited_of_set₂ {p : InvestorPosition} {usdc : ℤ}
    (hposition : s'.position = set₂ s.position investor token p)
    (hp : p.deposited = (s.position investor token).deposited + usdc)
    (hfits : InI128 p.deposited) : Credited s s' investor token usdc := by
  constructor
  · intro a t
    rw [hposition, set₂_apply, set₂_apply, ← hp]
    split_ifs <;> rfl
  · intro _
    rw [hposition, set₂_apply, if_pos ⟨rfl, rfl⟩]
    exact hfits.2

theorem usdcValue_eq_creditOf {f : Fault} {amount usdc : ℤ} (hpos : 0 < amount)
    (hu : s.usdcValue f token amount = .ok usdc) : s.creditOf token amount = usdc := by
  simp only [State.usdcValue, bind_eq_ok, okOr_eq_ok, checkedMul_eq_some,
    checkedDiv_eq_some] at hu
  obtain ⟨_, ⟨rfl, -⟩, -, rfl, -⟩ := hu
  exact if_neg (not_le.2 hpos)

theorem creditOf_at_par {amount : ℤ} (hrate : s.params.exchangeRate token = 10000)
    (hpos : 0 < amount) : s.creditOf token amount = amount := by
  unfold State.creditOf
  rw [if_neg (not_le.2 hpos), hrate]
  exact Int.mul_tdiv_cancel _ (by norm_num)

theorem position_of_mint {share receiver : Address} {amount : ℤ}
    (hm : s.mint h signers share receiver amount = .ok s') : s'.position = s.position := by
  obtain ⟨-, _, -, rfl⟩ := State.mint_eq_ok hm
  rfl

theorem creditInvestorValue_credited {amount : ℤ} {tt tt' : PoolTokenTotals}
    (hc : creditInvestorValue h signers s token investor amount tt = .ok (s', tt')) :
    Credited s s' investor token (s.creditOf token amount) := by
  rcases creditInvestorValue_eq_ok hc with ⟨hnone, hr⟩ |
    ⟨hpos, share, usdc, minted, st, position, -, husdc, -, -, -, -, -, -, hdeposited, hfits, hr⟩
  · obtain ⟨rfl, -⟩ := Prod.mk.inj hr
    have hzero : s'.creditOf token amount = 0 := if_pos hnone
    refine ⟨fun a t => ?_, id⟩
    rw [hzero, add_zero, set₂_apply]
    split_ifs with hkey
    · rw [hkey.1, hkey.2]
    · rfl
  · obtain ⟨rfl, -⟩ := Prod.mk.inj hr
    rw [usdcValue_eq_creditOf hpos husdc]
    exact credited_of_set₂ rfl hdeposited hfits

theorem depositEffects_credited {amount usdc : ℤ}
    (hd : depositEffects h signers s investor token amount usdc = .ok s') :
    Credited s s' investor token usdc := by
  simp only [depositEffects, bind_eq_ok, okOr_eq_ok, checkedAdd_eq_some, exists_unit, pure_eq_ok,
    State.transfer_eq_ok] at hd
  obtain ⟨share, -, minted, -, _, -, s₁, hmint, _, ⟨rfl, hfits⟩, _, -, _, -, _, ⟨-, -, rfl⟩, -,
    rfl⟩ := hd
  have hposition : s₁.position = s.position := by
    rw [position_of_mint hmint]
    rfl
  rw [hposition] at hfits
  exact credited_of_set₂ (by rw [State.recordInflowEvent, hposition]) rfl hfits

/-! ### Whole calls -/

theorem deposit_credited {amount : ℤ} {minRate : Option ℕ}
    (hd : deposit h signers s investor token amount minRate = .ok s') :
    Credited s s' investor token (s.creditOf token amount) := by
  obtain ⟨usdc, s₁, s₂, o, -, hpos, husdc, heff, href, hpass⟩ := deposit_eq_ok hd
  have hcredited := depositEffects_credited heff
  have hreferred : s₂.position = s₁.position := keeps_referral href .position (by decide)
  have hpassed : s'.position = s₂.position :=
    (processWithdrawalQueue_frame hpass).keeps .position (by decide)
  rw [usdcValue_eq_creditOf hpos husdc]
  constructor
  · rw [hpassed, hreferred]
    exact hcredited.deposited
  · rw [hpassed, hreferred]
    exact hcredited.fits

theorem withdrawCoFundingCommitment_credited {invoiceId : ℕ} {round : CoFundingRound}
    (hround : s.rounds.get invoiceId = some round)
    (hw : withdrawCoFundingCommitment h signers s investor invoiceId = .ok s') :
    Credited s s' investor round.token
      (s.creditOf round.token (s.coFundCommitted round.invoiceId investor)) := by
  obtain ⟨round', s₁, tt, refunded, hround', -, hrefund, hne, rfl⟩ :=
    withdrawCoFundingCommitment_eq_ok hw
  obtain rfl : round' = round := Option.some.inj (hround'.symm.trans hround)
  unfold refundCoFundingInvestor at hrefund
  dsimp only at hrefund
  split_ifs at hrefund with hzero
  · simp only [pure_eq_ok, Prod.mk.injEq] at hrefund
    exact absurd hrefund.2.2.symm hne
  · simp only [bind_eq_ok, pure_eq_ok, Prod.mk.injEq] at hrefund
    obtain ⟨⟨s₂, tt'⟩, hcredit, rfl, -, -⟩ := hrefund
    have hcredited := creditInvestorValue_credited hcredit
    exact ⟨hcredited.deposited, hcredited.fits⟩

def Unshared (s : State W) : Prop :=
  ∀ id record, s.funded.get id = some record → record.coFundingRoundId = none

theorem Unshared.of_sameRounds (hs : Unshared s) (hsame : SameRounds s s') : Unshared s' := by
  intro id record hget
  by_contra hround
  obtain ⟨old, hold, heq⟩ := hsame id record hget hround
  exact hround (heq ▸ hs id old hold)

theorem repayInvoiceRequest_position {payer : Address} {request : RepaymentRequest}
    (hs : Unshared s) (hr : repayInvoiceRequest h signers payer s request = .ok s') :
    s'.position = s.position := by
  obtain ⟨q, s₁, history, hquote, hbook, hr⟩ := repayInvoiceRequest_eq_ok hr
  obtain ⟨-, hrecord, -⟩ := quoteRepayment_eq_ok hquote
  have halone := hs _ _ hrecord
  have hbooked : s₁.position = s.position := by
    obtain ⟨s₂, tt, stats, s₃, halloc, -, rfl, hb⟩ := bookRepayment_eq_ok hbook
    have hallocated : s₂.position = s.position := by
      rcases allocateRepayment_eq_ok halloc with ⟨roundId, hround, -⟩ | ⟨-, -, rfl, -⟩ |
        ⟨-, -, rfl, -⟩
      · rw [halone] at hround
        cases hround
      · rfl
      · rfl
    rcases hb with ⟨-, hrelease⟩ | ⟨-, rfl⟩
    · rcases releaseCollateral_eq_ok hrelease with rfl | ⟨_, -, -, -, rfl⟩ <;> exact hallocated
    · exact hallocated
  rcases hr with ⟨-, s₂, o, hpass, href⟩ | ⟨-, rfl⟩
  · have hreferred : s'.position = s₂.position := keeps_referral href .position (by decide)
    have hpassed : s₂.position = s₁.position :=
      (processWithdrawalQueue_frame hpass).keeps .position (by decide)
    rw [hreferred, hpassed, hbooked]
  · exact hbooked

theorem repayInvoicesBatch_position {payer : Address} {requests : List RepaymentRequest}
    (hs : Unshared s) (hr : repayInvoicesBatch h signers s payer requests = .ok s') :
    s'.position = s.position := by
  have hall : Unshared s' ∧ s'.position = s.position := by
    refine foldlM_invariant (P := fun t => Unshared t ∧ t.position = s.position) ?_ ⟨hs, rfl⟩
      (repayInvoicesBatch_eq_ok hr).2
    intro t request t' _ ⟨ht, hposition⟩ hstep
    exact ⟨ht.of_sameRounds (sameLoans_repay hstep).sameRounds,
      (repayInvoiceRequest_position ht hstep).trans hposition⟩
  exact hall.2

end Parts

theorem exec_credited {h : Host W} {s s' : State W} {tx : Tx h} (hs : Unshared s)
    (hopen : tx.call.closesRound = false) (hstep : exec h s tx = .ok s') :
    match tx.call.credited s with
    | some (investor, token, amount) => Credited s s' investor token (s.creditOf token amount)
    | none => KeepsDeposited s s' := by
  obtain ⟨signers, hself, call⟩ := tx
  cases call with
  | deposit investor token amount minRate => exact deposit_credited hstep
  | withdrawCoFundingCommitment investor invoiceId =>
    cases hround : s.rounds.get invoiceId with
    | none =>
      obtain ⟨round, _, _, _, hsome, -⟩ := withdrawCoFundingCommitment_eq_ok hstep
      rw [hround] at hsome
      cases hsome
    | some round =>
      simp only [Call.credited, hround, Option.map_some]
      exact withdrawCoFundingCommitment_credited hround hstep
  | withdraw investor token shares => exact withdraw_keepsDeposited hstep
  | requestWithdrawal investor token shares =>
    obtain ⟨r, hr, rfl⟩ := (map_eq_ok _ _ _).1 hstep
    exact requestWithdrawal_keepsDeposited hr
  | cancelWithdrawalRequest investor token => exact cancelWithdrawalRequest_keepsDeposited hstep
  | adjustWithdrawalRequest investor token newShares =>
    exact adjustWithdrawalRequest_keepsDeposited hstep
  | claimYield investor token =>
    obtain ⟨_, _, -, -, -, ⟨-, rfl⟩ | ⟨-, -, rfl⟩ | ⟨-, -, rfl⟩⟩ := claimYield_eq_ok hstep <;>
      exact keepsDeposited_of_eq rfl
  | repayInvoice payer request =>
    exact keepsDeposited_of_eq
      (repayInvoiceRequest_position hs (repayInvoice_eq_ok.1 hstep).2)
  | repayInvoicesBatch payer requests =>
    exact keepsDeposited_of_eq (repayInvoicesBatch_position hs hstep)
  | commitToInvoice investor invoiceId amount => exact commitToInvoice_keepsDeposited hstep
  | marketSettleListing market listing => exact marketSettleListing_keepsDeposited hstep
  | finalizeCoFunding caller invoiceId => cases hopen
  | _ => exact keepsDeposited_of_eq (exec_kept .position rfl hstep)

end Astera.Pool
