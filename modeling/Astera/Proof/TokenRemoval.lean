import Astera.Pool.Rounds

/-!
# What a removed token leaves behind

`execute_remove_token` does not look at the loans of co-funding rounds, at collateral and at open
rounds.  A removal that goes through leaves no claim in the token exactly when none was left there.
-/

namespace Astera.Pool

open Fallible Machine Transition

variable {W : Type}

/-- No collateral in the token is waiting to be returned or seized. -/
def NoCollateral (s : State W) (token : Address) : Prop :=
  ∀ id col, s.collateral.get id = some col → col.token = token → col.settled = true

/-- No open round in the token holds commitments. -/
def NoCommitments (s : State W) (token : Address) : Prop :=
  ∀ id round, s.rounds.get id = some round → round.token = token → round.status = .Open →
    ¬ 0 < round.committedPrincipal

/-- Every loan in the token that `which` selects is repaid. -/
def NoLoans (which : FundedInvoice → Prop) (s : State W) (token : Address) : Prop :=
  ∀ id record, s.funded.get id = some record → record.token = token → which record →
    isInvoiceRepaid s id = .ok true

structure Unclaimed (s : State W) (token : Address) : Prop where
  collateral : NoCollateral s token
  commitments : NoCommitments s token
  loans : NoLoans (fun _ => True) s token
  queue : s.queue token = []
  supply : ∃ share, s.shareToken token = some share ∧ s.supply share = 0

/-- Every loan of the pool alone is in the index of its token. -/
def Indexed (s : State W) : Prop :=
  ∀ id record, s.funded.get id = some record → record.coFundingRoundId = none →
    id ∈ s.tokenInvoiceIds record.token

section Index

variable {h : Host W} {s s' : State W}

theorem Indexed.of_same (hi : Indexed s) (hsame : SameLoans s s')
    (hids : s'.tokenInvoiceIds = s.tokenInvoiceIds) : Indexed s' := by
  intro id record hget hnone
  obtain ⟨old, hold, htoken, hround, -⟩ := hsame id record hget
  rw [hids, ← htoken]
  exact hi id old hold (hround.trans hnone)

theorem indexed_fund {request : FundingRequest} (hi : Indexed s)
    (hf : fundInvoiceRequest h s request = .ok s') : Indexed s' := by
  rcases fundInvoiceRequest_indexed hf with ⟨hsame, hids⟩ | ⟨record, htoken, -, -, hfunded, hids⟩
  · exact hi.of_same hsame hids
  · intro id r hget hnone
    rw [hfunded, Store.get_set] at hget
    rw [hids, Function.update_apply]
    split_ifs at hget with hid
    · obtain rfl := Option.some.inj hget
      rw [if_pos htoken, hid]
      exact List.mem_append_right _ (List.mem_singleton_self _)
    · have hin := hi id r hget hnone
      split_ifs with ht
      · exact List.mem_append_left _ (ht ▸ hin)
      · exact hin

theorem indexed_finalize {signers : List Address} {caller : Address} {invoiceId : ℕ}
    (hi : Indexed s) (hf : finalizeCoFunding h signers s caller invoiceId = .ok s') :
    Indexed s' := by
  obtain ⟨round, -, -, hfill | hexpire⟩ := finalizeCoFunding_eq_ok hf
  · obtain ⟨_, _, _, -, -, rfl⟩ := fillRound_eq_ok hfill
    intro id record hget hnone
    rw [Store.get_set] at hget
    split_ifs at hget with hid
    · rw [← Option.some.inj hget] at hnone
      cases hnone
    · exact hi id record hget hnone
  · obtain ⟨s₁, _, _, hfold, rfl⟩ := expireRound_eq_ok hexpire
    have hc := credits_of_expire hfold
    apply hi.of_same
    · apply sameLoans_of_eq
      rw [hc.rest]
    · rw [hc.rest]

theorem indexed_exec {tx : Tx h} (hi : Indexed s) (hstep : exec h s tx = .ok s') : Indexed s' := by
  obtain ⟨signers, hself, call⟩ := tx
  cases call with
  | fundInvoice admin request => exact indexed_fund hi (fundInvoice_eq_ok.1 hstep).2.2
  | fundMultipleInvoices admin requests =>
    obtain ⟨-, -, -, hfold⟩ := fundMultipleInvoices_eq_ok.1 hstep
    exact foldlM_invariant (fun _ _ _ _ hs hf => indexed_fund hs hf) hi hfold
  | finalizeCoFunding caller invoiceId => exact indexed_finalize hi hstep
  | _ => exact hi.of_same (exec_sameLoans rfl hstep) (exec_kept .tokenInvoiceIds rfl hstep)

end Index

theorem executeRemoveToken_eq_ok {s s' : State W} {token : Address}
    (hr : executeRemoveToken s token = .ok s') :
    s.queue token = [] ∧
    (∃ share, s.shareToken token = some share ∧ s.supply share ≤ 0) ∧
    ∀ id ∈ s.tokenInvoiceIds token, ∀ record, s.funded.get id = some record →
      record.token ≠ token := by
  unfold executeRemoveToken at hr
  simp only [bind_eq_ok, require_eq_ok, exists_unit, State.shareTokenOf, okOr_eq_ok] at hr
  obtain ⟨-, -, hqueue, share, hshare, hsupply, hindex, -⟩ := hr
  refine ⟨hqueue, ⟨share, hshare, hsupply⟩, fun id hid record hrecord htoken => ?_⟩
  apply hindex id hid
  simp [hrecord, htoken]

theorem executeOperation_removeToken {h : Host W} {signers : List Address} {s s' : State W}
    {admin token : Address} {proposalId : ℕ} {proposal : Proposal}
    (hproposal : s.proposals proposalId = some proposal)
    (hop : proposal.operation = .RemoveToken token)
    (he : executeOperation h signers s admin proposalId = .ok s') :
    ∃ proposals s₁, executeRemoveToken { s with proposals := proposals } token = .ok s₁ := by
  obtain ⟨proposal', hproposal', -, -, -, hdispatch⟩ := executeOperation_dispatch he
  obtain rfl : proposal = proposal' := Option.some.inj (hproposal.symm.trans hproposal')
  rw [hop] at hdispatch
  exact ⟨_, s', hdispatch⟩

/-- In every state that a run from `initialize` reaches and in which a proposal to remove a token
executes, no claim in the token is left exactly when there is no unsettled collateral in it, no open
round with commitments and no unrepaid loan of a round. -/
theorem removed_token_unclaimed_iff (h : Host W) (now : ℕ) (world : W)
    (cash : Address → Address → ℤ) (shareTokens : Address → Share.ShareToken)
    (admin₀ token₀ share₀ invoiceContract : Address) (s : State W)
    (hrun : Reaches (exec h) (fun _ _ => True)
      (initialState now world cash shareTokens admin₀ token₀ share₀ invoiceContract) s)
    (signers : List Address) (admin token : Address) (proposalId : ℕ) (proposal : Proposal)
    (hproposal : s.proposals proposalId = some proposal)
    (hop : proposal.operation = .RemoveToken token) (s' : State W)
    (hexec : executeOperation h signers s admin proposalId = .ok s') :
    Unclaimed s token ↔
      NoCollateral s token ∧ NoCommitments s token ∧
        NoLoans (fun record => record.coFundingRoundId ≠ none) s token := by
  have hindexed : Indexed s := by
    refine hrun.invariant (P := Indexed) (fun id record hget _ => ?_) ?_
    · cases hget
    · intro s tx s' hi _ hstep
      exact indexed_exec hi hstep
  obtain ⟨proposals, s₁, hremove⟩ := executeOperation_removeToken hproposal hop hexec
  obtain ⟨hqueue, ⟨share, hshare, hsupply⟩, hindex⟩ := executeRemoveToken_eq_ok hremove
  constructor
  · intro hu
    exact ⟨hu.collateral, hu.commitments,
      fun id record hget htoken _ => hu.loans id record hget htoken trivial⟩
  · rintro ⟨hcollateral, hcommitments, hloans⟩
    refine ⟨hcollateral, hcommitments, fun id record hget htoken _ => ?_, hqueue,
      share, hshare, ?_⟩
    · by_cases hnone : record.coFundingRoundId = none
      · have hin := hindexed id record hget hnone
        rw [htoken] at hin
        exact absurd htoken (hindex id hin record hget)
      · exact hloans id record hget htoken hnone
    · exact le_antisymm hsupply (supply_nonneg s share)

/-- A token is proposed for removal after all of it was withdrawn. -/
def emptiedToken : List (Tx quietHost) :=
  [⟨[1], self_ne_one, .setMaxInvestorConcentration 1 10000⟩,
    ⟨[3], self_ne_three, .deposit 3 10 1000 none⟩,
    ⟨[3], self_ne_three, .withdraw 3 10 1000⟩,
    ⟨[1], self_ne_one, .proposeOperation 1 (.RemoveToken 10)⟩,
    ⟨[], self_notMem_nil, .advance 86401⟩]

theorem removed_token_unclaimed_emptied :
    ∃ s s', execAll quietHost sampleState emptiedToken = .ok s ∧
      executeOperation quietHost [1] s 1 1 = .ok s' ∧ Unclaimed s 10 := by
  obtain ⟨s, hs, hp⟩ := exists_of_check (x := execAll quietHost sampleState emptiedToken)
    (p := fun s => decide (s.collateral.entries = [] ∧ s.rounds.entries = [] ∧
      s.funded.entries = [] ∧ (∃ proposal ∈ s.proposals 1, proposal.operation = .RemoveToken 10) ∧
      (executeOperation quietHost [1] s 1 1).isOk = true)) (by decide)
  obtain ⟨hcol, hrounds, hfunded, ⟨proposal, hproposal, hop⟩, hok⟩ := of_decide_eq_true hp
  obtain ⟨s', hs'⟩ := isOk_iff.1 hok
  have halong : Along (exec quietHost) (fun _ _ => True) sampleState emptiedToken := by
    decide
  have hrun := reaches_of_along .refl halong hs
  refine ⟨s, s', hs, hs', ?_⟩
  apply (removed_token_unclaimed_iff quietHost 1 () _ _ 1 10 20 2 s hrun [1] 1 10 1 proposal
    hproposal hop s' hs').2
  refine ⟨fun id col hget => ?_, fun id round hget => ?_, fun id record hget => ?_⟩
  · rw [Store.get_of_entries_nil hcol] at hget
    cases hget
  · rw [Store.get_of_entries_nil hrounds] at hget
    cases hget
  · rw [Store.get_of_entries_nil hfunded] at hget
    cases hget

/-- All shares of a token were committed to a round, which was filled and lent out. -/
def coFundedToken : List (Tx quietHost) :=
  [⟨[1], self_ne_one, .setMaxInvestorConcentration 1 10000⟩,
    ⟨[3], self_ne_three, .deposit 3 10 1000 none⟩,
    ⟨[1], self_ne_one, .openCoFunding 1 ⟨7, 10, 1000, 4, 31536001, 1000, 0, 0⟩⟩,
    ⟨[3], self_ne_three, .commitToInvoice 3 7 1000⟩,
    ⟨[4], self_ne_four, .finalizeCoFunding 4 7⟩,
    ⟨[1], self_ne_one, .proposeOperation 1 (.RemoveToken 10)⟩,
    ⟨[], self_notMem_nil, .advance 86401⟩]

/-- The token can be removed although the loan of the round is not repaid. -/
theorem co_funded_token_removed :
    ∃ s s' proposal, execAll quietHost sampleState coFundedToken = .ok s ∧
      s.proposals 1 = some proposal ∧ proposal.operation = .RemoveToken 10 ∧
      executeOperation quietHost [1] s 1 1 = .ok s' ∧ ¬ Unclaimed s 10 := by
  obtain ⟨s, hs, hp⟩ := exists_of_check (x := execAll quietHost sampleState coFundedToken)
    (p := fun s => decide ((∃ proposal ∈ s.proposals 1, proposal.operation = .RemoveToken 10) ∧
      (∃ record ∈ s.funded.get 7, record.token = 10) ∧
      isInvoiceRepaid s 7 ≠ .ok true ∧
      (executeOperation quietHost [1] s 1 1).isOk = true)) (by decide)
  obtain ⟨⟨proposal, hproposal, hop⟩, ⟨record, hrecord, htoken⟩, hunpaid, hok⟩ :=
    of_decide_eq_true hp
  obtain ⟨s', hs'⟩ := isOk_iff.1 hok
  exact ⟨s, s', proposal, hs, hproposal, hop, hs',
    fun hu => hunpaid (hu.loans 7 record hrecord htoken trivial)⟩

end Astera.Pool
