import Astera.Pool.Loans

/-!
# The rounds of the ledger

A round is spread over three tables: the round, the basis points of its holders and the commitments
of its investors.  Most calls touch none (`exec_roundFrame`); every other writes one round
(`RoundWrite`).
-/

namespace Astera.Pool

open Fallible Machine

variable {W : Type}
variable {h : Host W} {investor : Address} {s s' : State W} {tx : Tx h} {k : ℕ}

/-- Rounds, basis points and commitments are the same in both states. -/
structure RoundFrame (s s' : State W) : Prop where
  rounds : s'.rounds = s.rounds
  share : s'.coFundShare = s.coFundShare
  committed : s'.coFundCommitted = s.coFundCommitted

def Call.isRound : Call W → Bool
  | .openCoFunding .. | .commitToInvoice .. | .withdrawCoFundingCommitment ..
  | .cancelCoFundingRound .. | .finalizeCoFunding .. | .transferCoFundShare ..
  | .marketSettleListing .. => true
  | _ => false

theorem exec_roundFrame (hcall : tx.call.isRound = false) (hstep : exec h s tx = .ok s') :
    RoundFrame s s' := by
  obtain ⟨signers, hself, call⟩ := tx
  cases call <;> first
    | exact ⟨exec_kept .rounds rfl hstep, exec_kept .coFundShare rfl hstep,
        exec_kept .coFundCommitted rfl hstep⟩
    | cases hcall

/-! ## Calls on one round -/

/-- The round `id` becomes `round`, with the given basis points and commitments. -/
structure RoundWrite (s s' : State W) (id : ℕ) (round : CoFundingRound) (share : Address → ℕ)
    (committed : Address → ℤ) : Prop where
  rounds : s'.rounds = s.rounds.set id round
  share : s'.coFundShare = Function.update s.coFundShare id share
  committed : s'.coFundCommitted = Function.update s.coFundCommitted id committed

section Writes

variable {h : Host W} {signers : List Address} {s s₁ s' : State W} {id invoiceId : ℕ}
  {round : CoFundingRound} {share : Address → ℕ} {committed : Address → ℤ}

theorem RoundWrite.get (hw : RoundWrite s s' id round share committed) (k : ℕ) :
    s'.rounds.get k = if k = id then some round else s.rounds.get k := by
  rw [hw.rounds, Store.get_set]

theorem RoundWrite.share_self (hw : RoundWrite s s' id round share committed) :
    s'.coFundShare id = share := by
  rw [hw.share, Function.update_self]

theorem RoundWrite.committed_self (hw : RoundWrite s s' id round share committed) :
    s'.coFundCommitted id = committed := by
  rw [hw.committed, Function.update_self]

theorem RoundWrite.of_ne (hw : RoundWrite s s' id round share committed) (hk : k ≠ id) :
    s'.rounds.get k = s.rounds.get k ∧ s'.coFundShare k = s.coFundShare k ∧
      s'.coFundCommitted k = s.coFundCommitted k := by
  rw [hw.get, if_neg hk, hw.share, hw.committed, Function.update_of_ne hk,
    Function.update_of_ne hk]
  exact ⟨rfl, rfl, rfl⟩

theorem roundWrite_of_rounds (hrounds : s'.rounds = s.rounds.set id round)
    (hshare : s'.coFundShare = s.coFundShare)
    (hcommitted : s'.coFundCommitted = s.coFundCommitted) :
    RoundWrite s s' id round (s.coFundShare id) (s.coFundCommitted id) := by
  refine ⟨hrounds, ?_, ?_⟩
  · rw [hshare, Function.update_eq_self]
  · rw [hcommitted, Function.update_eq_self]

theorem openCoFunding_rounds {admin : Address} {request : OpenCoFundingRequest}
    (ho : openCoFunding signers s admin request = .ok s') :
    ∃ round, s.rounds.get request.invoiceId = none ∧ round.invoiceId = request.invoiceId ∧
      round.status = .Open ∧ round.participants = [] ∧ round.committedPrincipal = 0 ∧
      0 < round.targetPrincipal ∧
      RoundWrite s s' request.invoiceId round (s.coFundShare request.invoiceId)
        (s.coFundCommitted request.invoiceId) := by
  have hpos : 0 < request.targetPrincipal := by
    unfold openCoFunding at ho
    simp only [bind_eq_ok, require_eq_ok, exists_unit] at ho
    exact ho.2.2.2.2.1
  obtain ⟨hnone, -, rfl⟩ := openCoFunding_eq_ok ho
  exact ⟨_, hnone, rfl, rfl, rfl, rfl, hpos, roundWrite_of_rounds rfl rfl rfl⟩

theorem commitGuards_fits {amount : ℤ} {c : Commitment}
    (hg : commitGuards signers s investor amount round = .ok c) :
    round.committedPrincipal + c.amount ≤ round.targetPrincipal := by
  unfold commitGuards at hg
  simp only [bind_eq_ok, require_eq_ok, exists_unit, okOr_eq_ok, checkedSub_eq_some,
    pure_eq_ok] at hg
  obtain ⟨-, -, -, -, -, _, ⟨rfl, -⟩, -, _, -, _, -, -, _, -, _, -, -, -, -, rfl⟩ := hg
  dsimp only
  split_ifs <;> omega

theorem commitToInvoice_rounds {amount : ℤ}
    (hc : commitToInvoice h signers s investor invoiceId amount = .ok s') :
    ∃ round added newBps, s.rounds.get invoiceId = some round ∧ round.status = .Open ∧
      0 < added ∧ round.committedPrincipal + added ≤ round.targetPrincipal ∧
      round.committedPrincipal + added < 2 ^ 127 ∧
      commitmentBps (s.coFundCommitted invoiceId investor + added) round.targetPrincipal =
        .ok newBps ∧
      RoundWrite s s' invoiceId
        { round with
          participants := if s.coFundShare invoiceId investor = 0 then
            round.participants ++ [investor] else round.participants
          committedPrincipal := round.committedPrincipal + added }
        (Function.update (s.coFundShare invoiceId) investor newBps)
        (Function.update (s.coFundCommitted invoiceId) investor
          (s.coFundCommitted invoiceId investor + added)) := by
  unfold commitToInvoice at hc
  simp only [bind_eq_ok, require_eq_ok, exists_unit, okOr_eq_ok, checkedAdd_eq_some,
    checkedSub_eq_some, pure_eq_ok] at hc
  obtain ⟨round, hround, c, hguards, _, ⟨rfl, -⟩, -, s₁, hburn, hc⟩ := hc
  obtain ⟨-, -, st, -, rfl⟩ := State.burn_eq_ok hburn
  obtain ⟨_, -, _, -, newBps, hbps, -, _, ⟨rfl, hrange⟩, rfl⟩ := hc
  obtain ⟨-, hpos, hopen, -⟩ := commitGuards_eq_ok hguards
  exact ⟨round, c.amount, newBps, hround, hopen, hpos, commitGuards_fits hguards, hrange.2, hbps,
    rfl, rfl, rfl⟩

theorem refundCoFundingInvestor_share {tt tt' : PoolTokenTotals} {refunded : ℤ}
    (hr : refundCoFundingInvestor h signers s round investor tt = .ok (s', tt', refunded)) :
    s'.rounds = s.rounds ∧ s'.coFundShare =
      if s.coFundCommitted round.invoiceId investor = 0 then s.coFundShare
      else set₂ s.coFundShare round.invoiceId investor 0 := by
  refine ⟨by rw [(credits_of_refundCoFundingInvestor hr).rest], ?_⟩
  unfold refundCoFundingInvestor at hr
  dsimp only at hr
  split_ifs at hr ⊢ with hzero
  · simp only [pure_eq_ok, Prod.mk.injEq] at hr
    rw [hr.1]
  · simp only [bind_eq_ok, pure_eq_ok, Prod.mk.injEq] at hr
    obtain ⟨⟨s₂, tt₂⟩, hcredit, rfl, -, -⟩ := hr
    rw [← (creditInvestorValue_rounds hcredit).2]

theorem withdrawCoFundingCommitment_rounds
    (hkeys : ∀ round, s.rounds.get invoiceId = some round → round.invoiceId = invoiceId)
    (hw : withdrawCoFundingCommitment h signers s investor invoiceId = .ok s') :
    ∃ round, s.rounds.get invoiceId = some round ∧ round.status = .Open ∧
      RoundWrite s s' invoiceId
        (removeParticipant { round with
          committedPrincipal :=
            saturatingSub round.committedPrincipal (s.coFundCommitted invoiceId investor) } investor)
        (Function.update (s.coFundShare invoiceId) investor 0)
        (Function.update (s.coFundCommitted invoiceId) investor 0) := by
  obtain ⟨round, s₁, tt, refunded, hround, hopen, hrefund, hne, rfl⟩ :=
    withdrawCoFundingCommitment_eq_ok hw
  have hid := hkeys round hround
  obtain ⟨hrefunded, hcommitted⟩ := refundCoFundingInvestor_rounds hrefund
  obtain ⟨hrounds, hshare⟩ := refundCoFundingInvestor_share hrefund
  rw [hid] at hrefunded hcommitted hshare
  rw [if_neg (hrefunded ▸ hne)] at hshare
  refine ⟨round, hround, hopen, ?_, hshare, hcommitted⟩
  simp only [hrounds, hrefunded]

theorem cancelCoFundingRound_rounds {admin : Address}
    (hc : cancelCoFundingRound signers s admin invoiceId = .ok s') :
    ∃ round, s.rounds.get invoiceId = some round ∧ round.status = .Open ∧
      round.committedPrincipal = 0 ∧
      RoundWrite s s' invoiceId { round with status := .Cancelled } (s.coFundShare invoiceId)
        (s.coFundCommitted invoiceId) := by
  obtain ⟨round, hround, hopen, hzero, rfl⟩ := cancelCoFundingRound_eq_ok hc
  exact ⟨round, hround, hopen, hzero, roundWrite_of_rounds rfl rfl rfl⟩

theorem fillRound_rounds (hf : fillRound h s invoiceId round = .ok s') :
    (∃ record, record.coFundingRoundId = some invoiceId ∧
      s'.funded = s.funded.set invoiceId record) ∧
    RoundWrite s s' invoiceId { round with status := .Filled } (s.coFundShare invoiceId)
      (s.coFundCommitted invoiceId) := by
  obtain ⟨_, _, _, -, -, rfl⟩ := fillRound_eq_ok hf
  exact ⟨⟨_, rfl, rfl⟩, roundWrite_of_rounds rfl rfl rfl⟩

/-- Basis points after the refunds of some investors: those of a refunded commitment are cleared. -/
def Refunded (investors : List Address) (committed : Address → ℤ) (share share' : Address → ℕ) :
    Prop :=
  ∀ a, share' a = 0 ∨ share' a = share a ∧ (a ∈ investors → committed a = 0)

theorem refunds_share {investors : List Address} {acc acc' : State W × PoolTokenTotals × ℤ}
    (hf : investors.foldlM (refundStep h signers round) acc = .ok acc') :
    acc'.1.rounds = acc.1.rounds ∧ ∃ share committed,
      Refunded investors (acc.1.coFundCommitted round.invoiceId)
        (acc.1.coFundShare round.invoiceId) share ∧
      acc'.1.coFundShare = Function.update acc.1.coFundShare round.invoiceId share ∧
      acc'.1.coFundCommitted = Function.update acc.1.coFundCommitted round.invoiceId committed := by
  induction investors generalizing acc with
  | nil =>
    simp only [List.foldlM_nil, pure_eq_ok] at hf
    subst hf
    refine ⟨rfl, _, _, fun a => .inr ⟨rfl, fun ha => ?_⟩, (Function.update_eq_self _ _).symm,
      (Function.update_eq_self _ _).symm⟩
    cases ha
  | cons investor investors ih =>
    rw [List.foldlM_cons, bind_eq_ok] at hf
    obtain ⟨acc₁, h₁, hf⟩ := hf
    obtain ⟨hrounds, share, committed, hcleared, hshare, hcommitted⟩ := ih hf
    obtain ⟨refunded, -, hr⟩ := refundStep_eq_ok h₁
    obtain ⟨hrounds₁, hshare₁⟩ := refundCoFundingInvestor_share hr
    obtain ⟨-, hcommitted₁⟩ := refundCoFundingInvestor_rounds hr
    refine ⟨hrounds.trans hrounds₁, share, committed, fun a => ?_, ?_, ?_⟩
    · rcases hcleared a with hzero | ⟨hkept, hother⟩
      · exact .inl hzero
      rw [hcommitted₁, set₂_row] at hother
      by_cases ha : a = investor
      · subst ha
        by_cases hc : acc.1.coFundCommitted round.invoiceId a = 0
        · rw [hshare₁, if_pos hc] at hkept
          exact .inr ⟨hkept, fun _ => hc⟩
        · rw [hshare₁, if_neg hc, set₂_self] at hkept
          exact .inl hkept
      · have hsame : acc₁.1.coFundShare round.invoiceId a =
            acc.1.coFundShare round.invoiceId a := by
          rw [hshare₁]
          split_ifs
          · rfl
          · rw [set₂_row, Function.update_of_ne ha]
        rw [Function.update_of_ne ha] at hother
        rw [hsame] at hkept
        refine .inr ⟨hkept, fun hmem => hother ?_⟩
        exact (List.mem_cons.1 hmem).resolve_left ha
    · rw [hshare, hshare₁]
      split_ifs
      · rfl
      · rw [set₂, Function.update_idem]
    · rw [hcommitted, hcommitted₁, set₂, Function.update_idem]

theorem expireRound_rounds (hid : round.invoiceId = invoiceId)
    (he : expireRound h signers s invoiceId round = .ok s') :
    ∃ share committed,
      Refunded round.participants (s.coFundCommitted invoiceId) (s.coFundShare invoiceId) share ∧
      RoundWrite s s' invoiceId
        { round with committedPrincipal := 0, participants := [], status := .Expired }
        share committed := by
  obtain ⟨s₁, tt, total, hfold, rfl⟩ := expireRound_eq_ok he
  obtain ⟨hrounds, share, committed, hcleared, hshare, hcommitted⟩ := refunds_share hfold
  rw [hid] at hcleared hshare hcommitted
  refine ⟨share, committed, hcleared, ?_, hshare, hcommitted⟩
  dsimp only at hrounds ⊢
  rw [hrounds]

def tradedList (participants : List Address) (seller buyer : Address) (newFrom oldTo : ℕ) :
    List Address :=
  let rest := if newFrom = 0 then participants.filter fun a => a ≠ seller else participants
  if oldTo = 0 then rest ++ [buyer] else rest

theorem syncParticipants_rounds {roundId newFrom oldTo : ℕ} {seller buyer : Address}
    (hround : s.rounds.get roundId = some round)
    (hs : s.syncParticipants roundId seller buyer newFrom oldTo = .ok s') :
    s' = { s with
      rounds := s.rounds.set roundId { round with
        participants := tradedList round.participants seller buyer newFrom oldTo } } := by
  unfold State.syncParticipants at hs
  simp only [hround, bind_eq_ok, require_eq_ok, exists_unit, pure_eq_ok] at hs
  obtain ⟨-, rfl⟩ := hs
  unfold tradedList removeParticipant
  by_cases hfrom : newFrom = 0 <;> by_cases hto : oldTo = 0 <;> simp [hfrom, hto]

/-- Basis points of the round `id` go from `seller` to `buyer`, and the list of holders follows. -/
def Trade (s s' : State W) (id : ℕ) (round : CoFundingRound) (seller buyer : Address)
    (newFrom newTo : ℕ) : Prop :=
  RoundWrite s s' id
    { round with
      participants := tradedList round.participants seller buyer newFrom (s.coFundShare id buyer) }
    (Function.update (Function.update (s.coFundShare id) seller newFrom) buyer newTo)
    (s.coFundCommitted id)

theorem transferCoFundShare_rounds {sender token receiver : Address} {bps : ℕ}
    (ht : transferCoFundShare signers s sender invoiceId token receiver bps = .ok s') :
    ∃ record newFrom newTo, s.funded.get invoiceId = some record ∧ sender ≠ receiver ∧
      0 < s.coFundShare invoiceId sender ∧ newFrom ≤ s.coFundShare invoiceId sender ∧
      newFrom + newTo ≤ s.coFundShare invoiceId sender + s.coFundShare invoiceId receiver ∧
      ((record.coFundingRoundId = none ∧ s'.rounds = s.rounds ∧ s'.coFundShare =
          set₂ (set₂ s.coFundShare invoiceId sender newFrom) invoiceId receiver newTo ∧
          s'.coFundCommitted = s.coFundCommitted) ∨
        ∃ roundId round, record.coFundingRoundId = some roundId ∧
          s.rounds.get roundId = some round ∧ round.status = .Filled ∧
          (roundId = invoiceId → Trade s s' invoiceId round sender receiver newFrom newTo)) := by
  unfold transferCoFundShare at ht
  simp only [bind_eq_ok, require_eq_ok, exists_unit, okOr_eq_ok] at ht
  obtain ⟨-, -, -, -, -, record, hrecord, -, hfilled, -, hne, ⟨hpos, hle⟩, ht⟩ := ht
  generalize truncU 32 (s.coFundShare invoiceId sender * bps / bpsDenom) = moved at hpos hle ht
  refine ⟨record, s.coFundShare invoiceId sender - moved,
    min (s.coFundShare invoiceId receiver + moved) (2 ^ 32 - 1), hrecord, hne, by omega,
    Nat.sub_le _ _, by omega, ?_⟩
  split at ht
  · rename_i hnone
    obtain rfl := (pure_eq_ok _ _).1 ht
    exact .inl ⟨hnone, rfl, rfl, rfl⟩
  · rename_i roundId hid
    rw [hid] at hfilled
    simp only [State.requireRoundFilled, bind_eq_ok, okOr_eq_ok, require_eq_ok] at hfilled
    obtain ⟨round, hround, hstatus⟩ := hfilled
    refine .inr ⟨roundId, round, hid, hround, hstatus, ?_⟩
    rintro rfl
    have hs' := syncParticipants_rounds (by exact hround) ht
    rw [hs']
    refine ⟨rfl, ?_, (Function.update_eq_self _ _).symm⟩
    simp only [set₂, Function.update_self, Function.update_idem]

theorem moveCoFundShare_rounds {record : FundedInvoice} {isCoFunding : Bool}
    {seller buyer : Address} {amountOrBps : ℕ}
    (hm : s.moveCoFundShare record isCoFunding seller buyer amountOrBps = .ok s') :
    s' = s ∨ ∃ roundId newFrom newTo, isCoFunding = true ∧ record.coFundingRoundId = some roundId ∧
      newFrom + newTo = s.coFundShare roundId seller + s.coFundShare roundId buyer ∧
      newFrom ≤ s.coFundShare roundId seller ∧
      ∀ round, s.rounds.get roundId = some round →
        Trade s s' roundId round seller buyer newFrom newTo := by
  unfold State.moveCoFundShare at hm
  split_ifs at hm with hco
  · exact .inl ((pure_eq_ok _ _).1 hm).symm
  · simp only [bind_eq_ok, require_eq_ok, exists_unit, okOr_eq_ok, fitU_eq_some] at hm
    obtain ⟨roundId, hid, hle, _, ⟨rfl, -⟩, hm⟩ := hm
    refine .inr ⟨roundId, s.coFundShare roundId seller - truncU 32 amountOrBps,
      s.coFundShare roundId buyer + truncU 32 amountOrBps, by simpa using hco, hid, by omega,
      Nat.sub_le _ _, fun round hround => ?_⟩
    have hs' := syncParticipants_rounds (by exact hround) hm
    rw [hs']
    refine ⟨rfl, ?_, (Function.update_eq_self _ _).symm⟩
    simp only [set₂, Function.update_self, Function.update_idem]

end Writes

/-! ## The rounds of the records -/

/-- Every record was there before, in the same token, from the same round and with the same fee. -/
def SameLoans (s s' : State W) : Prop :=
  ∀ id record, s'.funded.get id = some record → ∃ old, s.funded.get id = some old ∧
    old.token = record.token ∧ old.coFundingRoundId = record.coFundingRoundId ∧
    old.factoringFee = record.factoringFee

/-- The records that came from a round came from it before. -/
def SameRounds (s s' : State W) : Prop :=
  ∀ id record, s'.funded.get id = some record → record.coFundingRoundId ≠ none →
    ∃ old, s.funded.get id = some old ∧ old.coFundingRoundId = record.coFundingRoundId

section Records

variable {h : Host W} {signers : List Address} {s s₁ s' : State W} {invoiceId : ℕ}

theorem sameLoans_of_eq (hfunded : s'.funded = s.funded) : SameLoans s s' := by
  intro id record hget
  exact ⟨record, hfunded ▸ hget, rfl, rfl, rfl⟩

theorem SameLoans.trans (h₁ : SameLoans s s₁) (h₂ : SameLoans s₁ s') : SameLoans s s' := by
  intro id record hget
  obtain ⟨mid, hmid, htoken, hround, hfee⟩ := h₂ id record hget
  obtain ⟨old, hold, htoken', hround', hfee'⟩ := h₁ id mid hmid
  exact ⟨old, hold, htoken'.trans htoken, hround'.trans hround, hfee'.trans hfee⟩

theorem sameLoans_of_set {old record : FundedInvoice} (hold : s.funded.get invoiceId = some old)
    (hfunded : s'.funded = s.funded.set invoiceId record) (htoken : old.token = record.token)
    (hround : old.coFundingRoundId = record.coFundingRoundId)
    (hfee : old.factoringFee = record.factoringFee) : SameLoans s s' := by
  intro id r hget
  rw [hfunded, Store.get_set] at hget
  split_ifs at hget with hid
  · obtain rfl := Option.some.inj hget
    exact ⟨old, hid ▸ hold, htoken, hround, hfee⟩
  · exact ⟨r, hget, rfl, rfl, rfl⟩

theorem sameLoans_of_remove (hfunded : s'.funded = s.funded.remove invoiceId) :
    SameLoans s s' := by
  intro id r hget
  rw [hfunded] at hget
  exact ⟨r, Store.get_of_get_remove hget, rfl, rfl, rfl⟩

theorem sameLoans_repay {payer : Address} {request : RepaymentRequest}
    (hr : repayInvoiceRequest h signers payer s request = .ok s') : SameLoans s s' := by
  obtain ⟨q, hq, hchange⟩ := repayInvoiceRequest_loans hr
  obtain ⟨-, hrecord, -⟩ := quoteRepayment_eq_ok hq
  exact sameLoans_of_set hrecord hchange.funded rfl rfl rfl

theorem fundInvoiceRequest_indexed {request : FundingRequest}
    (hf : fundInvoiceRequest h s request = .ok s') :
    (SameLoans s s' ∧ s'.tokenInvoiceIds = s.tokenInvoiceIds) ∨
    ∃ record, record.token = request.token ∧ record.coFundingRoundId = none ∧
      0 ≤ record.factoringFee ∧ s'.funded = s.funded.set request.invoiceId record ∧
      s'.tokenInvoiceIds = Function.update s.tokenInvoiceIds request.token
        (s.tokenInvoiceIds request.token ++ [request.invoiceId]) := by
  obtain ⟨_, _, record, -, hfee, hrecord, hchange⟩ := fundInvoiceRequest_loans hf
  have hids : s'.tokenInvoiceIds = Function.update s.tokenInvoiceIds request.token
      (if (s.funded.get request.invoiceId).isNone then
        s.tokenInvoiceIds request.token ++ [request.invoiceId]
      else s.tokenInvoiceIds request.token) := by
    obtain ⟨s₁, hloan, rfl⟩ := fundInvoiceRequest_eq_ok hf
    have hinsured : (s₁.purchaseInsurance h request).tokenInvoiceIds = s₁.tokenInvoiceIds := by
      rcases purchaseInsurance_eq h s₁ request with heq | ⟨_, _, _, -, -, -, -, heq⟩ <;> rw [heq]
    rw [hinsured]
    unfold fundLoan fundBooks at hloan
    simp only [bind_eq_ok, exists_unit, State.transfer_eq_ok, pure_eq_ok] at hloan
    obtain ⟨-, _, -, -, -, -, _, ⟨_, -, _, -, _, -, _, -, -, _, -, rfl⟩, _, ⟨-, -, rfl⟩, s₂, hsnap,
      rfl⟩ := hloan
    obtain ⟨_, rfl⟩ := State.recordRateSnapshot_eq_ok hsnap
    obtain ⟨_, hw⟩ := notifyCreditScore_eq h _ request.invoiceId request.sme request.principal
    rw [hw]
  rcases fundedRecord_eq_ok hrecord with ⟨old, hold, rfl⟩ | ⟨hnone, rfl⟩
  · refine .inl ⟨sameLoans_of_set hold hchange.funded rfl rfl rfl, ?_⟩
    rw [hids, hold]
    exact Function.update_eq_self _ _
  · refine .inr ⟨_, rfl, rfl, hfee, hchange.funded, ?_⟩
    rw [hids, hnone]
    rfl

theorem SameLoans.sameRounds (hs : SameLoans s s') : SameRounds s s' := by
  intro id record hget _
  obtain ⟨old, hold, -, hround, -⟩ := hs id record hget
  exact ⟨old, hold, hround⟩

theorem SameRounds.trans (h₁ : SameRounds s s₁) (h₂ : SameRounds s₁ s') : SameRounds s s' := by
  intro id record hget hround
  obtain ⟨mid, hmid, heq⟩ := h₂ id record hget hround
  obtain ⟨old, hold, heq'⟩ := h₁ id mid hmid (heq ▸ hround)
  exact ⟨old, hold, heq'.trans heq⟩

theorem sameRounds_fund {request : FundingRequest} (hf : fundInvoiceRequest h s request = .ok s') :
    SameRounds s s' := by
  rcases fundInvoiceRequest_indexed hf with ⟨hs, -⟩ | ⟨record, -, hnone, -, hfunded, -⟩
  · exact hs.sameRounds
  · intro id r hget hround
    rw [hfunded, Store.get_set] at hget
    split_ifs at hget with hid
    · exact absurd (Option.some.inj hget ▸ hnone) hround
    · exact ⟨r, hget, rfl⟩

end Records

def Call.opensLoan : Call W → Bool
  | .fundInvoice .. | .fundMultipleInvoices .. | .finalizeCoFunding .. => true
  | _ => false

theorem exec_sameLoans (hcall : tx.call.opensLoan = false) (hstep : exec h s tx = .ok s') :
    SameLoans s s' := by
  obtain ⟨signers, hself, call⟩ := tx
  cases call with
  | repayInvoice payer request => exact sameLoans_repay (repayInvoice_eq_ok.1 hstep).2
  | repayInvoicesBatch payer requests =>
    exact foldlM_invariant (P := SameLoans s)
      (fun _ _ _ _ hs hr => hs.trans (sameLoans_repay hr)) (sameLoans_of_eq rfl)
      (repayInvoicesBatch_eq_ok hstep).2
  | cleanupFundedInvoice admin invoiceId =>
    obtain ⟨_, -, rfl⟩ := cleanupFundedInvoice_eq_ok hstep
    exact sameLoans_of_remove rfl
  | cancelFundedInvoice admin invoiceId =>
    obtain ⟨_, -, hchange⟩ := cancelFundedInvoice_loans hstep
    exact sameLoans_of_remove hchange.funded
  | updateInvoiceDueDate invoiceContract invoiceId newDueDate =>
    obtain ⟨record, hrecord, -, rfl⟩ := updateInvoiceDueDate_eq_ok hstep
    exact sameLoans_of_set hrecord rfl rfl rfl rfl
  | fundInvoice | fundMultipleInvoices | finalizeCoFunding => cases hcall
  | _ => exact sameLoans_of_eq (exec_kept .funded rfl hstep)

theorem exec_sameRounds (hcall : ∀ caller invoiceId, tx.call ≠ .finalizeCoFunding caller invoiceId)
    (hstep : exec h s tx = .ok s') : SameRounds s s' := by
  by_cases hopens : tx.call.opensLoan = false
  · exact (exec_sameLoans hopens hstep).sameRounds
  obtain ⟨signers, hself, call⟩ := tx
  cases call with
  | fundInvoice admin request => exact sameRounds_fund (fundInvoice_eq_ok.1 hstep).2.2
  | fundMultipleInvoices admin requests =>
    obtain ⟨-, -, -, hfold⟩ := fundMultipleInvoices_eq_ok.1 hstep
    exact foldlM_invariant (P := SameRounds s)
      (fun _ _ _ _ hs hf => hs.trans (sameRounds_fund hf)) (sameLoans_of_eq rfl).sameRounds hfold
  | finalizeCoFunding caller invoiceId => exact absurd rfl (hcall caller invoiceId)
  | _ => exact absurd rfl hopens

def KeepsClosed (s s' : State W) : Prop :=
  ∀ id round, s.rounds.get id = some round → round.status ≠ .Open →
    ∃ round', s'.rounds.get id = some round' ∧ round'.status = round.status

theorem keepsClosed_of_eq (hrounds : s'.rounds = s.rounds) : KeepsClosed s s' := by
  intro id round hget _
  exact ⟨round, hrounds ▸ hget, rfl⟩

theorem keepsClosed_of_set {new : CoFundingRound} (hrounds : s'.rounds = s.rounds.set k new)
    (hnew : ∀ old, s.rounds.get k = some old → old.status ≠ .Open → new.status = old.status) :
    KeepsClosed s s' := by
  intro id round hget hclosed
  rw [hrounds, Store.get_set]
  split_ifs with hid
  · exact ⟨new, rfl, hnew round (hid ▸ hget) hclosed⟩
  · exact ⟨round, hget, rfl⟩

theorem keepsClosed_of_open {s s₁ s' : State W} {old new : CoFundingRound}
    (hold : s.rounds.get k = some old) (hopen : old.status = .Open) (hmid : s₁.rounds = s.rounds)
    (hrounds : s'.rounds = s₁.rounds.set k new) : KeepsClosed s s' := by
  rw [hmid] at hrounds
  apply keepsClosed_of_set hrounds
  intro round hround hclosed
  rw [hold] at hround
  exact absurd (Option.some.inj hround ▸ hopen) hclosed

theorem keepsClosed_of_participants {old : CoFundingRound} {participants : List Address}
    (hold : s.rounds.get k = some old)
    (hrounds : s'.rounds = s.rounds.set k { old with participants := participants }) :
    KeepsClosed s s' := by
  apply keepsClosed_of_set hrounds
  intro round hround _
  rw [hold] at hround
  rw [← Option.some.inj hround]

theorem exec_keepsClosed (hstep : exec h s tx = .ok s') :
    KeepsClosed s s' := by
  by_cases hcall : tx.call.isRound = false
  · exact keepsClosed_of_eq (exec_roundFrame hcall hstep).rounds
  obtain ⟨signers, hself, call⟩ := tx
  cases call with
  | openCoFunding admin request =>
    obtain ⟨hnone, -, rfl⟩ := openCoFunding_eq_ok hstep
    apply keepsClosed_of_set rfl
    intro old hold
    rw [hnone] at hold
    cases hold
  | commitToInvoice investor invoiceId amount =>
    obtain ⟨round, _, _, hround, hopen, -, -, -, -, hw⟩ := commitToInvoice_rounds hstep
    exact keepsClosed_of_open hround hopen rfl hw.rounds
  | withdrawCoFundingCommitment investor invoiceId =>
    obtain ⟨round, s₁, tt, _, hround, hopen, hrefund, -, rfl⟩ :=
      withdrawCoFundingCommitment_eq_ok hstep
    exact keepsClosed_of_open hround hopen (refundCoFundingInvestor_share hrefund).1 rfl
  | cancelCoFundingRound admin invoiceId =>
    obtain ⟨round, hround, hopen, -, hw⟩ := cancelCoFundingRound_rounds hstep
    exact keepsClosed_of_open hround hopen rfl hw.rounds
  | finalizeCoFunding caller invoiceId =>
    obtain ⟨round, hround, hopen, hfill | hexpire⟩ := finalizeCoFunding_eq_ok hstep
    · exact keepsClosed_of_open hround hopen rfl (fillRound_rounds hfill).2.rounds
    · obtain ⟨s₁, tt, total, hfold, rfl⟩ := expireRound_eq_ok hexpire
      exact keepsClosed_of_open hround hopen (refunds_share hfold).1 rfl
  | transferCoFundShare sender invoiceId token receiver bps =>
    obtain ⟨_, _, -, -, rfl | ⟨roundId, round, _, -, hround, rfl⟩⟩ :=
      transferCoFundShare_eq_ok hstep
    · exact keepsClosed_of_eq rfl
    · exact keepsClosed_of_participants hround rfl
  | marketSettleListing market listing =>
    obtain ⟨_, s₁, _, _, -, -, hmove, -, -, rfl⟩ := marketSettleListing_eq_ok hstep
    obtain ⟨_, rfl | ⟨roundId, round, _, -, hround, rfl⟩⟩ := moveCoFundShare_eq_ok hmove
    · exact keepsClosed_of_eq rfl
    · exact keepsClosed_of_participants hround rfl
  | _ => exact absurd rfl hcall

end Astera.Pool
