import Astera.Lib.Accumulator
import Astera.Pool.Writes

/-!
# Conservation of yield

Interest is spread over the shares through `reward_per_share`, and only a claim writes the snapshot.
The accumulator pays out no more than was spread as long as shares are acquired by investors whose
snapshot is up to date.
-/

namespace Astera.Pool

open Fallible Machine Transition Accumulator

variable {W : Type}
variable {h : Host W} {holder investor payer share : Address} {st : Address → Share.ShareToken}
  {tt : PoolTokenTotals} {s s' : State W} {invoiceId : ℕ} {amount : ℤ}

/-! ## History -/

/-- What became of the interest in a token. -/
structure YieldLog where
  /-- The base yield that claims were paid. -/
  paid : ℤ := 0
  /-- The interest that full repayments spread over the shares. -/
  distributed : ℤ := 0
  /-- The accumulator when an investor last acquired shares. -/
  acquired : Address → ℤ := fun _ => 0

/-- The balances of the shares of a token. -/
def State.holders (s : State W) (token : Address) : Store Address ℤ :=
  match s.shareToken token with
  | some share => (s.shareTokens share).balances
  | none => ∅

def State.outstandingShares (s : State W) (token : Address) : ℤ :=
  (s.holders token).total fun _ b => b

def YieldLog.acquire (log : YieldLog) (investor : Address) (index : ℤ) : YieldLog :=
  { log with acquired := Function.update log.acquired investor index }

/-- The repayment spreads its interest over the shares of the token. -/
def spreads (s : State W) (token : Address) (q : RepaymentQuote) : Bool :=
  decide (q.full = true ∧ q.record.coFundingRoundId = none ∧ q.record.token = token ∧
    0 < s.outstandingShares token)

/-- Interest is spread by the full repayment of a loan of the pool. -/
def noteInterest (token payer : Address) (s : State W) (request : RepaymentRequest) (_ : State W)
    (log : YieldLog) : YieldLog :=
  match quoteRepayment s request.invoiceId payer request.amount with
  | .ok q =>
    if spreads s token q = true then { log with distributed := log.distributed + q.interest }
    else log
  | .error _ => log

def loggedRepayment (h : Host W) (signers : List Address) (token payer : Address) :
    State W × YieldLog → RepaymentRequest → Res (State W × YieldLog) :=
  track (repayInvoiceRequest h signers payer) (noteInterest token payer)

def noteYield (h : Host W) (token : Address) (s : State W) (tx : Tx h) (s' : State W)
    (log : YieldLog) : YieldLog :=
  match tx.call with
  | .deposit investor t _ _ =>
    if t = token then log.acquire investor (s.tt token).rewardPerShare else log
  | .shareTransfer share _ receiver _ =>
    if s.shareToken token = some share then log.acquire receiver (s.tt token).rewardPerShare
    else log
  | .claimYield investor t =>
    match s.claimableYield investor token with
    | .ok claimable =>
      if t = token then { log with paid := log.paid + claimable } else log
    | .error _ => log
  | .repayInvoice payer request => noteInterest token payer s request s' log
  | .repayInvoicesBatch payer requests =>
    match requests.foldlM (loggedRepayment h tx.signers token payer) (s, log) with
    | .ok x => x.2
    | .error _ => log
  | _ => log

def logged (h : Host W) (token : Address) : State W × YieldLog → Tx h → Res (State W × YieldLog) :=
  track (exec h) (noteYield h token)

theorem logged_eq_ok {token : Address} {log log' : YieldLog} {tx : Tx h} :
    logged h token (s, log) tx = .ok (s', log') ↔
      exec h s tx = .ok s' ∧ log' = noteYield h token s tx s' log :=
  track_eq_ok _ _ _ _ _

/-- The share contract of the token serves no other token, nobody acquired shares after its
snapshot, and the accumulator is conserved. -/
structure Yields (token : Address) (x : State W × YieldLog) : Prop where
  alone : ∀ sh t, x.1.shareToken token = some sh → x.1.shareToken t = some sh → t = token
  nonneg : ∀ a, 0 ≤ x.1.rewardSnapshot a token
  acquired : ∀ a, x.2.acquired a ≤ x.1.rewardSnapshot a token
  conserved : Conserved rewardPrecision (x.1.holders token) (x.1.tt token).rewardPerShare
    (fun a => x.1.rewardSnapshot a token) x.2.paid x.2.distributed

/-- Shares of the token are at most burned, and neither its accumulator nor a snapshot of it
changes. -/
structure YieldFrame (token : Address) (s s' : State W) : Prop where
  shareToken : s'.shareToken = s.shareToken
  snapshot : ∀ a, s'.rewardSnapshot a token = s.rewardSnapshot a token
  reward : (s'.tt token).rewardPerShare = (s.tt token).rewardPerShare
  burned : ∀ w : Address → ℤ, (∀ a, 0 ≤ w a) →
    (s'.holders token).total (fun a b => w a * b) ≤ (s.holders token).total fun a b => w a * b

section Frames

variable {h : Host W} {signers : List Address} {s s₁ s' : State W} {token t : Address}
  {log : YieldLog}

theorem YieldFrame.trans (h₁ : YieldFrame token s s₁) (h₂ : YieldFrame token s₁ s') :
    YieldFrame token s s' :=
  ⟨h₂.shareToken.trans h₁.shareToken, fun a => (h₂.snapshot a).trans (h₁.snapshot a),
    h₂.reward.trans h₁.reward, fun w hw => (h₂.burned w hw).trans (h₁.burned w hw)⟩

theorem Yields.frame (hy : Yields token (s, log)) (hf : YieldFrame token s s') :
    Yields token (s', log) := by
  have hsnap : (fun a => s'.rewardSnapshot a token) = fun a => s.rewardSnapshot a token :=
    funext hf.snapshot
  refine ⟨?_, ?_, ?_, ?_⟩
  · simpa only [hf.shareToken] using hy.alone
  · simpa only [hf.snapshot] using hy.nonneg
  · simpa only [hf.snapshot] using hy.acquired
  · dsimp only
    rw [hsnap, hf.reward]
    exact hy.conserved.move (hf.burned _ fun a => sub_nonneg.2 (hy.conserved.snapshot_le a))

theorem holders_of_eq (hshare : s'.shareToken = s.shareToken)
    (htokens : s'.shareTokens = s.shareTokens) : s'.holders token = s.holders token := by
  unfold State.holders
  rw [hshare, htokens]

theorem holders_moved {delta : ℤ} (hm : State.Moved s.shareTokens st share holder delta)
    (hshare : s'.shareToken = s.shareToken) (htokens : s'.shareTokens = st) (w : Address → ℤ) :
    (s'.holders token).total (fun a b => w a * b) =
      (s.holders token).total (fun a b => w a * b) +
        if s.shareToken token = some share then w holder * delta else 0 := by
  unfold State.holders
  rw [hshare, htokens]
  cases hget : s.shareToken token with
  | none => simp
  | some sh =>
    rw [hm.weighted sh w]
    by_cases hsh : sh = share <;> simp [hsh]

theorem holders_burned (hm : State.Moved s.shareTokens st share holder (-amount)) (hnn : 0 ≤ amount)
    (hshare : s'.shareToken = s.shareToken) (htokens : s'.shareTokens = st) (w : Address → ℤ)
    (hw : ∀ a, 0 ≤ w a) : (s'.holders token).total (fun a b => w a * b) ≤
      (s.holders token).total fun a b => w a * b := by
  rw [holders_moved hm hshare htokens w]
  have := mul_nonneg (hw holder) hnn
  split_ifs <;> linarith

theorem outstandingShares_eq (hshare : s.shareToken token = some share) :
    s.outstandingShares token = s.supply share := by
  unfold State.outstandingShares State.holders State.supply
  rw [hshare]
  exact (s.shareTokens share).supply_eq.symm

theorem holders_nonneg (s : State W) (token a : Address) (b : ℤ)
    (hget : (s.holders token).get a = some b) : 0 ≤ b := by
  unfold State.holders at hget
  split at hget
  · rename_i share _
    exact (s.shareTokens share).nonneg a b hget
  · cases hget

/-! ## Frames -/

theorem reward_of_update (htotals : s'.totals = Function.update s.totals t (some tt))
    (htt : tt.rewardPerShare = (s.tt t).rewardPerShare) :
    (s'.tt token).rewardPerShare = (s.tt token).rewardPerShare := by
  by_cases ht : token = t
  · subst ht
    rw [State.tt_self htotals, htt]
  · rw [State.tt_of_ne htotals ht]

theorem yieldFrame_of_eq (hshare : s'.shareToken = s.shareToken)
    (hsnap : s'.rewardSnapshot = s.rewardSnapshot)
    (hreward : (s'.tt token).rewardPerShare = (s.tt token).rewardPerShare)
    (htokens : s'.shareTokens = s.shareTokens) : YieldFrame token s s' :=
  ⟨hshare, fun a => by rw [hsnap], hreward, fun w _ => by rw [holders_of_eq hshare htokens]⟩

theorem yieldFrame_of_quiet (hshare : s'.shareToken = s.shareToken)
    (hsnap : s'.rewardSnapshot = s.rewardSnapshot) (htotals : s'.totals = s.totals)
    (htokens : s'.shareTokens = s.shareTokens) : YieldFrame token s s' :=
  yieldFrame_of_eq hshare hsnap (by rw [State.tt_of_eq htotals]) htokens

theorem yieldFrame_of_burn (hm : State.Moved s.shareTokens st share holder (-amount))
    (hnn : 0 ≤ amount) (hshare : s'.shareToken = s.shareToken)
    (hsnap : s'.rewardSnapshot = s.rewardSnapshot) (htokens : s'.shareTokens = st)
    (htotals : s'.totals = Function.update s.totals t (some tt))
    (htt : tt.rewardPerShare = (s.tt t).rewardPerShare) : YieldFrame token s s' :=
  ⟨hshare, fun a => by rw [hsnap], reward_of_update htotals htt,
    holders_burned hm hnn hshare htokens⟩

theorem PassFrame.yieldFrame (hp : PassFrame s s') : YieldFrame token s s' := by
  have hshare : s'.shareToken = s.shareToken := by
    rw [hp.rest]
  refine ⟨hshare, fun a => ?_, ?_, fun w hw => ?_⟩
  · rw [hp.rest]
  · rw [hp.tt token]
  · unfold State.holders
    rw [hshare]
    split
    · exact hp.weighted _ w hw
    · exact le_rfl

theorem yieldFrame_referral {referee : Address} {kind : ActivityKind} {fee : ℤ}
    (hr : s.recordReferralActivity h referee kind fee t = .ok s') : YieldFrame token s s' := by
  rcases State.recordReferralActivity_eq_ok hr with ⟨w, rfl⟩ | ⟨_, _, w, -, -, -, rfl⟩
  · exact yieldFrame_of_quiet rfl rfl rfl rfl
  · exact yieldFrame_of_eq rfl rfl (reward_of_update rfl rfl) rfl

theorem yieldFrame_fund {request : FundingRequest}
    (hf : fundInvoiceRequest h s request = .ok s') : YieldFrame token s s' := by
  obtain ⟨s₁, hloan, rfl⟩ := fundInvoiceRequest_eq_ok hf
  have hf₁ : YieldFrame token s s₁ := by
    obtain ⟨_, _, _, _, _, _, _, -, -, -, -, -, -, rfl⟩ := fundLoan_eq_ok hloan
    exact yieldFrame_of_eq rfl rfl (reward_of_update rfl rfl) rfl
  refine hf₁.trans ?_
  rcases purchaseInsurance_eq h s₁ request with heq | ⟨_, _, _, -, -, -, -, heq⟩
  · rw [heq]
    exact yieldFrame_of_quiet rfl rfl rfl rfl
  · rw [heq]
    exact yieldFrame_of_eq rfl rfl (reward_of_update rfl rfl) rfl

theorem yieldFrame_release (hr : s.releaseCollateral h invoiceId = .ok s') :
    YieldFrame token s s' := by
  rcases releaseCollateral_eq_ok hr with rfl | ⟨_, -, -, -, rfl⟩ <;>
    exact yieldFrame_of_quiet rfl rfl rfl rfl

theorem yieldFrame_seize (hz : seizeCollateralCore h s invoiceId = .ok s') :
    YieldFrame token s s' := by
  obtain ⟨record, col, loan, -, -, -, -, hloan, -, rfl⟩ := seizeCollateralCore_eq_ok hz
  have hwritten : YieldFrame token s (s.setTotals record.token loan) :=
    yieldFrame_of_eq rfl rfl (reward_of_update rfl (by rw [hloan])) rfl
  exact hwritten.trans (yieldFrame_of_eq rfl rfl (reward_of_update rfl rfl) rfl)

theorem yieldFrame_request {shares : ℤ} {r : State W × ℕ}
    (hr : requestWithdrawal h signers s investor t shares = .ok r) : YieldFrame token s r.1 := by
  obtain ⟨share, amount, -, hpos, -, -, -, -, ⟨-, hnow⟩ | hqueue⟩ := requestWithdrawal_eq_ok hr
  · obtain ⟨_, _, hmoved, -, -, -, hr⟩ := processImmediateWithdrawal_eq_ok hnow
    rw [hr]
    exact yieldFrame_of_burn hmoved hpos.le rfl rfl rfl rfl rfl
  · obtain ⟨_, _, -, -, hr⟩ := enqueueWithdrawal_eq_ok hpos hqueue
    rw [hr]
    exact yieldFrame_of_quiet rfl rfl rfl rfl

theorem Credits.yieldFrame {tt tt' : PoolTokenTotals} (hc : Credits t s s' tt tt')
    (halone : ∀ sh t, s.shareToken token = some sh → s.shareToken t = some sh → t = token)
    (hne : t ≠ token) : YieldFrame token s s' := by
  refine ⟨hc.shareToken_eq, fun a => ?_, ?_, fun w _ => ?_⟩
  · rw [hc.rest]
  · have htotals : s'.totals = s.totals := by
      rw [hc.rest]
    rw [State.tt_of_eq htotals]
  · unfold State.holders
    rw [hc.shareToken_eq]
    cases hsh : s.shareToken token with
    | none => exact le_rfl
    | some sh =>
      have hother : s.shareToken t ≠ some sh := fun heq => hne (halone sh t hsh heq)
      exact (hc.others sh hother w).le

end Frames

/-! ## Acquiring and claiming -/

section Steps

variable {h : Host W} {signers : List Address} {s s₁ s' : State W} {token t : Address}
  {log : YieldLog}

theorem Yields.acquire (hy : Yields token (s, log))
    (hcurrent : s.rewardSnapshot investor token = (s.tt token).rewardPerShare)
    (hshare : s'.shareToken = s.shareToken) (hsnap : s'.rewardSnapshot = s.rewardSnapshot)
    (hreward : (s'.tt token).rewardPerShare = (s.tt token).rewardPerShare)
    (hle : ∀ w : Address → ℤ, (∀ a, 0 ≤ w a) → w investor = 0 →
      (s'.holders token).total (fun a b => w a * b) ≤ (s.holders token).total fun a b => w a * b) :
    Yields token (s', log.acquire investor (s.tt token).rewardPerShare) := by
  refine ⟨?_, ?_, fun a => ?_, ?_⟩
  · simpa only [hshare] using hy.alone
  · simpa only [hsnap] using hy.nonneg
  · rw [hsnap]
    unfold YieldLog.acquire
    dsimp only
    rw [Function.update_apply]
    split_ifs with ha
    · rw [ha, hcurrent]
    · exact hy.acquired a
  · dsimp only
    rw [hsnap, hreward]
    refine hy.conserved.move (hle _ (fun a => sub_nonneg.2 (hy.conserved.snapshot_le a)) ?_)
    dsimp only
    rw [hcurrent, sub_self]

theorem yields_depositEffects {amount usdc : ℤ} (hy : Yields token (s, log))
    (hcurrent : t = token → s.rewardSnapshot investor token = (s.tt token).rewardPerShare)
    (hd : depositEffects h signers s investor t amount usdc = .ok s') :
    Yields token (s', if t = token then log.acquire investor (s.tt token).rewardPerShare
      else log) := by
  obtain ⟨share, minted, st, _, _, hshare, -, -, -, hmoved, -, -, -, rfl⟩ := depositEffects_eq_ok hd
  by_cases ht : t = token
  · rw [if_pos ht]
    refine hy.acquire (hcurrent ht) rfl rfl (reward_of_update rfl rfl) fun w _ hzero => ?_
    refine le_trans (le_of_eq (holders_moved hmoved (by rfl) (by rfl) w)) ?_
    rw [hzero, zero_mul, ite_self, add_zero]
  · rw [if_neg ht]
    refine hy.frame ⟨rfl, fun _ => rfl, reward_of_update rfl rfl, fun w _ => ?_⟩
    have hother : s.shareToken token ≠ some share := fun heq => ht (hy.alone share t heq hshare)
    refine le_trans (le_of_eq (holders_moved hmoved (by rfl) (by rfl) w)) ?_
    rw [if_neg hother, add_zero]

theorem yields_shareTransfer {share sender receiver : Address} (hy : Yields token (s, log))
    (hcurrent : s.shareToken token = some share → s.rewardSnapshot receiver token =
      (s.tt token).rewardPerShare)
    (ht : shareTransfer signers s share sender receiver amount = .ok s') :
    Yields token (s', if s.shareToken token = some share then
      log.acquire receiver (s.tt token).rewardPerShare else log) := by
  obtain ⟨hpos, st₁, st, hout, hin, rfl⟩ := shareTransfer_eq_ok ht
  -- the sender loses the shares before the receiver gets them
  have hmoved : ∀ w : Address → ℤ, (∀ a, 0 ≤ w a) →
      (({ s with shareTokens := st } : State W).holders token).total (fun a b => w a * b) ≤
        (s.holders token).total (fun a b => w a * b) +
          if s.shareToken token = some share then w receiver * amount else 0 := by
    intro w hw
    obtain ⟨sent, hsent⟩ : ∃ r, r = { s with shareTokens := st₁ } := ⟨_, rfl⟩
    have hreg : sent.shareToken = s.shareToken := by
      rw [hsent]
    have hin' : State.Moved sent.shareTokens st share receiver amount := by
      rw [hsent]
      exact hin
    have hlost : (sent.holders token).total (fun a b => w a * b) ≤
        (s.holders token).total fun a b => w a * b :=
      holders_burned hout hpos.le hreg (by rw [hsent]) w hw
    refine le_trans (le_of_eq (holders_moved hin' (by rw [hreg]) (by rfl) w)) ?_
    rw [hreg]
    omega
  by_cases hsh : s.shareToken token = some share
  · rw [if_pos hsh]
    refine hy.acquire (hcurrent hsh) rfl rfl rfl fun w hw hzero => ?_
    have := hmoved w hw
    rwa [hzero, zero_mul, ite_self, add_zero] at this
  · rw [if_neg hsh]
    refine hy.frame ⟨rfl, fun _ => rfl, rfl, fun w hw => ?_⟩
    have := hmoved w hw
    rwa [if_neg hsh, add_zero] at this

theorem claimableYield_le {claimable : ℤ} (hshare : s.shareToken token = some share)
    (hle : s.rewardSnapshot investor token ≤ (s.tt token).rewardPerShare)
    (hc : s.claimableYield investor token = .ok claimable) :
    claimable * rewardPrecision ≤
      ((s.tt token).rewardPerShare - s.rewardSnapshot investor token) * s.shares share investor := by
  obtain ⟨share', hshare', hclaim⟩ := claimableYield_eq_ok hc
  obtain rfl : share' = share := Option.some.inj (hshare'.symm.trans hshare)
  have hnn : 0 ≤ s.shares share' investor := (s.shareTokens share').balance_nonneg investor
  rw [hclaim]
  split_ifs with hpos
  · exact tdiv_mul_le_of_nonneg (by decide) (mul_nonneg (sub_nonneg.2 hle) hnn)
  · rw [zero_mul]
    exact mul_nonneg (sub_nonneg.2 hle) hnn

theorem yields_claim {claimable : ℤ} (hy : Yields token (s, log))
    (hcl : s.claimableYield investor token = .ok claimable) (hshare : s'.shareToken = s.shareToken)
    (htokens : s'.shareTokens = s.shareTokens)
    (hreward : (s'.tt token).rewardPerShare = (s.tt token).rewardPerShare)
    (hsnap : s'.rewardSnapshot = set₂ s.rewardSnapshot investor token (s.tt token).rewardPerShare) :
    Yields token (s', { log with paid := log.paid + claimable }) := by
  have hrow : (fun a => s'.rewardSnapshot a token) = Function.update
      (fun a => s.rewardSnapshot a token) investor (s.tt token).rewardPerShare := by
    funext a
    rw [hsnap, set₂_apply, Function.update_apply]
    simp
  have hmono : ∀ a, s.rewardSnapshot a token ≤ s'.rewardSnapshot a token := by
    intro a
    have hle := hy.conserved.snapshot_le a
    rw [congrFun hrow a, Function.update_apply]
    split_ifs with ha
    · exact hle
    · exact le_rfl
  obtain ⟨share, hget, -⟩ := claimableYield_eq_ok hcl
  refine ⟨?_, fun a => (hy.nonneg a).trans (hmono a), fun a => (hy.acquired a).trans (hmono a), ?_⟩
  · simpa only [hshare] using hy.alone
  · dsimp only
    rw [holders_of_eq hshare htokens, hreward, hrow]
    apply hy.conserved.claim
    have hpart : (s.holders token).part (fun a b =>
        ((s.tt token).rewardPerShare - s.rewardSnapshot a token) * b) investor =
        ((s.tt token).rewardPerShare - s.rewardSnapshot investor token) *
          s.shares share investor := by
      unfold State.holders
      rw [hget]
      exact (s.shareTokens share).part_mul _ investor
    rw [hpart]
    exact claimableYield_le hget (hy.conserved.snapshot_le investor) hcl

theorem yields_claimYield (hy : Yields token (s, log))
    (hc : claimYield h signers s investor t = .ok s') :
    Yields token (s', match s.claimableYield investor token with
      | .ok claimable => if t = token then { log with paid := log.paid + claimable } else log
      | .error _ => log) := by
  obtain ⟨claimable, bonus, -, hcl, -, hs'⟩ := claimYield_eq_ok hc
  have hfacts : s'.shareToken = s.shareToken ∧ s'.shareTokens = s.shareTokens ∧
      (s'.tt token).rewardPerShare = (s.tt token).rewardPerShare ∧
      s'.rewardSnapshot = set₂ s.rewardSnapshot investor t (s.tt t).rewardPerShare := by
    rcases hs' with ⟨-, rfl⟩ | ⟨-, -, rfl⟩ | ⟨-, -, rfl⟩
    · exact ⟨rfl, rfl, rfl, rfl⟩
    · exact ⟨rfl, rfl, rfl, rfl⟩
    · exact ⟨rfl, rfl, reward_of_update rfl rfl, rfl⟩
  obtain ⟨hshare, htokens, hreward, hsnap⟩ := hfacts
  by_cases ht : t = token
  · subst ht
    rw [hcl]
    simp only [if_true]
    exact yields_claim hy hcl hshare htokens hreward hsnap
  · have hframe : YieldFrame token s s' := by
      refine ⟨hshare, fun a => ?_, hreward, fun w _ => by rw [holders_of_eq hshare htokens]⟩
      rw [hsnap, set₂_apply, if_neg fun hkey => ht hkey.2.symm]
    have hlog : (match s.claimableYield investor token with
        | .ok claimable => if t = token then { log with paid := log.paid + claimable } else log
        | .error _ => log) = log := by
      split <;> simp [ht]
    rw [hlog]
    exact hy.frame hframe

theorem Yields.spread {interest rps : ℤ} (hy : Yields token (s, log))
    (hget : s.shareToken token = some share) (hnn : 0 ≤ interest)
    (hrps : rewardAfter (s.tt token).rewardPerShare interest (s.supply share) = .ok rps)
    (hshare : s'.shareToken = s.shareToken) (hsnap : s'.rewardSnapshot = s.rewardSnapshot)
    (htokens : s'.shareTokens = s.shareTokens) (hreward : (s'.tt token).rewardPerShare = rps) :
    Yields token (s', if 0 < s.outstandingShares token then
      { log with distributed := log.distributed + interest } else log) := by
  have hrps := rewardAfter_eq_ok hrps
  have hsupply := outstandingShares_eq hget
  by_cases hpos : 0 < s.outstandingShares token
  · rw [if_pos hpos]
    refine ⟨?_, ?_, ?_, ?_⟩
    · simpa only [hshare] using hy.alone
    · simpa only [hsnap] using hy.nonneg
    · simpa only [hsnap] using hy.acquired
    · rw [← hsupply, if_pos hpos] at hrps
      dsimp only
      rw [hsnap, hreward, hrps, holders_of_eq hshare htokens]
      have hscaled : 0 ≤ interest * rewardPrecision := mul_nonneg hnn (by decide)
      refine hy.conserved.distribute (Int.tdiv_nonneg hscaled hpos.le) ?_
      exact tdiv_mul_le_of_nonneg hpos hscaled
  · rw [if_neg hpos]
    rw [← hsupply, if_neg hpos] at hrps
    exact hy.frame (yieldFrame_of_eq hshare hsnap (hreward.trans hrps) htokens)

/-- The repayment is not distributed among holders of a round in the token. -/
def OwnLoan (token payer : Address) (s : State W) (request : RepaymentRequest) : Prop :=
  ∀ q roundId round, quoteRepayment s request.invoiceId payer request.amount = .ok q →
    q.record.coFundingRoundId = some roundId → s.rounds.get roundId = some round →
    round.token ≠ token

theorem yields_book {q : RepaymentQuote} (hy : Yields token (s, log))
    (hq : quoteRepayment s invoiceId payer amount = .ok q)
    (hown : ∀ roundId round, q.record.coFundingRoundId = some roundId →
      s.rounds.get roundId = some round → round.token ≠ token)
    (hb : bookRepayment h signers s invoiceId payer q = .ok s') :
    Yields token (s', if spreads s token q = true then
      { log with distributed := log.distributed + q.interest } else log) := by
  obtain ⟨s₁, tt, stats, s₂, halloc, -, hs₂, hb⟩ := bookRepayment_eq_ok hb
  obtain ⟨-, -, hdue, -⟩ := quoteRepayment_eq_ok hq
  have hinterest := (calculateTotalDue_eq_ok hdue).1
  have hbooked : Yields token (s₂, if spreads s token q = true then
      { log with distributed := log.distributed + q.interest } else log) := by
    rcases allocateRepayment_eq_ok halloc with ⟨roundId, hid, hd⟩ | ⟨hid, hfull, rfl, hset⟩ |
      ⟨hid, hfull, rfl, rfl⟩
    · -- the holders of a round in another token are credited
      have hnot : spreads s token q = false := by
        simp [spreads, hid]
      rw [hnot]
      obtain ⟨round, tt₁, distributed, hround, hfold, hdust⟩ :=
        distributePariPassuRepayment_eq_ok hd
      have hc := credits_of_distribute hfold
      have hcredited := hy.frame (hc.yieldFrame hy.alone (hown roundId round hid hround))
      have htt : tt.rewardPerShare = (s₁.tt q.record.token).rewardPerShare := by
        have htotals : s₁.totals = s.totals := by
          rw [hc.rest]
        rw [(bookDust_eq_ok hdust).2.1, hc.tt_eq, State.tt_of_eq htotals]
      rw [hs₂]
      exact hcredited.frame (yieldFrame_of_eq rfl rfl (reward_of_update rfl htt) rfl)
    · obtain ⟨share, hget, -, -, -, -, -, hrps⟩ := settledTotals_eq_ok hset
      by_cases ht : q.record.token = token
      · subst ht
        have hspread : spreads s₁ q.record.token q =
            decide (0 < s₁.outstandingShares q.record.token) := by
          simp [spreads, hid, hfull]
        rw [hspread]
        simp only [decide_eq_true_eq]
        rw [hs₂]
        exact hy.spread hget hinterest hrps rfl rfl rfl (by rw [State.tt_self rfl])
      · have hnot : spreads s₁ token q = false := by
          simp [spreads, ht]
        rw [hnot, hs₂]
        refine hy.frame (yieldFrame_of_eq rfl rfl ?_ rfl)
        rw [State.tt_of_ne rfl (Ne.symm ht)]
    · have hnot : spreads s₁ token q = false := by
        simp [spreads, hfull]
      rw [hnot, hs₂]
      exact hy.frame (yieldFrame_of_eq rfl rfl (reward_of_update rfl rfl) rfl)
  rcases hb with ⟨-, hrel⟩ | ⟨-, rfl⟩
  · exact hbooked.frame (yieldFrame_release hrel)
  · exact hbooked

theorem yields_repay {request : RepaymentRequest} (hy : Yields token (s, log))
    (hown : OwnLoan token payer s request)
    (hr : repayInvoiceRequest h signers payer s request = .ok s') :
    Yields token (s', noteInterest token payer s request s' log) := by
  obtain ⟨q, s₁, history, hq, hb, hr⟩ := repayInvoiceRequest_eq_ok hr
  have hbooked := yields_book hy hq (fun roundId round => hown q roundId round hq) hb
  have hnote : noteInterest token payer s request s' log = if spreads s token q = true then
      { log with distributed := log.distributed + q.interest } else log := by
    simp [noteInterest, hq]
  rw [hnote]
  have hhistory : YieldFrame token s₁ { s₁ with rateHistory := history } :=
    yieldFrame_of_quiet rfl rfl rfl rfl
  rcases hr with ⟨-, s₂, o, hpass, href⟩ | ⟨-, rfl⟩
  · have hpaid := hhistory.trans (processWithdrawalQueue_frame hpass).yieldFrame
    exact hbooked.frame (hpaid.trans (yieldFrame_referral href))
  · exact hbooked.frame hhistory

theorem yields_credit (hy : Yields token (s, log)) (hc : Credits t s s₁ (s.tt t) tt)
    (hne : t ≠ token) (hshare : s'.shareToken = s₁.shareToken)
    (hsnap : s'.rewardSnapshot = s₁.rewardSnapshot) (htokens : s'.shareTokens = s₁.shareTokens)
    (htotals : s'.totals = Function.update s₁.totals t (some tt)) : Yields token (s', log) := by
  have hcredited := hy.frame (hc.yieldFrame hy.alone hne)
  refine hcredited.frame (yieldFrame_of_eq hshare hsnap ?_ htokens)
  rw [State.tt_of_ne htotals (Ne.symm hne)]

theorem yields_register (hy : Yields token (s, log)) (hnone : s.totals t = none)
    (hfresh : ∀ t', s.shareToken t' ≠ some share)
    (hshare : s'.shareToken = Function.update s.shareToken t (some share))
    (hsnap : s'.rewardSnapshot = s.rewardSnapshot) (htokens : s'.shareTokens = s.shareTokens)
    (htotals : s'.totals = Function.update s.totals t (some {})) : Yields token (s', log) := by
  have hdefault : s.tt t = {} := by
    unfold State.tt
    rw [hnone]
    rfl
  have hreward : (s'.tt token).rewardPerShare = (s.tt token).rewardPerShare :=
    reward_of_update htotals (by rw [hdefault])
  refine ⟨fun sh t' hsh ht' => ?_, ?_, ?_, ?_⟩
  · dsimp only at hsh ht'
    rw [hshare, Function.update_apply] at hsh ht'
    split_ifs at hsh ht' with h₁ h₂
    · rw [h₁, h₂]
    · exact absurd (ht'.trans hsh.symm) (hfresh t')
    · exact absurd (hsh.trans ht'.symm) (hfresh token)
    · exact hy.alone sh t' hsh ht'
  · simpa only [hsnap] using hy.nonneg
  · simpa only [hsnap] using hy.acquired
  · dsimp only
    rw [hsnap, hreward]
    by_cases ht : token = t
    · -- nothing was spread yet, so nobody has a claim
      have hzero : (s.tt token).rewardPerShare = 0 := by
        rw [ht, hdefault]
      refine hy.conserved.restart fun a => ?_
      have hle := hy.conserved.snapshot_le a
      have hnn := hy.nonneg a
      dsimp only at hle hnn ⊢
      omega
    · have hsame : s'.holders token = s.holders token := by
        unfold State.holders
        rw [hshare, htokens, Function.update_of_ne ht]
      rw [hsame]
      exact hy.conserved

end Steps

/-- Whoever acquires shares of the token has an up-to-date snapshot.  The credits of co-funding
rounds in the token and share contracts that serve two tokens are left out. -/
def YieldOk (h : Host W) (token : Address) (x : State W × YieldLog) (tx : Tx h) : Prop :=
  match tx.call with
  | .deposit investor t _ _ =>
    t = token → x.1.rewardSnapshot investor token = (x.1.tt token).rewardPerShare
  | .shareTransfer share _ receiver _ => x.1.shareToken token = some share →
      x.1.rewardSnapshot receiver token = (x.1.tt token).rewardPerShare
  | .repayInvoice payer request => OwnLoan token payer x.1 request
  | .repayInvoicesBatch payer requests => Along (loggedRepayment h tx.signers token payer)
      (fun x request => OwnLoan token payer x.1 request) x requests
  | .withdrawCoFundingCommitment _ invoiceId | .finalizeCoFunding _ invoiceId =>
    ∀ round, x.1.rounds.get invoiceId = some round → round.token ≠ token
  | .addToken _ _ share => ∀ t, x.1.shareToken t ≠ some share
  | _ => True

theorem noteYield_repayInvoicesBatch {signers : List Address} {requests : List RepaymentRequest}
    (token : Address) (hself : h.self ∉ signers) (log : YieldLog)
    (hr : requests.foldlM (repayInvoiceRequest h signers payer) s = .ok s') :
    requests.foldlM (loggedRepayment h signers token payer) (s, log) =
      .ok (s', noteYield h token s ⟨signers, hself, .repayInvoicesBatch payer requests⟩ s' log) := by
  obtain ⟨log', hlog⟩ := foldlM_track (repayInvoiceRequest h signers payer)
    (noteInterest token payer) requests s s' log hr
  change requests.foldlM (loggedRepayment h signers token payer) (s, log) = _ at hlog
  simp [noteYield, hlog]

theorem yields_exec {log : YieldLog} {tx : Tx h} {token : Address} (hy : Yields token (s, log))
    (hok : YieldOk h token (s, log) tx) (hstep : exec h s tx = .ok s') :
    Yields token (s', noteYield h token s tx s' log) := by
  obtain ⟨signers, hself, call⟩ := tx
  cases call with
  | deposit investor t amount minRate =>
    obtain ⟨usdc, s₁, s₂, o, -, -, -, heff, href, hq⟩ := deposit_eq_ok hstep
    exact (yields_depositEffects hy hok heff).frame
      ((yieldFrame_referral href).trans (processWithdrawalQueue_frame hq).yieldFrame)
  | withdraw investor t shares =>
    obtain ⟨_, _, _, _, _, _, -, hpos, -, -, -, -, -, -, hmoved, -, rfl⟩ := withdraw_eq_ok hstep
    exact hy.frame (yieldFrame_of_burn hmoved hpos.le rfl rfl rfl rfl rfl)
  | requestWithdrawal investor t shares =>
    obtain ⟨r, hr, rfl⟩ := (map_eq_ok _ _ _).1 hstep
    exact hy.frame (yieldFrame_request hr)
  | drainWithdrawalQueue caller t =>
    obtain ⟨_, -, hq⟩ := drainWithdrawalQueue_eq_ok hstep
    exact hy.frame (processWithdrawalQueue_frame hq).yieldFrame
  | claimYield investor t => exact yields_claimYield hy hstep
  | fundInvoice admin request =>
    exact hy.frame (yieldFrame_fund (fundInvoice_eq_ok.1 hstep).2.2)
  | fundMultipleInvoices admin requests =>
    obtain ⟨-, -, -, hfold⟩ := fundMultipleInvoices_eq_ok.1 hstep
    exact foldlM_invariant (P := fun s => Yields token (s, log))
      (fun _ _ _ _ hy hf => hy.frame (yieldFrame_fund hf)) hy hfold
  | repayInvoice payer request => exact yields_repay hy hok (repayInvoice_eq_ok.1 hstep).2
  | repayInvoicesBatch payer requests =>
    have hfold := noteYield_repayInvoicesBatch token hself log
      (repayInvoicesBatch_eq_ok hstep).2
    refine foldlM_along ?_ hok hy hfold
    rintro ⟨s, log⟩ request ⟨s', log'⟩ hy hown hf
    obtain ⟨hrepay, hlog⟩ := (track_eq_ok _ _ _ _ _).1 hf
    dsimp only at hlog
    rw [hlog]
    exact yields_repay hy hown hrepay
  | cancelFundedInvoice admin invoiceId =>
    obtain ⟨_, _, _, -, ⟨-, rfl⟩ | ⟨-, _, rfl⟩⟩ := cancelFundedInvoice_eq_ok hstep
    · exact hy.frame (yieldFrame_of_quiet rfl rfl rfl rfl)
    · exact hy.frame (yieldFrame_of_eq rfl rfl (reward_of_update rfl rfl) rfl)
  | commitToInvoice investor invoiceId amount =>
    obtain ⟨round, c, _, _, _, _, hround, hguards, hmoved, -, -, -, -, -, rfl⟩ :=
      commitToInvoice_eq_ok hstep
    obtain ⟨-, -, -, -, -, -, -, -, hpos, -⟩ := commitGuards_eq_ok hguards
    exact hy.frame (yieldFrame_of_burn hmoved hpos.le rfl rfl rfl rfl rfl)
  | withdrawCoFundingCommitment investor invoiceId =>
    obtain ⟨round, s₁, tt, _, hround, -, hrefund, -, rfl⟩ :=
      withdrawCoFundingCommitment_eq_ok hstep
    exact yields_credit hy (credits_of_refundCoFundingInvestor hrefund) (hok round hround) rfl rfl
      rfl rfl
  | finalizeCoFunding caller invoiceId =>
    obtain ⟨round, hround, -, hfill | hexpire⟩ := finalizeCoFunding_eq_ok hstep
    · obtain ⟨_, _, _, -, -, rfl⟩ := fillRound_eq_ok hfill
      exact hy.frame (yieldFrame_of_quiet rfl rfl rfl rfl)
    · obtain ⟨s₁, tt, total, hfold, rfl⟩ := expireRound_eq_ok hexpire
      exact yields_credit hy (credits_of_expire hfold) (hok round hround) rfl rfl rfl rfl
  | riskLiquidateCollateral caller invoiceId =>
    obtain ⟨_, -, -, -, -, rfl⟩ := riskLiquidateCollateral_eq_ok hstep
    exact hy.frame (yieldFrame_of_eq rfl rfl (reward_of_update rfl rfl) rfl)
  | liquidateInvoice caller invoiceId =>
    exact hy.frame (yieldFrame_seize (liquidateInvoice_eq_ok hstep))
  | addToken admin t share =>
    obtain ⟨_, ⟨hnone, _, rfl⟩ | rfl⟩ := addToken_eq_ok hstep
    · exact yields_register hy hnone hok rfl rfl rfl rfl
    · exact hy.frame (yieldFrame_of_quiet rfl rfl rfl rfl)
  | executeOperation admin proposalId =>
    obtain ⟨proposals, ⟨-, _, _, rfl⟩ | ⟨invoiceId, -, hseize⟩⟩ := executeOperation_eq_ok hstep
    · exact hy.frame (yieldFrame_of_quiet rfl rfl rfl rfl)
    · have hproposed : YieldFrame token s { s with proposals := proposals } :=
        yieldFrame_of_quiet rfl rfl rfl rfl
      exact hy.frame (hproposed.trans (yieldFrame_seize hseize))
  | withdrawRevenue admin t amount =>
    obtain ⟨_, -, -, rfl⟩ := payRevenue_eq_ok (withdrawRevenue_eq_ok hstep)
    exact hy.frame (yieldFrame_of_eq rfl rfl (reward_of_update rfl rfl) rfl)
  | withdrawRevenueViaAc accessControl t amount =>
    obtain ⟨_, -, -, rfl⟩ := payRevenue_eq_ok (withdrawRevenueViaAc_eq_ok hstep)
    exact hy.frame (yieldFrame_of_eq rfl rfl (reward_of_update rfl rfl) rfl)
  | receiveInsurancePayout insurance t amount =>
    obtain ⟨-, -, rfl⟩ := receiveInsurancePayout_eq_ok hstep
    exact hy.frame (yieldFrame_of_eq rfl rfl (reward_of_update rfl rfl) rfl)
  | shareTransfer share sender receiver amount => exact yields_shareTransfer hy hok hstep
  | cancelWithdrawalRequest | adjustWithdrawalRequest | cleanupFundedInvoice |
  updateInvoiceDueDate | setCompoundInterest | openCoFunding | cancelCoFundingRound |
  transferCoFundShare | depositCollateral | topUpCollateral | proposeOperation | cancelOperation
  | setMaxInvestorConcentration | marketSettleListing | setParams | neighbours | advance |
  assetTransfer =>
      exact hy.frame (yieldFrame_of_quiet (exec_kept .shareToken rfl hstep)
        (exec_kept .rewardSnapshot rfl hstep) (exec_kept .totals rfl hstep)
        (exec_kept .shareTokens rfl hstep))

theorem yields_initial (now : ℕ) (world : W) (cash : Address → Address → ℤ)
    (shareTokens : Address → Share.ShareToken) (admin token share invoiceContract t : Address) :
    Yields t (initialState now world cash shareTokens admin token share invoiceContract, {}) := by
  have htt : (initialState now world cash shareTokens admin token share invoiceContract).tt t =
      {} := by
    by_cases ht : t = token <;> simp [initialState, State.tt, ht]
  refine ⟨fun sh t' hsh ht' => ?_, fun _ => le_rfl, fun _ => le_rfl, ?_, ?_⟩
  · by_cases h₁ : t = token
    · by_cases h₂ : t' = token
      · rw [h₁, h₂]
      · simp [initialState, h₂] at ht'
    · simp [initialState, h₁] at hsh
  · intro a
    dsimp only
    rw [htt]
    exact le_rfl
  · dsimp only
    rw [htt]
    rw [zero_mul, zero_add]
    exact (pending_eq_zero fun _ => rfl).le

/-- In every run from `initialize` in which shares of the token are acquired only by investors whose
snapshot is up to date, the base yield that claims were paid is within the interest that was spread
over the shares, and what an investor can claim is within the growth of the accumulator since it
last acquired shares. -/
theorem yield_conserved (h : Host W) (now : ℕ) (world : W) (cash : Address → Address → ℤ)
    (shareTokens : Address → Share.ShareToken) (admin token share invoiceContract t : Address)
    (x : State W × YieldLog)
    (hrun : Reaches (logged h t) (YieldOk h t)
      (initialState now world cash shareTokens admin token share invoiceContract, {}) x) :
    x.2.paid ≤ x.2.distributed ∧
    ∀ investor sh claimable, x.1.shareToken t = some sh →
      x.1.claimableYield investor t = .ok claimable →
      claimable * rewardPrecision ≤
        ((x.1.tt t).rewardPerShare - x.2.acquired investor) * x.1.shares sh investor := by
  have hy : Yields t x := by
    refine hrun.invariant
      (yields_initial now world cash shareTokens admin token share invoiceContract t) ?_
    rintro ⟨s, log⟩ tx ⟨s', log'⟩ hy hok hstep
    obtain ⟨hexec, rfl⟩ := logged_eq_ok.1 hstep
    exact yields_exec hy hok hexec
  refine ⟨hy.conserved.paid_le (by decide) (holders_nonneg x.1 t), ?_⟩
  intro investor sh claimable hsh hclaim
  have hle := claimableYield_le hsh (hy.conserved.snapshot_le investor) hclaim
  have hacquired := hy.acquired investor
  have hnn : 0 ≤ x.1.shares sh investor := (x.1.shareTokens sh).balance_nonneg investor
  refine hle.trans (mul_le_mul_of_nonneg_right ?_ hnn)
  omega

/-- The investor claims its yield once the loan is repaid. -/
def claimed : List (Tx quietHost) :=
  yearLoan ++ [settlement, ⟨[3], self_ne_three, .claimYield 3 10⟩]

/-- The investor deposits again after its claim. -/
def reinvested : List (Tx quietHost) := claimed ++ [⟨[3], self_ne_three, .deposit 3 10 540 none⟩]

theorem yield_conserved_reinvested :
    ∃ x, reinvested.foldlM (logged quietHost 10) (sampleState, {}) = .ok x ∧
      Reaches (logged quietHost 10) (YieldOk quietHost 10) (sampleState, {}) x ∧
      x.2.paid = 80 ∧ x.2.paid ≤ x.2.distributed := by
  obtain ⟨x, hx, hpaid⟩ := exists_of_check
    (x := reinvested.foldlM (logged quietHost 10) (sampleState, {}))
    (p := fun x => decide (x.2.paid = 80)) (by decide)
  have hloan : Along (logged quietHost 10) (YieldOk quietHost 10) (sampleState, {}) yearLoan := by
    refine ⟨trivial, fun x₁ h₁ => ⟨fun _ => ?_, fun _ _ => ⟨trivial, fun _ _ => ⟨trivial,
      fun _ _ => trivial⟩⟩⟩⟩
    have hzero := of_check (p := fun x => decide (
      x.1.rewardSnapshot 3 10 = (x.1.tt 10).rewardPerShare)) (by decide) h₁
    exact of_decide_eq_true hzero
  have hclaim : Along (logged quietHost 10) (YieldOk quietHost 10) (sampleState, {}) claimed := by
    refine along_append hloan fun y hy => ⟨fun q roundId round hq hid => ?_, fun _ _ => ⟨trivial,
      fun _ _ => trivial⟩⟩
    have hown := of_check (p := fun y => decide (
      (y.1.funded.get 7).map FundedInvoice.coFundingRoundId = some none)) (by decide) hy
    obtain ⟨-, hget, -⟩ := quoteRepayment_eq_ok hq
    have hrecord := of_decide_eq_true hown
    rw [hget, Option.map_some, hid] at hrecord
    cases hrecord
  have halong : Along (logged quietHost 10) (YieldOk quietHost 10) (sampleState, {}) reinvested := by
    refine along_append hclaim fun y hy => ⟨fun _ => ?_, fun _ _ => trivial⟩
    have hcurrent := of_check (p := fun y => decide (
      y.1.rewardSnapshot 3 10 = (y.1.tt 10).rewardPerShare)) (by decide) hy
    exact of_decide_eq_true hcurrent
  have hrun := reaches_of_along .refl halong hx
  exact ⟨x, hx, hrun, of_decide_eq_true hpaid,
    (yield_conserved quietHost 1 () _ _ 1 10 20 2 10 x hrun).1⟩

/-- A second investor deposits after the interest was spread. -/
def joinedLate : List (Tx quietHost) :=
  yearLoan ++ [settlement, ⟨[5], self_ne_five, .deposit 5 10 1080 none⟩]

def bothClaim : List (Tx quietHost) :=
  [⟨[5], self_ne_five, .claimYield 5 10⟩, ⟨[3], self_ne_three, .claimYield 3 10⟩]

/-- The second investor claims as much of the interest as the first one: 160 is paid where 80 was
spread, and what the second investor is paid was spread before it acquired its shares. -/
theorem late_deposit_paid :
    ∃ x y, joinedLate.foldlM (logged quietHost 10) (sampleState, {}) = .ok x ∧
      x.1.claimableYield 5 10 = .ok 80 ∧ (x.1.tt 10).rewardPerShare = x.2.acquired 5 ∧
      bothClaim.foldlM (logged quietHost 10) x = .ok y ∧ y.2.paid = 160 ∧
      y.2.distributed = 80 := by
  obtain ⟨x, hx, hp⟩ := exists_of_check
    (x := joinedLate.foldlM (logged quietHost 10) (sampleState, {}))
    (p := fun x => check (x.1.claimableYield 5 10) (fun c => decide (c = 80)) &&
      decide ((x.1.tt 10).rewardPerShare = x.2.acquired 5) &&
      check (bothClaim.foldlM (logged quietHost 10) x) fun y =>
        decide (y.2.paid = 160 ∧ y.2.distributed = 80))
    (by decide)
  obtain ⟨hbefore, hpaid⟩ := Bool.and_eq_true_iff.1 hp
  obtain ⟨hclaim, hacquired⟩ := Bool.and_eq_true_iff.1 hbefore
  obtain ⟨c, hc, heighty⟩ := exists_of_check hclaim
  obtain rfl := of_decide_eq_true heighty
  obtain ⟨y, hy, hsums⟩ := exists_of_check hpaid
  exact ⟨x, y, hx, hc, of_decide_eq_true hacquired, hy, of_decide_eq_true hsums⟩

end Astera.Pool
