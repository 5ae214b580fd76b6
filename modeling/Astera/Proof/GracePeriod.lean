import Astera.Auction.System
import Astera.Pool.Writes

/-!
# The grace period before a liquidation

The stored flag of an invoice is the time of a check after which nobody found the invoice safe, so a
seizure comes at least a grace period after such a check, and there is one at most.
-/

/-! ## Settled collateral

A collateral deposit that was released or seized stays as it is: every function that writes a
deposit refuses a settled one. -/

namespace Astera.Pool

open Fallible

variable {W : Type}

def SettledKept (s s' : State W) : Prop :=
  ∀ id col, s.collateral.get id = some col → col.settled = true → s'.collateral.get id = some col

section Parts

variable {h : Host W} {signers : List Address} {s s₁ s' : State W}

theorem SettledKept.trans (h₁ : SettledKept s s₁) (h₂ : SettledKept s₁ s') : SettledKept s s' :=
  fun id col hget hset => h₂ id col (h₁ id col hget hset) hset

theorem SettledKept.of_eq (hcol : s'.collateral = s.collateral) : SettledKept s s' :=
  fun id col hget _ => by rw [hcol, hget]

theorem SettledKept.of_keeps {writes : List Table} (hk : Keeps writes s s')
    (hcol : Table.collateral ∉ writes) : SettledKept s s' := SettledKept.of_eq (hk .collateral hcol)

theorem SettledKept.of_set {invoiceId : ℕ} {record : CollateralDeposit}
    (hopen : ∀ col, s.collateral.get invoiceId = some col → col.settled = false)
    (hcol : s'.collateral = s.collateral.set invoiceId record) : SettledKept s s' := by
  intro id col hget hset
  have hid : id ≠ invoiceId := by
    rintro rfl
    rw [hopen col hget] at hset
    cases hset
  rw [hcol, Store.get_set_of_ne _ _ hid, hget]

theorem SettledKept.of_set_get {invoiceId : ℕ} {col record : CollateralDeposit}
    (hget : s.collateral.get invoiceId = some col) (hopen : col.settled = false)
    (hcol : s'.collateral = s.collateral.set invoiceId record) : SettledKept s s' := by
  refine SettledKept.of_set (fun col' hget' => ?_) hcol
  rw [hget] at hget'
  rw [← Option.some.inj hget']
  exact hopen

theorem settledKept_seize {invoiceId : ℕ} (hz : seizeCollateralCore h s invoiceId = .ok s') :
    SettledKept s s' := by
  obtain ⟨_, col, _, -, hcol, hopen, -, -, -, rfl⟩ := seizeCollateralCore_eq_ok hz
  exact SettledKept.of_set_get hcol hopen rfl

theorem settledKept_riskLiquidate {caller : Address} {invoiceId : ℕ}
    (hr : riskLiquidateCollateral h signers s caller invoiceId = .ok s') : SettledKept s s' := by
  obtain ⟨col, hcol, hopen, -, -, rfl⟩ := riskLiquidateCollateral_eq_ok hr
  exact SettledKept.of_set_get hcol hopen rfl

theorem settledKept_bookRepayment {invoiceId : ℕ} {payer : Address} {q : RepaymentQuote}
    (hb : bookRepayment h signers s invoiceId payer q = .ok s') : SettledKept s s' := by
  obtain ⟨s₁, tt, stats, s₂, halloc, -, hs₂, hb⟩ := bookRepayment_eq_ok hb
  have hallocated : SettledKept s s₁ := by
    rcases allocateRepayment_eq_ok halloc with ⟨roundId, -, hd⟩ | ⟨-, -, rfl, -⟩ | ⟨-, -, rfl, -⟩
    · obtain ⟨_, _, _, -, hfold, -⟩ := distributePariPassuRepayment_eq_ok hd
      exact SettledKept.of_keeps (keeps_distribute hfold) (by decide)
    · exact SettledKept.of_eq rfl
    · exact SettledKept.of_eq rfl
  have hpaid : SettledKept s s₂ := by
    rw [hs₂]
    exact hallocated.trans (SettledKept.of_eq rfl)
  rcases hb with ⟨-, hr⟩ | ⟨-, rfl⟩
  · rcases releaseCollateral_eq_ok hr with rfl | ⟨col, hcol, hopen, -, rfl⟩
    · exact hpaid
    · exact hpaid.trans (SettledKept.of_set_get hcol hopen rfl)
  · exact hpaid

theorem settledKept_repay {payer : Address} {request : RepaymentRequest}
    (hr : repayInvoiceRequest h signers payer s request = .ok s') : SettledKept s s' := by
  obtain ⟨q, s₁, history, -, hb, hr⟩ := repayInvoiceRequest_eq_ok hr
  have hbooked : SettledKept s { s₁ with rateHistory := history } :=
    (settledKept_bookRepayment hb).trans (SettledKept.of_eq rfl)
  rcases hr with ⟨-, s₂, o, hpass, href⟩ | ⟨-, rfl⟩
  · have hqueue : SettledKept { s₁ with rateHistory := history } s₂ :=
      SettledKept.of_keeps (processWithdrawalQueue_frame hpass).keeps (by decide)
    exact (hbooked.trans hqueue).trans (SettledKept.of_keeps (keeps_referral href) (by decide))
  · exact hbooked

end Parts

theorem exec_settledKept {h : Host W} {s s' : State W} {tx : Tx h} (hstep : exec h s tx = .ok s') :
    SettledKept s s' := by
  by_cases hwrites : tx.call.writes.contains .collateral = false
  · exact SettledKept.of_eq (exec_kept .collateral hwrites hstep)
  obtain ⟨signers, hnot, call⟩ := tx
  -- the calls that write no deposit are done
  cases call <;> first | exact absurd rfl hwrites | skip
  case repayInvoice payer request => exact settledKept_repay (repayInvoice_eq_ok.1 hstep).2
  case repayInvoicesBatch payer requests =>
    exact foldlM_invariant (P := SettledKept s)
      (fun _ _ _ _ hs hr => hs.trans (settledKept_repay hr)) (SettledKept.of_eq rfl)
      (repayInvoicesBatch_eq_ok hstep).2
  case depositCollateral invoiceId depositor token amount =>
    obtain ⟨-, -, -, hnone, rfl⟩ := depositCollateral_eq_ok hstep
    exact SettledKept.of_set (fun col hget => by simp [hnone] at hget) rfl
  case topUpCollateral invoiceId depositor token amount =>
    obtain ⟨_, -, -, hget, hopen, -, rfl⟩ := topUpCollateral_eq_ok hstep
    exact SettledKept.of_set_get hget hopen rfl
  case riskLiquidateCollateral caller invoiceId => exact settledKept_riskLiquidate hstep
  case liquidateInvoice caller invoiceId => exact settledKept_seize (liquidateInvoice_eq_ok hstep)
  case executeOperation admin proposalId =>
    obtain ⟨proposals, ⟨-, _, _, rfl⟩ | ⟨invoiceId, -, hseize⟩⟩ := executeOperation_eq_ok hstep
    · exact SettledKept.of_eq rfl
    · have hstart : SettledKept s { s with proposals := proposals } := SettledKept.of_eq rfl
      exact hstart.trans (settledKept_seize hseize)

theorem now_le_of_exec {h : Host W} {s s' : State W} {tx : Tx h} (hstep : exec h s tx = .ok s') :
    s.now ≤ s'.now := by
  by_cases hwrites : tx.call.writes.contains .now = false
  · have hnow : s'.now = s.now := exec_kept .now hwrites hstep
    exact hnow.ge
  obtain ⟨signers, hnot, call⟩ := tx
  cases call <;> first | exact absurd rfl hwrites | skip
  case advance now =>
    obtain ⟨hle, rfl⟩ := advance_eq_ok hstep
    exact hle

end Astera.Pool

namespace Astera.Auction

open Fallible Transition

variable {W : Type}

/-- What a check or a liquidation did. -/
inductive RiskEvent
  /-- A check found the invoice at risk. -/
  | flagged (invoiceId time : ℕ)
  /-- A check or a liquidation found the invoice safe. -/
  | safe (invoiceId : ℕ)
  /-- A liquidation seized the collateral, under the grace period then in force. -/
  | seized (invoiceId time gracePeriodSecs : ℕ)
  deriving DecidableEq, Repr

def riskEvents (h : Host W) (s : State W) (tx : Tx h) : List RiskEvent :=
  match tx.call with
  | .checkCollateralRisk caller invoiceId =>
    match checkCollateralRisk h tx.signers s caller invoiceId with
    | .ok (_, true) => [.flagged invoiceId s.ledger.now]
    | .ok (_, false) => [.safe invoiceId]
    | .error _ => []
  | .liquidateCollateral caller invoiceId =>
    match liquidateCollateral h tx.signers s caller invoiceId with
    | .ok (_, true) =>
      [.seized invoiceId s.ledger.now s.getCollateralRiskConfig.gracePeriodSecs]
    | .ok (_, false) => [.safe invoiceId]
    | .error _ => []
  | _ => []

def noteRisk (h : Host W) (s : State W) (tx : Tx h) (_ : State W) (log : List RiskEvent) :
    List RiskEvent :=
  log ++ riskEvents h s tx

/-- The history has a check that flagged an invoice at a time, and nobody found it safe since. -/
def FlaggedSince (log : List RiskEvent) (invoiceId time : ℕ) : Prop :=
  ∃ earlier between, log = earlier ++ .flagged invoiceId time :: between ∧
    .safe invoiceId ∉ between

/-- Every seizure of the history comes a grace period after such a check, and is the first one of its
invoice. -/
def Graced (log : List RiskEvent) : Prop :=
  ∀ before after invoiceId time grace, log = before ++ .seized invoiceId time grace :: after →
    (∃ flaggedAt, FlaggedSince before invoiceId flaggedAt ∧ flaggedAt + grace ≤ time) ∧
      ∀ t g, .seized invoiceId t g ∉ before

theorem FlaggedSince.append {log : List RiskEvent} {invoiceId time : ℕ}
    (hlog : FlaggedSince log invoiceId time) {events : List RiskEvent}
    (hsafe : .safe invoiceId ∉ events) : FlaggedSince (log ++ events) invoiceId time := by
  obtain ⟨earlier, between, rfl, hbetween⟩ := hlog
  refine ⟨earlier, between ++ events, by simp, ?_⟩
  rw [List.mem_append, not_or]
  exact ⟨hbetween, hsafe⟩

theorem Graced.concat {log : List RiskEvent} (hlog : Graced log) {event : RiskEvent}
    (hevent : ∀ invoiceId time grace, event = .seized invoiceId time grace →
      (∃ flaggedAt, FlaggedSince log invoiceId flaggedAt ∧ flaggedAt + grace ≤ time) ∧
        ∀ t g, .seized invoiceId t g ∉ log) : Graced (log ++ [event]) := by
  intro before after invoiceId time grace hsplit
  rcases List.eq_nil_or_concat after with rfl | ⟨after', last, rfl⟩
  · obtain ⟨rfl, hsame⟩ := List.append_inj' hsplit rfl
    exact hevent invoiceId time grace (List.singleton_inj.1 hsame)
  · have hprefix : log = before ++ .seized invoiceId time grace :: after' := by
      rw [List.concat_eq_append, ← List.cons_append, ← List.append_assoc] at hsplit
      exact List.append_inj_left' hsplit rfl
    exact hlog before after' invoiceId time grace hprefix

/-! ## The stored flags -/

/-- The flags and the deposits agree with the history. -/
structure Remembered (s : State W) (log : List RiskEvent) : Prop where
  flag : ∀ invoiceId since, s.atRiskSince invoiceId = some since →
    since ≤ s.ledger.now ∧ FlaggedSince log invoiceId since
  seized : ∀ invoiceId time grace, .seized invoiceId time grace ∈ log →
    ∃ deposit, s.ledger.collateral.get invoiceId = some deposit ∧ deposit.settled = true
  graced : Graced log

section Keeping

variable {h : Host W} {s s' : State W} {log : List RiskEvent}

theorem Remembered.frame (hr : Remembered s log) (hflags : s'.atRiskSince = s.atRiskSince)
    (hnow : s.ledger.now ≤ s'.ledger.now) (hkept : Pool.SettledKept s.ledger s'.ledger) :
    Remembered s' log where
  flag := fun invoiceId since hflag => by
    rw [hflags] at hflag
    obtain ⟨hle, hsince⟩ := hr.flag invoiceId since hflag
    exact ⟨hle.trans hnow, hsince⟩
  seized := fun invoiceId time grace hmem => by
    obtain ⟨deposit, hget, hsettled⟩ := hr.seized invoiceId time grace hmem
    exact ⟨deposit, hkept invoiceId deposit hget hsettled, hsettled⟩
  graced := hr.graced

theorem Remembered.flagged (hr : Remembered s log) (invoiceId : ℕ) :
    Remembered { s with
        atRiskSince := Function.update s.atRiskSince invoiceId
          (some ((s.atRiskSince invoiceId).getD s.ledger.now)) }
      (log ++ [.flagged invoiceId s.ledger.now]) where
  flag := fun invoiceId' since hflag => by
    by_cases hid : invoiceId' = invoiceId
    · subst hid
      dsimp only at hflag
      rw [Function.update_self, Option.some.injEq] at hflag
      cases hold : s.atRiskSince invoiceId' with
      | none =>
        rw [hold, Option.getD_none] at hflag
        subst hflag
        exact ⟨le_rfl, log, [], rfl, List.not_mem_nil⟩
      | some old =>
        rw [hold, Option.getD_some] at hflag
        subst hflag
        obtain ⟨hle, hsince⟩ := hr.flag invoiceId' old hold
        exact ⟨hle, hsince.append (by simp)⟩
    · dsimp only at hflag
      rw [Function.update_of_ne hid] at hflag
      obtain ⟨hle, hsince⟩ := hr.flag invoiceId' since hflag
      exact ⟨hle, hsince.append (by simp)⟩
  seized := fun invoiceId' time grace hmem => hr.seized invoiceId' time grace (by simpa using hmem)
  graced := hr.graced.concat fun _ _ _ heq => by cases heq

theorem Remembered.cleared (hr : Remembered s log) (invoiceId : ℕ) :
    Remembered (s.clearRisk invoiceId) (log ++ [.safe invoiceId]) where
  flag := fun invoiceId' since hflag => by
    have hid : invoiceId' ≠ invoiceId := by
      rintro rfl
      simp [State.clearRisk] at hflag
    have hold : s.atRiskSince invoiceId' = some since := by
      rw [← hflag]
      exact (Function.update_of_ne hid _ _).symm
    obtain ⟨hle, hsince⟩ := hr.flag invoiceId' since hold
    exact ⟨hle, hsince.append (by simpa using hid)⟩
  seized := fun invoiceId' time grace hmem => hr.seized invoiceId' time grace (by simpa using hmem)
  graced := hr.graced.concat fun _ _ _ heq => by cases heq

theorem Seized.deposit {invoiceId : ℕ} (hseized : Seized h s invoiceId s') :
    (∃ deposit, s.ledger.collateral.get invoiceId = some deposit ∧ deposit.settled = false) ∧
    (∃ deposit, s'.ledger.collateral.get invoiceId = some deposit ∧ deposit.settled = true) ∧
    s'.ledger.now = s.ledger.now ∧ s'.atRiskSince = s.atRiskSince ∧
    Pool.SettledKept s.ledger s'.ledger := by
  obtain ⟨_, _, ledger, _, -, -, hledger, hopened⟩ := hseized.seized
  have hkept := Pool.settledKept_riskLiquidate hledger
  obtain ⟨col, hcol, hopen, -, -, hledger'⟩ := Pool.riskLiquidateCollateral_eq_ok hledger
  have hsettled : ledger.collateral.get invoiceId =
      some { col with settled := true, seizedAt := s.ledger.now } := by
    rw [hledger']
    exact Store.get_set_self _ _ _
  have hnow : ledger.now = s.ledger.now := by rw [hledger']
  rw [hopened.opened]
  exact ⟨⟨col, hcol, hopen⟩, ⟨_, hsettled, rfl⟩, hnow, rfl, hkept⟩

theorem Remembered.seize (hr : Remembered s log) {invoiceId since : ℕ} {sold : State W}
    (hsince : s.atRiskSince invoiceId = some since)
    (hgrace : s.getCollateralRiskConfig.gracePeriodSecs ≤ s.ledger.now - since)
    (hseized : Seized h s invoiceId sold) :
    Remembered (sold.clearRisk invoiceId)
      (log ++ [.seized invoiceId s.ledger.now s.getCollateralRiskConfig.gracePeriodSecs]) := by
  obtain ⟨⟨before, hbefore, hopen⟩, ⟨after, hafter, hsettled⟩, hnow, hflags, hkept⟩ := hseized.deposit
  obtain ⟨hle, hflagged⟩ := hr.flag invoiceId since hsince
  refine ⟨fun invoiceId' since' hflag => ?_, fun invoiceId' time grace hmem => ?_, ?_⟩
  · have hid : invoiceId' ≠ invoiceId := by
      rintro rfl
      simp [State.clearRisk] at hflag
    have hold : s.atRiskSince invoiceId' = some since' := by
      rw [← hflag, ← hflags]
      exact (Function.update_of_ne hid _ _).symm
    obtain ⟨hle', hsince'⟩ := hr.flag invoiceId' since' hold
    exact ⟨hle'.trans hnow.ge, hsince'.append (by simp)⟩
  · rcases List.mem_append.1 hmem with hmem | hmem
    · obtain ⟨deposit, hget, hset⟩ := hr.seized invoiceId' time grace hmem
      exact ⟨deposit, hkept invoiceId' deposit hget hset, hset⟩
    · obtain ⟨rfl, -, -⟩ := RiskEvent.seized.inj (List.mem_singleton.1 hmem)
      exact ⟨after, hafter, hsettled⟩
  · refine hr.graced.concat fun invoiceId' time grace heq => ?_
    obtain ⟨rfl, rfl, rfl⟩ := RiskEvent.seized.inj heq
    refine ⟨⟨since, hflagged, by omega⟩, fun t g hmem => ?_⟩
    -- a second seizure would find the deposit settled
    obtain ⟨deposit, hget, hset⟩ := hr.seized invoiceId t g hmem
    rw [hbefore] at hget
    rw [← Option.some.inj hget, hopen] at hset
    cases hset

theorem remembered_step {tx : Tx h} (hr : Remembered s log) (hx : exec h s tx = .ok s') :
    Remembered s' (noteRisk h s tx s' log) := by
  unfold noteRisk
  have hidle : ∀ {s₁ : State W}, riskEvents h s tx = [] → s₁.atRiskSince = s.atRiskSince →
      s.ledger.now ≤ s₁.ledger.now → Pool.SettledKept s.ledger s₁.ledger →
      Remembered s₁ (log ++ riskEvents h s tx) := by
    intro s₁ hnone hflags hnow hkept
    rw [hnone, List.append_nil]
    exact hr.frame hflags hnow hkept
  cases exec_effect hx with
  | opened hcall hauth hopened =>
    rw [hopened.opened]
    exact hidle (by simp [riskEvents, hcall]) rfl le_rfl (Pool.SettledKept.of_eq rfl)
  | taken hcall | reclaimed hcall | cancelled hcall | auctioned hcall | bade hcall | withdrew hcall
  | settled hcall | expired hcall =>
    exact hidle (by simp [riskEvents, hcall]) rfl le_rfl (Pool.SettledKept.of_eq rfl)
  | configured admin riskConfig hcall =>
    refine hidle ?_ rfl le_rfl (Pool.SettledKept.of_eq rfl)
    rcases hcall with ⟨_, _, hcall⟩ | ⟨_, _, _, hcall⟩ <;> simp [riskEvents, hcall]
  | @flagged caller invoiceId hcall hresult =>
    obtain ⟨_, hresult⟩ := hresult
    have hevents : riskEvents h s tx = [.flagged invoiceId s.ledger.now] := by
      simp [riskEvents, hcall, hresult]
    rw [hevents]
    exact hr.flagged invoiceId
  | @cleared caller invoiceId hcall =>
    have hevents : riskEvents h s tx = [.safe invoiceId] := by
      rcases hcall with ⟨hcall, _, hresult⟩ | ⟨hcall, _, hresult⟩ <;>
        simp [riskEvents, hcall, hresult]
    rw [hevents]
    exact hr.cleared invoiceId
  | @seized caller invoiceId since sold hcall hresult hsince hgrace hseized =>
    obtain ⟨_, hresult⟩ := hresult
    have hevents : riskEvents h s tx =
        [.seized invoiceId s.ledger.now s.getCollateralRiskConfig.gracePeriodSecs] := by
      simp [riskEvents, hcall, hresult]
    rw [hevents]
    exact hr.seize hsince hgrace hseized
  | pool hcall hmem hexec =>
    exact hidle (by simp [riskEvents, hcall]) rfl (Pool.now_le_of_exec hexec)
      (Pool.exec_settledKept hexec)

end Keeping

/-- In every run, a liquidation that seizes the collateral of an invoice comes at least the grace
period then in force after a check that flagged the invoice, with no check and no liquidation in
between that found it safe, and it is the only seizure of that invoice. -/
theorem seizures_after_grace {h : Host W} {ledger : Pool.State W} {admin : Address} {s : State W}
    {log : List RiskEvent}
    (hrun : Reaches (track (exec h) (noteRisk h)) (fun _ _ => True)
      (initializeAuction ledger admin, []) (s, log)) {before after : List RiskEvent}
    {invoiceId time grace : ℕ} (hlog : log = before ++ .seized invoiceId time grace :: after) :
    (∃ earlier flaggedAt between, before = earlier ++ .flagged invoiceId flaggedAt :: between ∧
      flaggedAt + grace ≤ time ∧ .safe invoiceId ∉ between) ∧
    ∀ t g, .seized invoiceId t g ∉ before ∧ .seized invoiceId t g ∉ after := by
  have hremembered : Remembered s log := by
    apply hrun.invariant (P := fun x => Remembered x.1 x.2)
    · refine ⟨fun _ _ hflag => ?_, fun _ _ _ hmem => ?_, fun _ _ _ _ _ hsplit => ?_⟩
      · cases hflag
      · cases hmem
      · simp at hsplit
    · intro x tx y hr _ hstep
      rw [track_eq_ok] at hstep
      obtain ⟨hx, hnote⟩ := hstep
      rw [hnote]
      exact remembered_step hr hx
  have hgraced := hremembered.graced
  obtain ⟨⟨flaggedAt, ⟨earlier, between, hbefore, hsafe⟩, htime⟩, hfirst⟩ :=
    hgraced before after invoiceId time grace hlog
  refine ⟨⟨earlier, flaggedAt, between, hbefore, htime, hsafe⟩, fun t g => ⟨hfirst t g, ?_⟩⟩
  intro hmem
  -- a later seizure would have this one before it
  obtain ⟨mid, rest, rfl⟩ := List.append_of_mem hmem
  have hlater := hgraced (before ++ .seized invoiceId time grace :: mid) rest invoiceId t g
    (by simp [hlog])
  exact hlater.2 time grace (by simp)

theorem seizures_after_grace_once :
    ∃ x : State Unit × List RiskEvent,
      Reaches (track (exec sampleHost) (noteRisk sampleHost)) (fun _ _ => True) (sampleStart, []) x ∧
      x.2 = [.flagged 7 1] ++ .seized 7 259201 259200 :: [] ∧
      ∃ flaggedAt, .flagged 7 flaggedAt ∈ x.2 ∧ flaggedAt + 259200 ≤ 259201 := by
  obtain ⟨x, hx, hp⟩ := exists_of_check
    (x := seizure.foldlM (track (exec sampleHost) (noteRisk sampleHost)) (sampleStart, []))
    (p := fun x => decide (x.2 = [.flagged 7 1] ++ .seized 7 259201 259200 :: [])) (by decide)
  have hlog := of_decide_eq_true hp
  have hrun := reaches_of_along .refl (along_of_forall (fun _ _ => trivial) _ _) hx
  obtain ⟨⟨earlier, flaggedAt, between, hbefore, htime, -⟩, -⟩ := seizures_after_grace hrun hlog
  refine ⟨x, hrun, hlog, flaggedAt, ?_, htime⟩
  rw [hlog, hbefore]
  simp

end Astera.Auction
