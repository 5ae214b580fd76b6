import Astera.Invoices.Lifecycle

/-!
# What the calls do to the books

One theorem for each entrypoint, and `exec_changes` for all of them: a call changes the books by a
chain of changes of `Lifecycle`.  What holds of every change holds of every call (`exec_invariant`).
-/

namespace Astera.Invoices

open Fallible Machine Transition

variable {W : Type}
variable {caller owner pool : Address} {b : Books} {approved expired : Bool}
  {oracleHash reason : Bytes} {call : Call W} {outcome : DisputeResolution} {inv : Invoice}
  {ids : List ℕ} {tx : Tx W} {amount : ℤ}

/-! ## Guards -/

@[simp]
theorem requireAuth_eq_ok {signers : List Address} {a : Address} {u : Unit} :
    requireAuth signers a = .ok u ↔ a ∈ signers := by
  simp [requireAuth]

namespace State

variable {s : State W} {a : Address} {u : Unit}

@[simp]
theorem requireNotPaused_eq_ok : s.requireNotPaused = .ok u ↔ s.config.paused = false := by
  simp [requireNotPaused]

@[simp]
theorem requireAdmin_eq_ok : s.requireAdmin a = .ok u ↔ a = s.config.admin := by
  simp [requireAdmin]

@[simp]
theorem requirePool_eq_ok : s.requirePool a = .ok u ↔ a = s.config.pool := by
  simp [requirePool]

@[simp]
theorem loadInvoice_eq_ok {id : ℕ} :
    s.loadInvoice id = .ok inv ↔ s.invoices.get id = some inv := by
  simp [loadInvoice]

@[simp]
theorem raiseSmeOutstanding_eq_ok :
    s.raiseSmeOutstanding a amount = .ok b ↔
      InI128 (s.smeOutstanding a + amount) ∧
        s.smeOutstanding a + amount ≤ s.config.maxOutstandingPerSme ∧
        b = s.toBooks.setSmeOutstanding a (s.smeOutstanding a + amount) := by
  simp only [raiseSmeOutstanding, bind_eq_ok, okOr_eq_ok, checkedAdd_eq_some, exists_unit,
    require_eq_ok, pure_eq_ok]
  constructor
  · rintro ⟨o, ⟨rfl, hfit⟩, hcap, rfl⟩
    exact ⟨hfit, hcap, rfl⟩
  · rintro ⟨hfit, hcap, rfl⟩
    exact ⟨_, ⟨rfl, hfit⟩, hcap, rfl⟩

theorem maybeExpirePendingInvoice_eq {inv inv' : Invoice} {s' : State W}
    (hexpire : s.maybeExpirePendingInvoice inv = (s', inv')) (hst : inv'.status ≠ .Expired) :
    s.overdue inv = false ∧ s' = s ∧ inv' = inv := by
  unfold maybeExpirePendingInvoice at hexpire
  split at hexpire
  · obtain ⟨-, rfl⟩ := Prod.mk.inj hexpire
    exact absurd rfl hst
  · rename_i hno
    obtain ⟨rfl, rfl⟩ := Prod.mk.inj hexpire
    exact ⟨by simpa using hno, rfl, rfl⟩

end State

theorem Books.decreaseDebtorExposure_eq (b : Books) (debtor : Bytes) (amount : ℤ) :
    b.decreaseDebtorExposure debtor amount =
      { b with
        debtorRecord := Function.update b.debtorRecord debtor
          ((b.debtorRecord debtor).map fun record =>
            { record with currentExposure := saturatingSub record.currentExposure amount }) } := by
  unfold decreaseDebtorExposure setDebtorRecord
  split
  · rename_i hnone
    rw [hnone, Option.map_none, ← hnone, Function.update_eq_self]
  · rename_i record hsome
    rw [hsome, Option.map_some]

theorem Books.addInvoiceToDebtor_eq (b : Books) (debtor : Bytes) (id : ℕ) :
    b.addInvoiceToDebtor debtor id =
      { b with
        debtorInvoices := Function.update b.debtorInvoices debtor
          (if id ∈ b.debtorInvoices debtor then b.debtorInvoices debtor
            else b.debtorInvoices debtor ++ [id]) } := by
  unfold addInvoiceToDebtor
  split
  · rw [Function.update_eq_self]
  · rfl

structure Same (s s' : State W) : Prop where
  config : s'.config = s.config
  now : s'.now = s.now

theorem Changes.move {s : State W} {id : ℕ} {a : Action} (hget : s.invoices.get id = some inv)
    (hmakes : Makes s s.toBooks call id inv a) (hb : b = a.apply s.now s.toBooks id inv) :
    Changes s call s.toBooks b :=
  hb ▸ .single (.move hget hget rfl hmakes)

section Entrypoints

attribute [local simp] Action.apply Action.rewrite Action.outstanding Action.debtorRecord
  Action.releasesDebtor Action.index Action.leavesOwner Action.leavesDebtor Action.dispute
  State.withBooks State.lessActive Books.setInvoice Books.setDispute Books.setSmeOutstanding
  Books.decreaseSmeOutstanding Books.decreaseDebtorExposure_eq Books.removeInvoiceFromOwner
  Books.removeInvoiceFromDebtor

variable {h : Host W} {signers : List Address} {s s' : State W} {id : ℕ}

/-! ### Extensions -/

@[simp]
theorem State.checkExtension_eq_ok {newDueDate : ℕ} {u : Unit} :
    s.checkExtension inv newDueDate = .ok u ↔
      (s.now < newDueDate ∧ inv.dueDate < newDueDate) ∧
        newDueDate ≤ maxExtensionDueDate inv := by
  simp [State.checkExtension]

theorem requestExtension_changes {newDueDate : ℕ}
    (hx : requestExtension signers s id owner newDueDate = .ok s') :
    Same s s' ∧ Changes s (.requestExtension id owner newDueDate) s.toBooks s'.toBooks := by
  simp only [requestExtension, bind_eq_ok, exists_unit, requireAuth_eq_ok,
    State.requireNotPaused_eq_ok, State.loadInvoice_eq_ok, require_eq_ok,
    State.checkExtension_eq_ok, pure_eq_ok] at hx
  obtain ⟨-, -, inv, hget, -, hst, -, ⟨-, hmax⟩, rfl⟩ := hx
  refine ⟨⟨rfl, rfl⟩, Changes.move hget (.extensionRequested hst hmax) ?_⟩
  rw [Action.apply_eq_setInvoice (fun _ _ => rfl) rfl rfl rfl fun _ => rfl]
  rfl

theorem approveExtension_eq_ok {approver : Address}
    (hx : approveExtension h signers s id approver = .ok s') :
    ∃ inv newDueDate world, s.invoices.get id = some inv ∧ inv.status = .Funded ∧
      inv.pendingDueDate = some newDueDate ∧ newDueDate ≤ maxExtensionDueDate inv ∧
      h.updateInvoiceDueDate s.world inv.poolContract id newDueDate = some world ∧
      s' = { s.withBooks ((Action.extend newDueDate).apply s.now s.toBooks id inv) with
        world := world } := by
  simp only [approveExtension, bind_eq_ok, exists_unit, requireAuth_eq_ok,
    State.requireNotPaused_eq_ok, State.loadInvoice_eq_ok, require_eq_ok, okOr_eq_ok,
    State.checkExtension_eq_ok, pure_eq_ok] at hx
  obtain ⟨-, -, -, inv, hget, hst, newDueDate, hpending, ⟨-, hmax⟩, world, hworld, rfl⟩ := hx
  refine ⟨inv, newDueDate, world, hget, hst, hpending, hmax, hworld, ?_⟩
  rw [Action.apply_eq_setInvoice (fun _ _ => rfl) rfl rfl rfl fun _ => rfl]
  rfl

theorem approveExtension_changes {approver : Address}
    (hx : approveExtension h signers s id approver = .ok s') :
    Same s s' ∧ Changes s (.approveExtension id approver) s.toBooks s'.toBooks := by
  obtain ⟨inv, newDueDate, world, hget, hst, -, hmax, -, rfl⟩ := approveExtension_eq_ok hx
  exact ⟨⟨rfl, rfl⟩, Changes.move hget (.extended hst hmax) rfl⟩

/-! ### Verification -/

theorem applyVerificationOutcome_changes
    (happrove : ∀ inv, inv.status = .AwaitingVerification → approved = true →
      Makes s s.toBooks call id inv .approve)
    (hreject : ∀ inv, inv.status = .AwaitingVerification → approved = false →
      Makes s s.toBooks call id inv (.reject reason))
    (hx : applyVerificationOutcome s id approved reason oracleHash = .ok s') :
    Same s s' ∧ Changes s call s.toBooks s'.toBooks := by
  simp only [applyVerificationOutcome, bind_eq_ok, exists_unit, State.loadInvoice_eq_ok,
    require_eq_ok, pure_eq_ok] at hx
  obtain ⟨inv, hget, hst, -, rfl⟩ := hx
  cases approved with
  | true =>
    refine ⟨⟨rfl, rfl⟩, Changes.move hget (happrove inv hst rfl) ?_⟩
    rw [Action.apply_eq_setInvoice (fun _ _ => rfl) rfl rfl rfl fun _ => rfl]
    rfl
  | false =>
    refine ⟨⟨rfl, rfl⟩, Changes.move hget (hreject inv hst rfl) ?_⟩
    rw [Action.apply_eq_setInvoice (fun _ _ => rfl) rfl rfl rfl fun _ => rfl]
    rfl

theorem verifyInvoice_changes {oracle : Address}
    (hx : verifyInvoice signers s id oracle approved reason oracleHash = .ok s') :
    Same s s' ∧
      Changes s (.verifyInvoice id oracle approved reason oracleHash) s.toBooks s'.toBooks := by
  simp only [verifyInvoice, bind_eq_ok, exists_unit, requireAuth_eq_ok,
    State.requireNotPaused_eq_ok, require_eq_ok, okOr_eq_ok] at hx
  obtain ⟨-, -, -, -, -, -, -, -, hx⟩ := hx
  refine applyVerificationOutcome_changes ?_ ?_ hx
  · rintro inv hst rfl
    exact .approved hst
  · rintro inv hst rfl
    exact .rejected hst

theorem consensusVerify_changes {registry : Address}
    (hx : consensusVerify signers s id registry approved reason oracleHash = .ok s') :
    Same s s' ∧
      Changes s (.consensusVerify id registry approved reason oracleHash) s.toBooks
        s'.toBooks := by
  simp only [consensusVerify, bind_eq_ok, exists_unit, requireAuth_eq_ok,
    State.requireNotPaused_eq_ok, require_eq_ok, okOr_eq_ok] at hx
  obtain ⟨-, -, -, -, -, hx⟩ := hx
  refine applyVerificationOutcome_changes ?_ ?_ hx
  · rintro inv hst rfl
    exact .consensusApproved hst
  · rintro inv hst rfl
    exact .consensusRejected hst

theorem timeoutVerification_changes (hx : timeoutVerification signers s caller id = .ok s') :
    Same s s' ∧ Changes s (.timeoutVerification caller id) s.toBooks s'.toBooks := by
  simp only [timeoutVerification, bind_eq_ok, exists_unit, requireAuth_eq_ok,
    State.requireNotPaused_eq_ok, State.loadInvoice_eq_ok, require_eq_ok, pure_eq_ok] at hx
  obtain ⟨-, -, inv, hget, -, hst, -, rfl⟩ := hx
  refine ⟨⟨rfl, rfl⟩, Changes.move hget (.timedOut hst) ?_⟩
  simp

/-! ### Disputes -/

theorem resolveDispute_changes {resolution : DisputeResolution}
    (hx : resolveDispute signers s id caller resolution = .ok s') :
    Same s s' ∧ Changes s (.resolveDispute id caller resolution) s.toBooks s'.toBooks := by
  simp only [resolveDispute, bind_eq_ok, exists_unit, requireAuth_eq_ok,
    State.requireNotPaused_eq_ok, State.loadInvoice_eq_ok, require_eq_ok] at hx
  obtain ⟨-, -, inv, hget, hst, harb, -, hx⟩ := hx
  cases resolution with
  | Pending => cases hx
  | InFavorOfSME =>
    rw [pure_eq_ok] at hx
    subst hx
    refine ⟨⟨rfl, rfl⟩, Changes.move hget (.upheld hst harb) ?_⟩
    rw [Action.apply_eq_setInvoice (fun _ _ => rfl) rfl rfl rfl fun _ => rfl]
    rfl
  | InFavorOfDebtor =>
    rw [pure_eq_ok] at hx
    subst hx
    refine ⟨⟨rfl, rfl⟩, Changes.move hget (.dismissed hst harb) ?_⟩
    simp

theorem raiseDispute_eq_ok {borrower respondent : Address} {evidenceHash : Bytes}
    (hx : raiseDispute h signers s id borrower evidenceHash respondent = .ok s') :
    ∃ inv world, s.invoices.get id = some inv ∧ inv.status = .Defaulted ∧ s.disputes id = none ∧
      (world = s.world ∨ ∃ arbitration,
        world = h.openCase s.world arbitration id borrower respondent inv.amount) ∧
      s' = { s.withBooks ((Action.contest evidenceHash).apply s.now s.toBooks id inv) with
        world := world } := by
  simp only [raiseDispute, bind_eq_ok, exists_unit, requireAuth_eq_ok,
    State.requireNotPaused_eq_ok, State.loadInvoice_eq_ok, require_eq_ok] at hx
  obtain ⟨-, -, inv, hget, hst, -, -, -, -, -, hnone, hx⟩ := hx
  have hbooks : (s.toBooks.setInvoice id { inv with status := .Disputed, disputedAt := s.now
      }).setDispute id ⟨evidenceHash, s.now, 0, .Pending⟩ =
      (Action.contest evidenceHash).apply s.now s.toBooks id inv := by
    simp
  rw [hbooks] at hx
  split at hx
  · split at hx
    · exact ⟨inv, _, hget, hst, hnone, .inr ⟨_, rfl⟩, ((pure_eq_ok _ _).1 hx).symm⟩
    · exact ⟨inv, s.world, hget, hst, hnone, .inl rfl, ((pure_eq_ok _ _).1 hx).symm⟩
  · exact ⟨inv, s.world, hget, hst, hnone, .inl rfl, ((pure_eq_ok _ _).1 hx).symm⟩

theorem raiseDispute_changes {borrower respondent : Address} {evidenceHash : Bytes}
    (hx : raiseDispute h signers s id borrower evidenceHash respondent = .ok s') :
    Same s s' ∧
      Changes s (.raiseDispute id borrower evidenceHash respondent) s.toBooks s'.toBooks := by
  obtain ⟨inv, world, hget, hst, hnone, -, rfl⟩ := raiseDispute_eq_ok hx
  exact ⟨⟨rfl, rfl⟩, Changes.move hget (.contested hst hnone) rfl⟩

theorem applyDisputeResolution_changes {record : DisputeRecord}
    (hget : s.invoices.get id = some inv) (hrecord : s.disputes id = some record)
    (hreinstate : outcome = .InFavorOfDebtor → Makes s s.toBooks call id inv (.reinstate
      (s.renewedDueDate inv)))
    (hconfirm : outcome = .InFavorOfSME → Makes s s.toBooks call id inv .confirmDefault)
    (hx : applyDisputeResolution s id inv record outcome = .ok s') :
    Same s s' ∧ Changes s call s.toBooks s'.toBooks := by
  cases outcome with
  | Pending => cases hx
  | InFavorOfSME =>
    simp only [applyDisputeResolution, bind_eq_ok, pure_eq_ok, exists_eq_left'] at hx
    subst hx
    refine ⟨⟨rfl, rfl⟩, Changes.move hget (hconfirm rfl) ?_⟩
    simp [hrecord]
  | InFavorOfDebtor =>
    simp only [applyDisputeResolution, bind_eq_ok, pure_eq_ok, exists_eq_left'] at hx
    subst hx
    refine ⟨⟨rfl, rfl⟩, Changes.move hget (hreinstate rfl) ?_⟩
    simp [hrecord]

theorem resolveDefaultDispute_changes {admin : Address}
    (hx : resolveDefaultDispute signers s id admin outcome = .ok s') :
    Same s s' ∧ Changes s (.resolveDefaultDispute id admin outcome) s.toBooks s'.toBooks := by
  simp only [resolveDefaultDispute, bind_eq_ok, exists_unit, requireAuth_eq_ok,
    State.requireNotPaused_eq_ok, State.requireAdmin_eq_ok, State.loadInvoice_eq_ok,
    require_eq_ok, okOr_eq_ok] at hx
  obtain ⟨-, -, -, inv, hget, hst, record, hrecord, -, harb, hx⟩ := hx
  have hsome : (s.disputes id).isSome = true := by simp [hrecord]
  refine applyDisputeResolution_changes hget hrecord ?_ ?_ hx
  · rintro rfl
    exact .reinstated hst hsome harb
  · rintro rfl
    exact .confirmed hst hsome harb

theorem arbitrationResolveDispute_changes {arbitration : Address}
    (hx : arbitrationResolveDispute signers s arbitration id outcome = .ok s') :
    Same s s' ∧
      Changes s (.arbitrationResolveDispute arbitration id outcome) s.toBooks s'.toBooks := by
  simp only [arbitrationResolveDispute, bind_eq_ok, exists_unit, requireAuth_eq_ok,
    State.requireNotPaused_eq_ok, State.loadInvoice_eq_ok, require_eq_ok, okOr_eq_ok] at hx
  obtain ⟨-, -, stored, hstored, rfl, inv, hget, hst, record, hrecord, -, hx⟩ := hx
  have hsome : (s.disputes id).isSome = true := by simp [hrecord]
  refine applyDisputeResolution_changes hget hrecord ?_ ?_ hx
  · rintro rfl
    exact .juryReinstated hst hsome hstored
  · rintro rfl
    exact .juryConfirmed hst hsome hstored

/-! ### Funding -/

theorem markFunded_changes (hx : markFunded signers s id pool = .ok s') :
    Same s s' ∧ Changes s (.markFunded id pool) s.toBooks s'.toBooks := by
  simp only [markFunded, bind_eq_ok, exists_unit, requireAuth_eq_ok,
    State.requireNotPaused_eq_ok, State.requirePool_eq_ok, State.loadInvoice_eq_ok] at hx
  obtain ⟨-, -, -, inv₀, hget, hx⟩ := hx
  cases hexpire : s.maybeExpirePendingInvoice inv₀ with
  | mk s₁ inv =>
    rw [hexpire] at hx
    simp only [require_eq_ok, okOr_eq_ok, checkedAdd_eq_some, State.raiseSmeOutstanding_eq_ok,
      pure_eq_ok] at hx
    obtain ⟨hne, hst, horacle, funded, ⟨rfl, -⟩, books, ⟨hfit, hcap, rfl⟩, rfl⟩ := hx
    obtain ⟨htime, rfl, rfl⟩ := State.maybeExpirePendingInvoice_eq hexpire hne
    refine ⟨⟨rfl, rfl⟩, Changes.move hget (.markedFunded hst htime horacle hfit hcap) ?_⟩
    simp

theorem recordFunding_eq_ok :
    recordFunding signers s id amount pool = .ok s' ↔
      pool ∈ signers ∧ s.config.paused = false ∧ pool = s.config.pool ∧ 0 < amount ∧
        ∃ inv, s.invoices.get id = some inv ∧ InI128 (inv.fundedAmount + amount) ∧
          ((inv.status = .Funded ∧
              s' = s.withBooks ((Action.topUp amount).apply s.now s.toBooks id inv)) ∨
            ((inv.status = .Pending ∨ inv.status = .Verified) ∧
              (s.config.requireOracleVerification = true → inv.oracleVerified = true) ∧
              InI128 (s.smeOutstanding inv.owner + inv.amount) ∧
              s.smeOutstanding inv.owner + inv.amount ≤ s.config.maxOutstandingPerSme ∧
              s' = s.withBooks ((Action.fund pool amount).apply s.now s.toBooks id inv))) := by
  have htopUp : ∀ inv, (Action.topUp amount).apply s.now s.toBooks id inv =
      s.toBooks.setInvoice id { inv with fundedAmount := inv.fundedAmount + amount } := by
    intro inv
    exact Action.apply_eq_setInvoice (fun _ _ => rfl) rfl rfl rfl fun _ => rfl
  have hfund : ∀ inv, (Action.fund pool amount).apply s.now s.toBooks id inv =
      (s.toBooks.setSmeOutstanding inv.owner (s.smeOutstanding inv.owner + inv.amount)).setInvoice id
        { inv with
          status := .Funded
          fundedAt := s.now
          poolContract := pool
          fundedAmount := inv.fundedAmount + amount } := by
    intro inv
    simp
  simp only [recordFunding, bind_eq_ok, exists_unit, requireAuth_eq_ok,
    State.requireNotPaused_eq_ok, State.requirePool_eq_ok, State.loadInvoice_eq_ok, require_eq_ok,
    htopUp, hfund]
  refine and_congr_right fun _ => and_congr_right fun _ => and_congr_right fun _ =>
    and_congr_right fun _ => exists_congr fun inv => and_congr_right fun _ => ?_
  by_cases hst : inv.status = .Funded
  · simp only [hst, if_true, bind_eq_ok, okOr_eq_ok, checkedAdd_eq_some, pure_eq_ok]
    constructor
    · rintro ⟨-, funded, ⟨rfl, hfit⟩, rfl⟩
      exact ⟨hfit, .inl ⟨trivial, rfl⟩⟩
    · rintro ⟨hfit, ⟨-, rfl⟩ | ⟨hst', -⟩⟩
      · exact ⟨.inr (.inr trivial), _, ⟨rfl, hfit⟩, rfl⟩
      · simp at hst'
  · simp only [hst, if_false, bind_eq_ok, exists_unit, require_eq_ok, okOr_eq_ok,
      checkedAdd_eq_some, State.raiseSmeOutstanding_eq_ok, pure_eq_ok]
    constructor
    · rintro ⟨hst', horacle, books, ⟨hfit, hcap, rfl⟩, funded, ⟨rfl, hamount⟩, rfl⟩
      exact ⟨hamount, .inr ⟨by simpa using hst', horacle, hfit, hcap, rfl⟩⟩
    · rintro ⟨hamount, ⟨hfalse, -⟩ | ⟨hst', horacle, hfit, hcap, rfl⟩⟩
      · exact absurd hfalse not_false
      · exact ⟨by simpa using hst', horacle, _, ⟨hfit, hcap, rfl⟩, _, ⟨rfl, hamount⟩, rfl⟩

theorem recordFunding_changes (hx : recordFunding signers s id amount pool = .ok s') :
    Same s s' ∧ Changes s (.recordFunding id amount pool) s.toBooks s'.toBooks := by
  rw [recordFunding_eq_ok] at hx
  obtain ⟨-, -, -, -, inv, hget, -, ⟨hst, rfl⟩ | ⟨hst, horacle, hfit, hcap, rfl⟩⟩ := hx
  · exact ⟨⟨rfl, rfl⟩, Changes.move hget (.toppedUp hst) rfl⟩
  · exact ⟨⟨rfl, rfl⟩, Changes.move hget (.recordedFunding hst horacle hfit hcap) rfl⟩

theorem addFunding_eq_ok {amount funded : ℤ}
    (hx : addFunding signers s id amount pool = .ok (s', funded)) :
    Same s s' ∧ s'.toBooks = s.toBooks := by
  simp only [addFunding, bind_eq_ok, exists_unit, pure_eq_ok, Prod.mk.injEq] at hx
  obtain ⟨-, -, -, -, -, -, -, -, -, -, rfl, -⟩ := hx
  exact ⟨⟨rfl, rfl⟩, rfl⟩

theorem markPaid_changes (hx : markPaid h signers s id pool = .ok s') :
    Same s s' ∧ Changes s (.markPaid id pool) s.toBooks s'.toBooks := by
  simp only [markPaid, bind_eq_ok, exists_unit, requireAuth_eq_ok, State.requireNotPaused_eq_ok,
    State.requirePool_eq_ok, State.loadInvoice_eq_ok, require_eq_ok, okOr_eq_ok, pure_eq_ok] at hx
  obtain ⟨-, -, -, inv, hget, hst, repaid, -, -, rfl⟩ := hx
  refine ⟨⟨rfl, rfl⟩, Changes.move hget (.paid hst) ?_⟩
  simp

theorem markDefaulted_changes (hx : markDefaulted signers s id pool = .ok s') :
    Same s s' ∧ Changes s (.markDefaulted id pool) s.toBooks s'.toBooks := by
  simp only [markDefaulted, bind_eq_ok, exists_unit, requireAuth_eq_ok,
    State.requireNotPaused_eq_ok, State.loadInvoice_eq_ok, require_eq_ok, pure_eq_ok] at hx
  obtain ⟨-, -, -, inv, hget, hst, defaultAt, -, -, rfl⟩ := hx
  refine ⟨⟨rfl, rfl⟩, Changes.move hget (.defaulted hst) ?_⟩
  simp

theorem markCancelled_changes (hx : markCancelled signers s id pool = .ok s') :
    Same s s' ∧ Changes s (.markCancelled id pool) s.toBooks s'.toBooks := by
  simp only [markCancelled, bind_eq_ok, exists_unit, requireAuth_eq_ok,
    State.requireNotPaused_eq_ok, State.requirePool_eq_ok, State.loadInvoice_eq_ok, require_eq_ok,
    pure_eq_ok] at hx
  obtain ⟨-, -, -, inv, hget, hst, rfl⟩ := hx
  refine ⟨⟨rfl, rfl⟩, Changes.move hget (.returned hst) ?_⟩
  simp

theorem setInvoiceGracePeriod_changes {admin : Address} {days : ℕ}
    (hx : setInvoiceGracePeriod signers s admin id days = .ok s') :
    Same s s' ∧ Changes s (.setInvoiceGracePeriod admin id days) s.toBooks s'.toBooks := by
  simp only [setInvoiceGracePeriod, bind_eq_ok, exists_unit, State.loadInvoice_eq_ok,
    require_eq_ok, pure_eq_ok] at hx
  obtain ⟨-, -, inv, hget, hst, rfl⟩ := hx
  refine ⟨⟨rfl, rfl⟩, Changes.move hget (.graceSet hst) ?_⟩
  rw [Action.apply_eq_setInvoice (fun _ _ => rfl) rfl rfl rfl fun _ => rfl]
  rfl

/-! ### Cancellation and expiry -/

theorem State.canCancel_starts (hcan : s.canCancel inv caller = true) :
    Action.cancel.starts inv.status = true := by
  unfold State.canCancel InvoiceStatus.cancellable at hcan
  cases hst : inv.status <;> simp_all [Action.starts]

theorem cancelInvoice_changes (hx : cancelInvoice signers s id caller = .ok s') :
    Same s s' ∧ Changes s (.cancelInvoice id caller) s.toBooks s'.toBooks := by
  simp only [cancelInvoice, bind_eq_ok, exists_unit, requireAuth_eq_ok,
    State.requireNotPaused_eq_ok, State.loadInvoice_eq_ok] at hx
  obtain ⟨-, -, inv₀, hget, hx⟩ := hx
  cases hexpire : s.maybeExpirePendingInvoice inv₀ with
  | mk s₁ inv =>
    rw [hexpire] at hx
    simp only [require_eq_ok, pure_eq_ok] at hx
    obtain ⟨hcan, rfl⟩ := hx
    have hstarts := State.canCancel_starts hcan
    have hne : inv.status ≠ .Expired := by
      intro hst
      simp [Action.starts, hst] at hstarts
    have hunfunded : inv.status ≠ .Funded := by
      intro hst
      simp [Action.starts, hst] at hstarts
    obtain ⟨htime, rfl, rfl⟩ := State.maybeExpirePendingInvoice_eq hexpire hne
    refine ⟨⟨rfl, rfl⟩, Changes.move hget (.cancelled hstarts htime) ?_⟩
    simp [hunfunded]

theorem checkExpiration_eq_ok (hx : checkExpiration s id = .ok (s', expired)) :
    (s' = s ∨ ∃ inv, s.invoices.get id = some inv ∧ s.overdue inv = true ∧
      s'.toBooks = Action.expire.apply s.now s.toBooks id inv) ∧ Same s s' := by
  simp only [checkExpiration, bind_eq_ok, State.loadInvoice_eq_ok] at hx
  obtain ⟨inv, hget, hx⟩ := hx
  split at hx
  · rename_i htime
    rw [pure_eq_ok, Prod.mk.injEq] at hx
    obtain ⟨rfl, -⟩ := hx
    refine ⟨.inr ⟨inv, hget, htime, ?_⟩, ⟨rfl, rfl⟩⟩
    simp
  · rw [pure_eq_ok, Prod.mk.injEq] at hx
    obtain ⟨rfl, -⟩ := hx
    exact ⟨.inl rfl, ⟨rfl, rfl⟩⟩

theorem checkExpiration_changes (hx : checkExpiration s id = .ok (s', expired)) :
    Same s s' ∧ Changes s (.checkExpiration id) s.toBooks s'.toBooks := by
  obtain ⟨rfl | ⟨inv, hget, htime, hbooks⟩, hsame⟩ := checkExpiration_eq_ok hx
  · exact ⟨hsame, .refl⟩
  · exact ⟨hsame, Changes.move hget (.expired htime) hbooks⟩

theorem State.overdue_congr {t : State W} (hsame : Same s t) (inv : Invoice) :
    t.overdue inv = s.overdue inv := by
  simp [State.overdue, hsame.config, hsame.now]

/-- What the batch has done so far: it let some invoices expire. -/
structure Expiring (s : State W) (call : Call W) (t : State W) : Prop where
  same : Same s t
  changes : Changes s call s.toBooks t.toBooks
  disputes : t.disputes = s.disputes
  invoices : ∀ id, t.invoices.get id = s.invoices.get id ∨
    ∃ inv, t.invoices.get id = some inv ∧ inv.status = .Expired

theorem Expiring.check {t t' : State W} (ht : Expiring s (.batchCheckExpiration ids) t)
    (hcheck : checkExpiration t id = .ok (t', expired)) :
    Expiring s (.batchCheckExpiration ids) t' := by
  obtain ⟨rfl | ⟨inv, hget, htime, hbooks⟩, hsame⟩ := checkExpiration_eq_ok hcheck
  · exact ht
  · have hstarts : inv.status = .Pending := by
      simp only [State.overdue, Bool.and_eq_true, decide_eq_true_eq] at htime
      exact htime.1
    have hbefore : s.invoices.get id = some inv := by
      rcases ht.invoices id with hold | ⟨inv', hget', hst⟩
      · rw [← hold, hget]
      · obtain rfl := Option.some.inj (hget.symm.trans hget')
        simp [hst] at hstarts
    rw [State.overdue_congr ht.same] at htime
    refine ⟨⟨hsame.config.trans ht.same.config, hsame.now.trans ht.same.now⟩,
      ht.changes.tail ?_, ?_, fun id' => ?_⟩
    · rw [hbooks, ht.same.now]
      exact .move hget hbefore ht.disputes (.expiredInBatch htime)
    · rw [hbooks, ← ht.disputes]
      exact Function.update_eq_self _ _
    · rw [hbooks]
      by_cases hid : id' = id
      · subst hid
        exact .inr ⟨_, Store.get_set_self _ _ _, rfl⟩
      · rw [Action.apply, Store.get_set_of_ne _ _ hid]
        exact ht.invoices id'

theorem batchCheckExpiration_changes {count : ℕ} (hx : batchCheckExpiration s ids = .ok (s', count)) :
    Same s s' ∧ Changes s (.batchCheckExpiration ids) s.toBooks s'.toBooks := by
  simp only [batchCheckExpiration, bind_eq_ok, exists_unit] at hx
  obtain ⟨-, hx⟩ := hx
  have hall : Expiring s (.batchCheckExpiration ids) s' := by
    refine foldlM_invariant (l := ids) (P := fun x : State W × ℕ =>
      Expiring s (.batchCheckExpiration ids) x.1) ?_
      ⟨⟨rfl, rfl⟩, .refl, rfl, fun _ => .inl rfl⟩ hx
    rintro ⟨t, n⟩ id ⟨t', n'⟩ - ht hstep
    simp only [bind_eq_ok] at hstep
    obtain ⟨⟨u, expired⟩, hcheck, hu⟩ := hstep
    simp only [pure_eq_ok, Prod.mk.injEq] at hu
    obtain ⟨rfl, -⟩ := hu
    exact ht.check hcheck
  exact ⟨hall.same, hall.changes⟩

/-! ### Cleaning up -/

theorem cleanupInvoice_changes (hx : cleanupInvoice signers s id caller = .ok s') :
    Same s s' ∧ Changes s (.cleanupInvoice id caller) s.toBooks s'.toBooks := by
  simp only [cleanupInvoice, bind_eq_ok, exists_unit, State.loadInvoice_eq_ok, require_eq_ok,
    pure_eq_ok] at hx
  obtain ⟨-, -, -, inv, hget, hcompleted, -, -, rfl⟩ := hx
  exact ⟨⟨rfl, rfl⟩, .single (.wipe hget hcompleted)⟩

/-- What the batch has done so far: it removed invoices that were completed before the call. -/
structure Cleaned (s : State W) (call : Call W) (b : Books) : Prop where
  changes : Changes s call s.toBooks b
  invoices : ∀ id inv, b.invoices.get id = some inv → s.invoices.get id = some inv
  owners : b.smeInvoices = s.smeInvoices
  debtors : b.debtorInvoices = s.debtorInvoices

theorem Cleaned.cleanup {x : Books × ℕ} (hx : Cleaned s (.cleanupExpiredStorage caller ids) x.1)
    (hmem : id ∈ ids) :
    Cleaned s (.cleanupExpiredStorage caller ids) (Books.cleanup x id).1 := by
  unfold Books.cleanup
  split
  · exact hx
  · rename_i inv hget
    split
    · rename_i hcompleted
      refine ⟨hx.changes.tail (.drop rfl hmem hget (hx.invoices id inv hget) hcompleted hx.owners
        hx.debtors), fun id' inv' hget' => ?_, hx.owners, hx.debtors⟩
      have hother : x.1.invoices.get id' = some inv' := by
        exact Store.get_of_get_remove hget'
      exact hx.invoices id' inv' hother
    · exact hx

theorem cleanupExpiredStorage_changes {removed : ℕ}
    (hx : cleanupExpiredStorage signers s caller ids = .ok (s', removed)) :
    Same s s' ∧ Changes s (.cleanupExpiredStorage caller ids) s.toBooks s'.toBooks := by
  have hall : ∀ l : List ℕ, (∀ i ∈ l, i ∈ ids) → ∀ x : Books × ℕ,
      Cleaned s (.cleanupExpiredStorage caller ids) x.1 →
      Cleaned s (.cleanupExpiredStorage caller ids) (l.foldl Books.cleanup x).1 := by
    intro l
    induction l with
    | nil => exact fun _ x hx => hx
    | cons i l ih =>
      intro hl x hx
      exact ih (fun j hj => hl j (by simp [hj])) _ (hx.cleanup (hl i (by simp)))
  have hcleaned := hall ids (fun _ hi => hi) (s.toBooks, 0) ⟨.refl, fun _ _ hget => hget, rfl, rfl⟩
  simp only [cleanupExpiredStorage, bind_eq_ok, exists_unit] at hx
  obtain ⟨-, -, -, hx⟩ := hx
  split at hx
  · rw [pure_eq_ok, Prod.mk.injEq] at hx
    obtain ⟨rfl, -⟩ := hx
    exact ⟨⟨rfl, rfl⟩, hcleaned.changes⟩
  · rw [pure_eq_ok, Prod.mk.injEq] at hx
    obtain ⟨rfl, -⟩ := hx
    exact ⟨⟨rfl, rfl⟩, hcleaned.changes⟩

/-! ### Debtors and creation -/

theorem State.enrolDebtor_changes (call : Call W) (debtorId debtorName : Bytes)
    (maxExposure : ℤ) :
    Same s (s.enrolDebtor debtorId debtorName maxExposure) ∧
      Changes s call s.toBooks (s.enrolDebtor debtorId debtorName maxExposure).toBooks :=
  ⟨⟨rfl, rfl⟩, .single (.enrol rfl)⟩

theorem State.retireDebtor_changes {debtorId : Bytes} (call : Call W)
    (hx : s.retireDebtor debtorId = .ok s') : Same s s' ∧ Changes s call s.toBooks s'.toBooks := by
  simp only [State.retireDebtor, bind_eq_ok, okOr_eq_ok, pure_eq_ok] at hx
  obtain ⟨record, hrecord, rfl⟩ := hx
  exact ⟨⟨rfl, rfl⟩, .single (.enrol (by simp [Books.exposure, hrecord]))⟩

theorem State.raiseDebtorExposure_eq_ok {debtor : Bytes}
    (hx : s.raiseDebtorExposure debtor amount = .ok b) :
    (s.config.requireRegisteredDebtor = true →
      (s.debtorRecord debtor).isSome = true ∧
        InI128 (s.toBooks.exposure debtor + amount)) ∧
    b = { s.toBooks with
      debtorRecord :=
        if s.config.requireRegisteredDebtor then
          Function.update s.debtorRecord debtor ((s.debtorRecord debtor).map fun record =>
            { record with currentExposure := record.currentExposure + amount })
        else s.debtorRecord } := by
  unfold State.raiseDebtorExposure at hx
  split at hx
  · rename_i hrequired
    simp only [bind_eq_ok, exists_unit, okOr_eq_ok, checkedAdd_eq_some, require_eq_ok,
      pure_eq_ok] at hx
    obtain ⟨record, hrecord, -, exposure, ⟨rfl, hfit⟩, -, rfl⟩ := hx
    refine ⟨fun _ => ⟨by simp [hrecord], by simpa [Books.exposure, hrecord] using hfit⟩, ?_⟩
    simp [hrequired, hrecord, Books.setDebtorRecord]
  · rename_i hrequired
    rw [pure_eq_ok] at hx
    subst hx
    refine ⟨fun hyes => absurd hyes hrequired, ?_⟩
    simp [hrequired]

theorem createInvoiceWithMetadata_changes (hcall : call.creates = true) {debtor : Bytes}
    {dueDate : ℕ} {description verificationHash : Bytes} {metadataUri : Option Bytes}
    (hx : createInvoiceWithMetadata h signers s owner debtor amount dueDate description
      verificationHash metadataUri = .ok (s', id)) :
    Same s s' ∧ Changes s call s.toBooks s'.toBooks := by
  simp only [createInvoiceWithMetadata, bind_eq_ok, exists_unit, require_eq_ok, okOr_eq_ok,
    fitU_eq_some, pure_eq_ok, Prod.mk.injEq] at hx
  obtain ⟨-, -, -, -, -, hpos, -, -, -, -, -, books, hbooks, -, id', ⟨rfl, -⟩, -, -, hnew, -, -, -,
    -, rfl, -⟩ := hx
  obtain ⟨hdebtor, rfl⟩ := State.raiseDebtorExposure_eq_ok hbooks
  have hchange : Change s call s.toBooks (s.toBooks.enter s.config.requireRegisteredDebtor
      (s.newInvoice (s.invoiceCount + 1) owner debtor amount dueDate description
        verificationHash metadataUri)) := .create hcall hpos hnew hdebtor
  refine ⟨⟨rfl, rfl⟩, .single ?_⟩
  rw [State.withBooks, Books.addInvoiceToDebtor_eq]
  exact hchange

theorem setInvoicePrivate_eq_ok {isPrivate : Bool}
    (hx : setInvoicePrivate signers s id owner isPrivate = .ok s') :
    Same s s' ∧ s'.toBooks = s.toBooks := by
  simp only [setInvoicePrivate, bind_eq_ok, exists_unit, pure_eq_ok] at hx
  obtain ⟨-, -, -, -, -, rfl⟩ := hx
  exact ⟨⟨rfl, rfl⟩, rfl⟩

/-- The calls that act on the books, and not on the configuration, the time or the neighbours. -/
def Call.acts : Call W → Bool
  | .set _ | .neighbours _ | .advance _ => false
  | _ => true

theorem exec_acts (hacts : tx.call.acts = true) (hx : exec h s tx = .ok s') :
    Same s s' ∧ Changes s tx.call s.toBooks s'.toBooks := by
  obtain ⟨signers, call⟩ := tx
  have hquiet : Same s s' ∧ s'.toBooks = s.toBooks →
      Same s s' ∧ Changes s call s.toBooks s'.toBooks := by
    rintro ⟨hsame, hbooks⟩
    exact ⟨hsame, hbooks ▸ .refl⟩
  cases call with
  | createInvoice owner debtor amount dueDate description hash url =>
    obtain ⟨⟨t, id⟩, hrun, rfl⟩ := (map_eq_ok _ _ _).1 hx
    simp only [createInvoice, bind_eq_ok, exists_unit] at hrun
    exact createInvoiceWithMetadata_changes rfl hrun.2.2
  | createInvoiceWithMetadata owner debtor amount dueDate description hash uri =>
    obtain ⟨⟨t, id⟩, hrun, rfl⟩ := (map_eq_ok _ _ _).1 hx
    exact createInvoiceWithMetadata_changes rfl hrun
  | requestExtension id owner newDueDate => exact requestExtension_changes hx
  | approveExtension id approver => exact approveExtension_changes hx
  | verifyInvoice id oracle approved reason hash => exact verifyInvoice_changes hx
  | consensusVerify id registry approved reason hash => exact consensusVerify_changes hx
  | timeoutVerification caller id => exact timeoutVerification_changes hx
  | resolveDispute id caller resolution => exact resolveDispute_changes hx
  | raiseDispute id borrower evidence respondent => exact raiseDispute_changes hx
  | resolveDefaultDispute id admin outcome => exact resolveDefaultDispute_changes hx
  | arbitrationResolveDispute arbitration id outcome => exact arbitrationResolveDispute_changes hx
  | markFunded id pool => exact markFunded_changes hx
  | recordFunding id amount pool => exact recordFunding_changes hx
  | addFunding id amount pool =>
    obtain ⟨⟨t, funded⟩, hrun, rfl⟩ := (map_eq_ok _ _ _).1 hx
    exact hquiet (addFunding_eq_ok hrun)
  | markPaid id pool => exact markPaid_changes hx
  | markDefaulted id pool => exact markDefaulted_changes hx
  | markCancelled id pool => exact markCancelled_changes hx
  | setInvoiceGracePeriod admin id days => exact setInvoiceGracePeriod_changes hx
  | cancelInvoice id caller => exact cancelInvoice_changes hx
  | checkExpiration id =>
    obtain ⟨⟨t, expired⟩, hrun, rfl⟩ := (map_eq_ok _ _ _).1 hx
    exact checkExpiration_changes hrun
  | batchCheckExpiration ids =>
    obtain ⟨⟨t, count⟩, hrun, rfl⟩ := (map_eq_ok _ _ _).1 hx
    exact batchCheckExpiration_changes hrun
  | cleanupInvoice id caller => exact cleanupInvoice_changes hx
  | cleanupExpiredStorage caller ids =>
    obtain ⟨⟨t, removed⟩, hrun, rfl⟩ := (map_eq_ok _ _ _).1 hx
    exact cleanupExpiredStorage_changes hrun
  | registerDebtor admin debtorId debtorName maxExposure =>
    simp only [exec, registerDebtor, bind_eq_ok, exists_unit, pure_eq_ok] at hx
    exact hx.2.2 ▸ State.enrolDebtor_changes _ debtorId debtorName maxExposure
  | registerDebtorViaAc accessControl debtorId debtorName maxExposure =>
    simp only [exec, registerDebtorViaAc, bind_eq_ok, exists_unit, pure_eq_ok] at hx
    exact hx.2.2 ▸ State.enrolDebtor_changes _ debtorId debtorName maxExposure
  | deactivateDebtor admin debtorId =>
    simp only [exec, deactivateDebtor, bind_eq_ok, exists_unit] at hx
    exact State.retireDebtor_changes _ hx.2
  | deactivateDebtorViaAc accessControl debtorId =>
    simp only [exec, deactivateDebtorViaAc, bind_eq_ok, exists_unit] at hx
    exact State.retireDebtor_changes _ hx.2
  | setInvoicePrivate id owner isPrivate => exact hquiet (setInvoicePrivate_eq_ok hx)
  | set setting | neighbours world | advance now => cases hacts

theorem exec_cases (hx : exec h s tx = .ok s') :
    (∃ setting config, tx.call = .set setting ∧ applySetting tx.signers s setting = .ok config ∧
      s' = { s with config := config }) ∨
    (∃ world, tx.call = .neighbours world ∧ s' = { s with world := world }) ∨
    (∃ now, tx.call = .advance now ∧ s.now ≤ now ∧ now < 2 ^ 64 ∧ s' = { s with now := now }) ∨
    (tx.call.acts = true ∧ Same s s' ∧ Changes s tx.call s.toBooks s'.toBooks) := by
  by_cases hacts : tx.call.acts = true
  · exact .inr (.inr (.inr ⟨hacts, exec_acts hacts hx⟩))
  · obtain ⟨signers, call⟩ := tx
    cases call with
    | set setting =>
      obtain ⟨config, hset, rfl⟩ := (map_eq_ok _ _ _).1 hx
      exact .inl ⟨setting, config, rfl, hset, rfl⟩
    | neighbours world => exact .inr (.inl ⟨world, rfl, (Except.ok.inj hx).symm⟩)
    | advance now =>
      simp only [exec, advance, bind_eq_ok, exists_unit, require_eq_ok, pure_eq_ok] at hx
      exact .inr (.inr (.inl ⟨now, rfl, hx.1.1, hx.1.2, hx.2.symm⟩))
    | _ => exact absurd rfl hacts

theorem exec_changes (hx : exec h s tx = .ok s') :
    Changes s tx.call s.toBooks s'.toBooks := by
  obtain ⟨-, -, -, -, rfl⟩ | ⟨-, -, rfl⟩ | ⟨-, -, -, -, rfl⟩ | ⟨-, -, hchanges⟩ := exec_cases hx
  · exact .refl
  · exact .refl
  · exact .refl
  · exact hchanges

theorem exec_invariant {P : Books → Prop} (hx : exec h s tx = .ok s') (hP : P s.toBooks)
    (hchange : ∀ b b', P b → Change s tx.call b b' → P b') : P s'.toBooks := by
  have hall : ∀ b, Changes s tx.call s.toBooks b → P b := by
    intro b hb
    induction hb with
    | refl => exact hP
    | tail _ hstep ih => exact hchange _ _ ih hstep
  exact hall _ (exec_changes hx)

theorem exec_now_le (hx : exec h s tx = .ok s') : s.now ≤ s'.now := by
  obtain ⟨-, -, -, -, rfl⟩ | ⟨-, -, rfl⟩ | ⟨now, -, hle, -, rfl⟩ | ⟨-, hsame, -⟩ := exec_cases hx
  · exact le_rfl
  · exact le_rfl
  · exact hle
  · exact hsame.now.ge

end Entrypoints

end Astera.Invoices
