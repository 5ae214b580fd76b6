import Astera.Lib.SlidingWindow
import Astera.Invoices.Steps

/-!
# The limit on creations

`create_invoice` keeps the times of an owner's creations within the last day and refuses the next
one when there are `DailyInvoiceLimit` of them: every window of a day holds at most the limit, and a
refused creation finds as many.
-/

namespace Astera.Invoices

open Fallible Machine SlidingWindow Transition

variable {W : Type}

def Call.creator : Call W → Option Address
  | .createInvoice owner _ _ _ _ _ _ | .createInvoiceWithMetadata owner _ _ _ _ _ _ => some owner
  | _ => none

/-- The times at which each owner created an invoice. -/
def noteCreation (s : State W) (tx : Tx W) (_ : State W) (log : Address → List ℕ) :
    Address → List ℕ :=
  match tx.call.creator with
  | some owner => Function.update log owner (log owner ++ [s.now])
  | none => log

/-- An invoice is created under the limit, and not on the first day of the clock. -/
def LimitedTo (limit : ℕ) (s : State W) (tx : Tx W) : Prop :=
  tx.call.creator.isSome = true → s.config.dailyInvoiceLimit = limit ∧ secsPerDay < s.now

instance (limit : ℕ) (s : State W) (tx : Tx W) : Decidable (LimitedTo limit s tx) :=
  inferInstanceAs (Decidable (_ → _))

/-! ## The stored times -/

section Calls

variable {h : Host W} {signers : List Address} {s s' : State W} {tx : Tx W} {owner : Address}

theorem State.freshTimestamps_eq (owner : Address) (hday : secsPerDay < s.now) :
    s.freshTimestamps owner = recent secsPerDay s.now (s.invoiceTimestamps owner) := by
  refine List.filter_congr fun ts _ => ?_
  rw [decide_eq_decide]
  omega

@[simp]
theorem State.withBooks_invoiceTimestamps (b : Books) :
    (s.withBooks b).invoiceTimestamps = s.invoiceTimestamps := rfl

@[simp]
theorem State.lessActive_invoiceTimestamps : s.lessActive.invoiceTimestamps = s.invoiceTimestamps :=
  rfl

@[simp]
theorem State.maybeExpirePendingInvoice_invoiceTimestamps (inv : Invoice) :
    (s.maybeExpirePendingInvoice inv).1.invoiceTimestamps = s.invoiceTimestamps := by
  unfold State.maybeExpirePendingInvoice
  split <;> rfl

theorem createInvoiceWithMetadata_timestamps {debtor description verificationHash : Bytes}
    {amount : ℤ} {dueDate id : ℕ} {metadataUri : Option Bytes}
    (hx : createInvoiceWithMetadata h signers s owner debtor amount dueDate description
      verificationHash metadataUri = .ok (s', id)) :
    (s.freshTimestamps owner).length < s.config.dailyInvoiceLimit ∧ s'.now = s.now ∧
      s'.invoiceTimestamps =
        Function.update s.invoiceTimestamps owner (s.freshTimestamps owner ++ [s.now]) := by
  simp only [createInvoiceWithMetadata, bind_eq_ok, exists_unit, require_eq_ok, pure_eq_ok,
    Prod.mk.injEq] at hx
  obtain ⟨-, -, -, -, -, -, -, -, -, -, -, -, -, hroom, -, -, -, -, -, -, -, -, -, rfl, -⟩ := hx
  exact ⟨hroom, rfl, rfl⟩

theorem exec_creator (hcreator : tx.call.creator = some owner) (hx : exec h s tx = .ok s') :
    (s.freshTimestamps owner).length < s.config.dailyInvoiceLimit ∧ s'.now = s.now ∧
      s'.invoiceTimestamps =
        Function.update s.invoiceTimestamps owner (s.freshTimestamps owner ++ [s.now]) := by
  obtain ⟨signers, call⟩ := tx
  cases call with
  | createInvoice owner' debtor amount dueDate description hash url =>
    obtain ⟨⟨t, id⟩, hrun, rfl⟩ := (map_eq_ok _ _ _).1 hx
    simp only [createInvoice, bind_eq_ok, exists_unit] at hrun
    exact Option.some.inj hcreator ▸ createInvoiceWithMetadata_timestamps hrun.2.2
  | createInvoiceWithMetadata owner' debtor amount dueDate description hash uri =>
    obtain ⟨⟨t, id⟩, hrun, rfl⟩ := (map_eq_ok _ _ _).1 hx
    exact Option.some.inj hcreator ▸ createInvoiceWithMetadata_timestamps hrun
  | _ => cases hcreator

theorem exec_invoiceTimestamps (hcreator : tx.call.creator = none) (hx : exec h s tx = .ok s') :
    s'.invoiceTimestamps = s.invoiceTimestamps := by
  obtain ⟨signers, call⟩ := tx
  revert hx
  suffices hpost : Ensures (exec h s ⟨signers, call⟩) fun t =>
      t.invoiceTimestamps = s.invoiceTimestamps from hpost s'
  cases call with
  | createInvoice | createInvoiceWithMetadata => cases hcreator
  | requestExtension => simp [exec, requestExtension]
  | approveExtension => simp [exec, approveExtension]
  | verifyInvoice => simp [exec, verifyInvoice, applyVerificationOutcome]
  | consensusVerify => simp [exec, consensusVerify, applyVerificationOutcome]
  | timeoutVerification => simp [exec, timeoutVerification]
  | resolveDispute id caller resolution =>
    cases resolution <;> simp [exec, resolveDispute]
  | raiseDispute =>
    cases hcontract : s.config.arbitrationContract <;>
      simp [exec, raiseDispute, ensures_ite, hcontract]
  | resolveDefaultDispute id admin outcome =>
    cases outcome <;> simp [exec, resolveDefaultDispute, applyDisputeResolution]
  | arbitrationResolveDispute arbitration id outcome =>
    cases outcome <;> simp [exec, arbitrationResolveDispute, applyDisputeResolution]
  | markFunded => simp [exec, markFunded]
  | recordFunding => simp [exec, recordFunding, ensures_ite]
  | addFunding => simp [exec, addFunding]
  | markPaid => simp [exec, markPaid]
  | markDefaulted => simp [exec, markDefaulted]
  | markCancelled => simp [exec, markCancelled]
  | setInvoiceGracePeriod => simp [exec, setInvoiceGracePeriod]
  | cancelInvoice => simp [exec, cancelInvoice]
  | checkExpiration => simp [exec, checkExpiration, ensures_ite]
  | batchCheckExpiration ids =>
    simp only [exec, batchCheckExpiration, ensures_map, ensures_bind]
    refine fun _ _ => ensures_foldlM rfl fun x id hx => ?_
    simp [checkExpiration, ensures_ite, hx]
  | cleanupInvoice => simp [exec, cleanupInvoice]
  | cleanupExpiredStorage => simp [exec, cleanupExpiredStorage, ensures_ite]
  | registerDebtor => simp [exec, registerDebtor, State.enrolDebtor]
  | registerDebtorViaAc => simp [exec, registerDebtorViaAc, State.enrolDebtor]
  | deactivateDebtor => simp [exec, deactivateDebtor, State.retireDebtor]
  | deactivateDebtorViaAc => simp [exec, deactivateDebtorViaAc, State.retireDebtor]
  | setInvoicePrivate => simp [exec, setInvoicePrivate]
  | set => simp [exec]
  | neighbours => simp [exec]
  | advance => simp [exec, advance]

theorem State.raiseDebtorExposure_ne_rateLimit (debtor : Bytes) (amount : ℤ) :
    s.raiseDebtorExposure debtor amount ≠ .error (.error .RateLimitExceeded) := by
  unfold State.raiseDebtorExposure
  split_ifs <;>
    simp [bind_eq_error, fmap_eq_error, okOr_eq_error, require_eq_error, pure_ne_error]

theorem State.requireComplianceCleared_ne_rateLimit (address : Address) :
    s.requireComplianceCleared h address ≠ .error (.error .RateLimitExceeded) := by
  unfold State.requireComplianceCleared
  split_ifs
  · exact pure_ne_error _ _
  · simp only [bind_eq_error, okOr_eq_error, ne_eq, not_or, not_exists]
    refine ⟨by simp, fun registry hregistry => ?_⟩
    split at hregistry <;> simp [pure_ne_error] at hregistry

theorem createInvoiceWithMetadata_rateLimit {debtor description verificationHash : Bytes}
    {amount : ℤ} {dueDate : ℕ} {metadataUri : Option Bytes}
    (hx : createInvoiceWithMetadata h signers s owner debtor amount dueDate description
      verificationHash metadataUri = .error (.error .RateLimitExceeded)) :
    s.config.dailyInvoiceLimit ≤ (s.freshTimestamps owner).length := by
  simp [createInvoiceWithMetadata, bind_eq_error, require_eq_error, okOr_eq_error, requireAuth,
    State.requireNotPaused, validateInvoiceStrings, State.validateMinDueDateWindow,
    State.validateDueDate, State.raiseDebtorExposure_ne_rateLimit,
    State.requireComplianceCleared_ne_rateLimit, fmap_eq_error] at hx
  obtain ⟨-, -, -, -, -, -, -, -, -, -, -, -, -, -, -, -, -, -, -, -, -, -, hfull⟩ := hx
  exact hfull

theorem exec_rateLimit (hcreator : tx.call.creator = some owner)
    (hx : exec h s tx = .error (.error .RateLimitExceeded)) :
    s.config.dailyInvoiceLimit ≤ (s.freshTimestamps owner).length := by
  obtain ⟨signers, call⟩ := tx
  cases call with
  | createInvoice owner' debtor amount dueDate description hash url =>
    obtain rfl := Option.some.inj hcreator
    simp only [exec, map_eq_error, createInvoice, bind_eq_error, require_eq_error] at hx
    obtain ⟨-, hother⟩ | ⟨-, -, ⟨-, hother⟩ | ⟨-, -, hrun⟩⟩ := hx
    · simp at hother
    · simp at hother
    · exact createInvoiceWithMetadata_rateLimit hrun
  | createInvoiceWithMetadata owner' debtor amount dueDate description hash uri =>
    obtain rfl := Option.some.inj hcreator
    exact createInvoiceWithMetadata_rateLimit ((map_eq_error _ _ _).1 hx)
  | _ => cases hcreator

end Calls

section Run

variable {h : Host W} {limit : ℕ}

/-- What is stored of the creations of each owner. -/
def Logged (limit : ℕ) (x : State W × (Address → List ℕ)) : Prop :=
  ∀ owner, Remembers secsPerDay limit x.1.now (x.2 owner) (x.1.invoiceTimestamps owner)

theorem Logged.step {x y : State W × (Address → List ℕ)} {tx : Tx W} (hlog : Logged limit x)
    (hok : LimitedTo limit x.1 tx) (hstep : track (exec h) noteCreation x tx = .ok y) :
    Logged limit y := by
  obtain ⟨s, log⟩ := x
  obtain ⟨s', log'⟩ := y
  obtain ⟨hx, hnote⟩ := (track_eq_ok _ _ _ _ _).1 hstep
  dsimp only at hx hnote hok
  subst hnote
  cases hcreator : tx.call.creator with
  | none =>
    intro owner
    have hkept := exec_invoiceTimestamps hcreator hx
    simp only [noteCreation, hcreator, hkept]
    exact (hlog owner).mono (exec_now_le hx)
  | some creator =>
    obtain ⟨hlimit, hday⟩ := hok (by simp [hcreator])
    obtain ⟨hroom, hnow, hstored⟩ := exec_creator hcreator hx
    rw [State.freshTimestamps_eq creator hday] at hroom hstored
    intro owner
    simp only [noteCreation, hcreator, hnow, hstored]
    by_cases howner : owner = creator
    · subst howner
      rw [Function.update_self, Function.update_self]
      exact (hlog owner).pass (hlimit ▸ hroom)
    · rw [Function.update_of_ne howner, Function.update_of_ne howner]
      exact hlog owner

/-- Every window of a day holds at most `limit` invoices of an owner, and a creation that is refused
for the limit finds as many in the day before it. -/
theorem creation_limit {now : ℕ} {world : W} {admin pool : Address} {maxInvoiceAmount : ℤ}
    {expirationDurationSecs gracePeriodDays : ℕ} {s : State W} {log : Address → List ℕ}
    (hrun : Reaches (track (exec h) noteCreation) (fun x => LimitedTo limit x.1)
      (initialState now world admin pool maxInvoiceAmount expirationDurationSecs gracePeriodDays,
        fun _ => []) (s, log)) (owner : Address) :
    (∀ start, ((log owner).filter fun t => start ≤ t ∧ t < start + secsPerDay).length ≤ limit) ∧
      ∀ tx : Tx W, tx.call.creator = some owner → LimitedTo limit s tx →
        exec h s tx = .error (.error .RateLimitExceeded) →
          limit ≤ ((log owner).filter fun t => t ≤ s.now ∧ s.now < t + secsPerDay).length := by
  have hlog : Logged limit (s, log) :=
    hrun.invariant (fun owner => remembers_nil _ _ _) fun _ _ _ hlog hok hstep => hlog.step hok hstep
  refine ⟨(hlog owner).bounded, fun tx hcreator hok hx => ?_⟩
  obtain ⟨hlimit, hday⟩ := hok (by simp [hcreator])
  have hfull := exec_rateLimit hcreator hx
  rw [hlimit, State.freshTimestamps_eq owner hday, (hlog owner).exact s.now le_rfl] at hfull
  have hpast : recent secsPerDay s.now (log owner) =
      (log owner).filter fun t => t ≤ s.now ∧ s.now < t + secsPerDay := by
    refine List.filter_congr fun t ht => ?_
    simp [(hlog owner).past t ht]
  rwa [hpast] at hfull

end Run

/-! ## A sample history -/

/-- With room for two invoices a day, account 3 creates two on the third day. -/
def twoCreations : List (Tx Unit) :=
  [⟨[1], .set (.setDailyInvoiceLimit 1 2)⟩, ⟨[], .advance 200000⟩, billing, billing]

theorem creation_limit_third :
    ∃ x : State Unit × (Address → List ℕ),
      Reaches (track (exec quietHost) noteCreation) (fun x => LimitedTo 2 x.1)
        (sampleState, fun _ => []) x ∧
      exec quietHost x.1 billing = .error (.error .RateLimitExceeded) ∧
      2 ≤ ((x.2 3).filter fun t => t ≤ x.1.now ∧ x.1.now < t + secsPerDay).length := by
  obtain ⟨x, hx, hp⟩ := exists_of_check
    (x := twoCreations.foldlM (track (exec quietHost) noteCreation) (sampleState, fun _ => []))
    (p := fun x => fails (exec quietHost x.1 billing) (.error .RateLimitExceeded) &&
      decide (LimitedTo 2 x.1 billing)) (by decide)
  obtain ⟨hfails, hok⟩ := Bool.and_eq_true_iff.1 hp
  have hrun := reaches_of_along .refl
    (show Along _ (fun x : State Unit × (Address → List ℕ) => LimitedTo 2 x.1) _ twoCreations
      by decide) hx
  have hrefused := of_fails hfails
  exact ⟨x, hrun, hrefused,
    (creation_limit hrun 3).2 billing rfl (of_decide_eq_true hok) hrefused⟩

end Astera.Invoices
