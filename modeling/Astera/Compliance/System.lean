import Astera.Lib.Transition
import Astera.Compliance.Contract
import Astera.Lib.Index

/-!
# The compliance registry as a machine

`Call` lists the entrypoints and the passing of time; a run is a run of `exec`
(`Transition.Reaches`).
-/

namespace Astera.Compliance

open Fallible Machine Transition
open Invoices (Bytes)

variable {a screener : Address} {tx : Tx} {u : Unit}

inductive Setting
  | pause (admin : Address)
  | unpause (admin : Address)
  | setPausedViaAc (accessControl : Address) (paused : Bool)
  | setRescreeningInterval (admin : Address) (secs : ℕ)
  | setRescreeningIntervalViaAc (accessControl : Address) (secs : ℕ)
  | setRescreeningIntervalGov (governance : Address) (secs : ℕ)
  | setScreenerTimelock (admin : Address) (secs : ℕ)
  | setScreenerTimelockViaAc (accessControl : Address) (secs : ℕ)
  | setScreenerTimelockGov (governance : Address) (secs : ℕ)
  | setAccessControl (admin accessControl : Address)
  | setAccessControlViaAc (accessControl newAccessControl : Address)
  | setGovernanceAddress (admin governance : Address)
  deriving DecidableEq

/-- What can happen to the registry. -/
inductive Call
  | registerScreener (admin screener : Address)
  | registerScreenerViaAc (accessControl screener : Address)
  | confirmScreenerRegistration (admin screener : Address)
  | confirmScreenerViaAc (accessControl screener : Address)
  | deregisterScreener (admin screener : Address)
  | deregisterScreenerViaAc (accessControl screener : Address)
  | submitScreeningResult (screener address : Address) (status : ComplianceStatus) (reasonCode : ℕ)
      (riskTier : RiskTier) (expiresAt : ℕ) (notesHash : Bytes)
  | requestReview (caller address : Address) (reason : Bytes)
  | set (setting : Setting)
  | advance (now : ℕ)
  deriving DecidableEq

structure Tx where
  signers : List Address
  call : Call

def applySetting (signers : List Address) (s : State) : Setting → Res State
  | .pause admin => pause signers s admin
  | .unpause admin => unpause signers s admin
  | .setPausedViaAc accessControl paused => setPausedViaAc signers s accessControl paused
  | .setRescreeningInterval admin secs => setRescreeningInterval signers s admin secs
  | .setRescreeningIntervalViaAc accessControl secs =>
    setRescreeningIntervalViaAc signers s accessControl secs
  | .setRescreeningIntervalGov governance secs => setRescreeningIntervalGov signers s governance secs
  | .setScreenerTimelock admin secs => setScreenerTimelock signers s admin secs
  | .setScreenerTimelockViaAc accessControl secs =>
    setScreenerTimelockViaAc signers s accessControl secs
  | .setScreenerTimelockGov governance secs => setScreenerTimelockGov signers s governance secs
  | .setAccessControl admin accessControl => setAccessControl signers s admin accessControl
  | .setAccessControlViaAc accessControl newAccessControl =>
    setAccessControlViaAc signers s accessControl newAccessControl
  | .setGovernanceAddress admin governance => setGovernanceAddress signers s admin governance

def advance (s : State) (now : ℕ) : Res State := do
  require (s.now ≤ now ∧ now < 2 ^ 64) .overflow
  return { s with now := now }

def exec (s : State) (tx : Tx) : Res State :=
  let signers := tx.signers
  match tx.call with
  | .registerScreener admin screener => registerScreener signers s admin screener
  | .registerScreenerViaAc accessControl screener =>
    registerScreenerViaAc signers s accessControl screener
  | .confirmScreenerRegistration admin screener =>
    confirmScreenerRegistration signers s admin screener
  | .confirmScreenerViaAc accessControl screener =>
    confirmScreenerViaAc signers s accessControl screener
  | .deregisterScreener admin screener => deregisterScreener signers s admin screener
  | .deregisterScreenerViaAc accessControl screener =>
    deregisterScreenerViaAc signers s accessControl screener
  | .submitScreeningResult screener address status reasonCode riskTier expiresAt notesHash =>
    submitScreeningResult signers s screener address status reasonCode riskTier expiresAt notesHash
  | .requestReview caller address reason => requestReview signers s caller address reason
  | .set setting => applySetting signers s setting
  | .advance now => advance s now

def Call.registers : Call → Option Address
  | .registerScreener _ screener | .registerScreenerViaAc _ screener => some screener
  | _ => none

/-- The screener whose registration a call confirms. -/
def Call.confirms : Call → Option Address
  | .confirmScreenerRegistration _ screener | .confirmScreenerViaAc _ screener => some screener
  | _ => none

/-- The screener that a call takes off. -/
def Call.deregisters : Call → Option Address
  | .deregisterScreener _ screener | .deregisterScreenerViaAc _ screener => some screener
  | _ => none

def Call.screens : Call → Option Address
  | .submitScreeningResult _ address _ _ _ _ _ => some address
  | _ => none

def Call.reviews : Call → Option Address
  | .requestReview _ address _ => some address
  | _ => none

/-!
# What a call of the compliance registry does

`exec_effect` reads a successful call backwards: what was checked, and the state it leaves.
-/

open Mirror

variable {signers : List Address} {s s' : State}

@[simp]
theorem requireAuth_eq_ok : requireAuth signers a = .ok u ↔ a ∈ signers := by
  simp [requireAuth]

@[simp]
theorem requireNotPaused_eq_ok : s.requireNotPaused = .ok u ↔ s.paused = false := by
  simp [State.requireNotPaused]

@[simp]
theorem requireAdmin_eq_ok : s.requireAdmin a = .ok u ↔ a = s.admin := by
  simp [State.requireAdmin]

@[simp]
theorem requireScreenerOrAdmin_eq_ok :
    s.requireScreenerOrAdmin a = .ok u ↔ a = s.admin ∨ s.hasScreener a = true := by
  simp [State.requireScreenerOrAdmin]

theorem removeFromList_eq_drop (list : List Address) (a : Address) :
    removeFromList list a = drop list a := rfl

theorem addToList_eq_add {evicts : Bool} {list : List Address} {max : ℕ} (a : Address)
    (hroom : list.length < max) : addToList evicts list a max = add list a := by
  unfold addToList add
  rw [if_neg (not_le.2 hroom)]

/-! ## Records -/

def State.statusOf (s : State) (a : Address) : Option ComplianceStatus :=
  (s.records.get a).map (·.status)

/-- The address is recorded as flagged or blocked. -/
def State.Restricts (s : State) (a : Address) : Prop :=
  s.statusOf a = some .Flagged ∨ s.statusOf a = some .Blocked

instance (s : State) (a : Address) : Decidable (s.Restricts a) := inferInstanceAs (Decidable (_ ∨ _))

/-- A recorded status belongs on the list of flagged addresses. -/
def ComplianceStatus.Restrictive (status : ComplianceStatus) : Prop :=
  status = .Flagged ∨ status = .Blocked

theorem statusOf_putRecord (s : State) (record : ComplianceRecord) (a : Address) :
    (s.putRecord record).statusOf a =
      if a = record.address then some record.status else s.statusOf a := by
  show ((s.records.set record.address record).get a).map _ = _
  rw [Store.get_set]
  split_ifs <;> rfl

theorem restricts_putRecord (s : State) (record : ComplianceRecord) (a : Address) :
    (s.putRecord record).Restricts a ↔
      if a = record.address then record.status.Restrictive else s.Restricts a := by
  unfold State.Restricts
  rw [statusOf_putRecord]
  split_ifs
  · simp [ComplianceStatus.Restrictive]
  · rfl

theorem flaggedIds_putRecord (s : State) (record : ComplianceRecord) :
    (record.status.Restrictive ∧ (s.putRecord record).flaggedIds =
        addToList true s.flaggedIds record.address maxFlaggedList) ∨
      (¬ record.status.Restrictive ∧ (s.putRecord record).flaggedIds =
        removeFromList s.flaggedIds record.address) := by
  unfold State.putRecord ComplianceStatus.Restrictive
  cases record.status <;> simp [State.syncStatusLists]

theorem pendingReviewIds_putRecord (s : State) (record : ComplianceRecord) :
    (record.status = .PendingReview ∧ (s.putRecord record).pendingReviewIds =
        addToList true s.pendingReviewIds record.address maxPendingList) ∨
      (record.status ≠ .PendingReview ∧ (s.putRecord record).pendingReviewIds =
        removeFromList s.pendingReviewIds record.address) := by
  unfold State.putRecord
  cases record.status <;> simp [State.syncStatusLists]

theorem putRecord_frame (s : State) (record : ComplianceRecord) :
    (s.putRecord record).screeners = s.screeners ∧
      (s.putRecord record).screenerIds = s.screenerIds ∧
      (s.putRecord record).pendingScreeners = s.pendingScreeners ∧
      (s.putRecord record).pendingScreenerIds = s.pendingScreenerIds ∧
      (s.putRecord record).now = s.now := by
  unfold State.putRecord
  cases record.status <;> exact ⟨rfl, rfl, rfl, rfl, rfl⟩

/-! ## Effects -/

def State.activated (s : State) (screener : Address) : State :=
  { s with
    screenerIds := s.screenerIds ++ [screener]
    screeners := s.screeners.set screener true }

/-- A registration that waits for its timelock. -/
def State.queued (s : State) (screener : Address) : State :=
  { s with
    pendingScreeners := s.pendingScreeners.set screener {
      address := screener
      proposedAt := s.now
      effectiveAt := saturatingAddU 64 s.now s.screenerTimelockSecs }
    pendingScreenerIds := addToList false s.pendingScreenerIds screener maxScreenerList }

def State.dismissed (s : State) (screener : Address) : State :=
  { s with
    screeners := s.screeners.remove screener
    screenerIds := removeFromList s.screenerIds screener }

/-- Nothing but the settings and the clock differs. -/
structure SameBooks (s s' : State) : Prop where
  admin : s'.admin = s.admin
  records : s'.records = s.records
  screeners : s'.screeners = s.screeners
  screenerIds : s'.screenerIds = s.screenerIds
  pendingScreeners : s'.pendingScreeners = s.pendingScreeners
  pendingScreenerIds : s'.pendingScreenerIds = s.pendingScreenerIds
  flaggedIds : s'.flaggedIds = s.flaggedIds
  pendingReviewIds : s'.pendingReviewIds = s.pendingReviewIds

inductive Effect (s : State) (tx : Tx) : State → Prop
  | queued {screener : Address} (hcall : tx.call.registers = some screener)
      (hlock : s.screenerTimelockSecs ≠ 0) (hnew : s.hasScreener screener = false)
      (hfree : s.pendingScreeners.get screener = none) : Effect s tx (s.queued screener)
  | registered {screener : Address} (hcall : tx.call.registers = some screener)
      (hlock : s.screenerTimelockSecs = 0) (hnew : s.hasScreener screener = false)
      (hfree : s.pendingScreeners.get screener = none) : Effect s tx (s.activated screener)
  | confirmed {screener : Address} {pending : PendingScreener}
      (hcall : tx.call.confirms = some screener)
      (hget : s.pendingScreeners.get screener = some pending) (hripe : pending.effectiveAt ≤ s.now)
      (hnew : s.hasScreener screener = false) :
      Effect s tx ((s.dropPending screener).activated screener)
  | dismissed {screener : Address} (hcall : tx.call.deregisters = some screener)
      (hold : s.hasScreener screener = true) : Effect s tx (s.dismissed screener)
  | cancelled {screener : Address} {pending : PendingScreener}
      (hcall : tx.call.deregisters = some screener) (hnew : s.hasScreener screener = false)
      (hget : s.pendingScreeners.get screener = some pending) :
      Effect s tx (s.dropPending screener)
  | screened {record : ComplianceRecord} {lastScreenedAt : Store (Address × Address) ℕ}
      (hcall : tx.call.screens = some record.address) (hsigned : record.screenedBy ∈ tx.signers)
      (hauthorized : record.screenedBy = s.admin ∨ s.hasScreener record.screenedBy = true)
      (hstatus : record.status ≠ .Unscreened) :
      Effect s tx { s.putRecord record with lastScreenedAt := lastScreenedAt }
  | reviewed {record : ComplianceRecord} (hcall : tx.call.reviews = some record.address)
      (hstatus : record.status = .PendingReview) :
      Effect s tx { s.putRecord record with
        reviewRequestedAt := s.reviewRequestedAt.set record.address s.now }
  | configured {setting : Setting} {s' : State} (hcall : tx.call = .set setting)
      (hsame : SameBooks s s') (hnow : s'.now = s.now) : Effect s tx s'
  | advanced {now : ℕ} (hcall : tx.call = .advance now) (hnow : s.now ≤ now) (hlt : now < 2 ^ 64) :
      Effect s tx { s with now := now }

theorem activateScreener_eq_ok :
    activateScreener s screener = .ok s' ↔
      s.hasScreener screener = false ∧ s.screenerIds.length < maxScreenerList ∧
        s' = s.activated screener := by
  simp only [activateScreener, bind_eq_ok, exists_unit, require_eq_ok, pure_eq_ok]
  exact and_congr_right fun _ => and_congr_right fun _ => eq_comm

theorem registerScreenerInternal_effect (hcall : tx.call.registers = some screener)
    (hx : registerScreenerInternal s screener = .ok s') : Effect s tx s' := by
  simp only [registerScreenerInternal, bind_eq_ok, exists_unit, require_eq_ok] at hx
  obtain ⟨-, hnew, hfree, hx⟩ := hx
  split_ifs at hx with hlock
  · obtain ⟨-, -, rfl⟩ := activateScreener_eq_ok.1 hx
    exact .registered hcall hlock hnew hfree
  · rw [pure_eq_ok] at hx
    subst hx
    exact .queued hcall hlock hnew hfree

theorem confirmScreenerRegistrationInternal_eq_ok :
    confirmScreenerRegistrationInternal s screener = .ok s' ↔
      s.paused = false ∧ ∃ pending, s.pendingScreeners.get screener = some pending ∧
        pending.effectiveAt ≤ s.now ∧ s.hasScreener screener = false ∧
        s.screenerIds.length < maxScreenerList ∧
        s' = (s.dropPending screener).activated screener := by
  simp only [confirmScreenerRegistrationInternal, bind_eq_ok, exists_unit, require_eq_ok, okOr_eq_ok,
    requireNotPaused_eq_ok, activateScreener_eq_ok]
  rfl

theorem confirmScreenerRegistrationInternal_effect (hcall : tx.call.confirms = some screener)
    (hx : confirmScreenerRegistrationInternal s screener = .ok s') : Effect s tx s' := by
  obtain ⟨-, pending, hget, hripe, hnew, -, rfl⟩ := confirmScreenerRegistrationInternal_eq_ok.1 hx
  exact .confirmed hcall hget hripe hnew

theorem deregisterScreenerInternal_effect (hcall : tx.call.deregisters = some screener)
    (hx : deregisterScreenerInternal s screener = .ok s') : Effect s tx s' := by
  simp only [deregisterScreenerInternal, bind_eq_ok, exists_unit] at hx
  obtain ⟨-, hx⟩ := hx
  split_ifs at hx with hold
  · rw [pure_eq_ok] at hx
    subst hx
    exact .dismissed hcall hold
  · simp only [bind_eq_ok, exists_unit, require_eq_ok, pure_eq_ok] at hx
    obtain ⟨hsome, rfl⟩ := hx
    obtain ⟨pending, hget⟩ := Option.isSome_iff_exists.1 hsome
    exact .cancelled hcall (by simpa using hold) hget

theorem applySetting_same {setting : Setting} (hx : applySetting signers s setting = .ok s') :
    SameBooks s s' ∧ s'.now = s.now := by
  cases setting <;>
    simp only [applySetting, pause, unpause, setPausedViaAc, setRescreeningInterval,
      setRescreeningIntervalViaAc, setRescreeningIntervalGov, setScreenerTimelock,
      setScreenerTimelockViaAc, setScreenerTimelockGov, setAccessControl, setAccessControlViaAc,
      setGovernanceAddress, bind_eq_ok, exists_unit, pure_eq_ok] at hx <;>
    obtain ⟨-, -, -, rfl⟩ := hx <;> exact ⟨⟨rfl, rfl, rfl, rfl, rfl, rfl, rfl, rfl⟩, rfl⟩

theorem exec_effect (hx : exec s tx = .ok s') : Effect s tx s' := by
  obtain ⟨signers, call⟩ := tx
  cases call with
  | registerScreener admin screener =>
    simp only [exec, registerScreener, bind_eq_ok, exists_unit] at hx
    exact registerScreenerInternal_effect rfl hx.2.2
  | registerScreenerViaAc accessControl screener =>
    simp only [exec, registerScreenerViaAc, bind_eq_ok, exists_unit] at hx
    exact registerScreenerInternal_effect rfl hx.2.2
  | confirmScreenerRegistration admin screener =>
    simp only [exec, confirmScreenerRegistration, bind_eq_ok, exists_unit] at hx
    exact confirmScreenerRegistrationInternal_effect rfl hx.2.2
  | confirmScreenerViaAc accessControl screener =>
    simp only [exec, confirmScreenerViaAc, bind_eq_ok, exists_unit] at hx
    exact confirmScreenerRegistrationInternal_effect rfl hx.2.2
  | deregisterScreener admin screener =>
    simp only [exec, deregisterScreener, bind_eq_ok, exists_unit] at hx
    exact deregisterScreenerInternal_effect rfl hx.2.2
  | deregisterScreenerViaAc accessControl screener =>
    simp only [exec, deregisterScreenerViaAc, bind_eq_ok, exists_unit] at hx
    exact deregisterScreenerInternal_effect rfl hx.2.2
  | submitScreeningResult screener address status reasonCode riskTier expiresAt notesHash =>
    simp only [exec, submitScreeningResult, bind_eq_ok, exists_unit, require_eq_ok,
      requireAuth_eq_ok, requireScreenerOrAdmin_eq_ok, pure_eq_ok] at hx
    obtain ⟨hsigned, -, hauthorized, hstatus, -, -, rfl⟩ := hx
    exact .screened rfl hsigned hauthorized hstatus
  | requestReview caller address reason =>
    simp only [exec, requestReview, bind_eq_ok, exists_unit, pure_eq_ok] at hx
    obtain ⟨-, -, -, -, rfl⟩ := hx
    exact .reviewed rfl rfl
  | set setting =>
    obtain ⟨hsame, hnow⟩ := applySetting_same hx
    exact .configured rfl hsame hnow
  | advance now =>
    simp only [exec, advance, bind_eq_ok, exists_unit, require_eq_ok, pure_eq_ok] at hx
    obtain ⟨⟨hnow, hlt⟩, rfl⟩ := hx
    exact .advanced rfl hnow hlt

theorem putRecord_paused (s : State) (record : ComplianceRecord) :
    (s.putRecord record).paused = s.paused := by
  unfold State.putRecord
  cases record.status <;> rfl

theorem Effect.paused (heffect : Effect s tx s') (hset : ∀ setting, tx.call ≠ .set setting) :
    s'.paused = s.paused := by
  cases heffect with
  | screened | reviewed => exact putRecord_paused _ _
  | configured hcall => exact absurd hcall (hset _)
  | queued | registered | confirmed | dismissed | cancelled | advanced => rfl

end Astera.Compliance
