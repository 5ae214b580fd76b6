import Astera.Invoices.Types

/-!
# The compliance registry

The storage of the compliance contract, one function for each of its entrypoints that writes, and
two of its views.  The contract calls no other contract.

Time-to-live extensions and events are left out.
-/

namespace Astera.Compliance

open Fallible Machine
open Invoices (Bytes)

inductive ComplianceError
  | AlreadyInitialized | NotInitialized | Unauthorized | ContractPaused | InvalidConfig
  | ScreenerAlreadyRegistered | ScreenerNotRegistered | ScreenerTimelockActive | NoPendingScreener
  | InvalidStatus | AddressNotFound | ListFull | InvalidReason | ReviewRequestTooSoon
  | RescreeningTooSoon | AccessControlNotConfigured | GovernanceNotConfigured
  deriving DecidableEq, Repr

inductive Fault
  | error (e : ComplianceError)
  | auth
  /-- The ledger time left its type. -/
  | overflow
  deriving DecidableEq, Repr

abbrev Res := Except Fault

def defaultRescreeningIntervalSecs : ℕ := 180 * 24 * 60 * 60

def defaultScreenerTimelockSecs : ℕ := 24 * 60 * 60

def maxHistoryEntries : ℕ := 64

def maxFlaggedList : ℕ := 256

def maxPendingList : ℕ := 256

def maxScreenerList : ℕ := 64

def reviewRequestCooldownSecs : ℕ := 24 * 60 * 60

inductive ComplianceStatus
  | Unscreened | Cleared | Flagged | Blocked | PendingReview
  deriving DecidableEq, Repr

inductive RiskTier
  | Low | Medium | High
  deriving DecidableEq, Repr

structure ComplianceRecord where
  address : Address
  status : ComplianceStatus
  reasonCode : ℕ
  riskTier : RiskTier
  screenedAt : ℕ
  screenedBy : Address
  expiresAt : ℕ
  notesHash : Bytes
  deriving DecidableEq, Repr

structure ScreeningHistoryEntry where
  status : ComplianceStatus
  reasonCode : ℕ
  riskTier : RiskTier
  screenedAt : ℕ
  screenedBy : Address
  expiresAt : ℕ
  notesHash : Bytes
  deriving DecidableEq, Repr

structure ScreenerSubmissionEntry where
  subjectAddress : Address
  status : ComplianceStatus
  reasonCode : ℕ
  riskTier : RiskTier
  screenedAt : ℕ
  expiresAt : ℕ
  notesHash : Bytes
  deriving DecidableEq, Repr

structure PendingScreener where
  address : Address
  proposedAt : ℕ
  effectiveAt : ℕ
  deriving DecidableEq, Repr

structure State where
  now : ℕ
  admin : Address
  paused : Bool := false
  rescreeningInterval : ℕ := defaultRescreeningIntervalSecs
  screenerTimelockSecs : ℕ := defaultScreenerTimelockSecs
  records : Store Address ComplianceRecord := ∅
  history : Address → List ScreeningHistoryEntry := fun _ => []
  screeners : Store Address Bool := ∅
  screenerIds : List Address := []
  pendingScreeners : Store Address PendingScreener := ∅
  pendingScreenerIds : List Address := []
  flaggedIds : List Address := []
  pendingReviewIds : List Address := []
  reviewRequestedAt : Store Address ℕ := ∅
  screenerSubmissions : Address → List ScreenerSubmissionEntry := fun _ => []
  lastScreenedAt : Store (Address × Address) ℕ := ∅
  accessControl : Option Address := none
  governance : Option Address := none

def initializeCompliance (now : ℕ) (admin : Address) : State where
  now := now
  admin := admin

def requireAuth (signers : List Address) (a : Address) : Res Unit := require (a ∈ signers) .auth

namespace State

variable (s : State)

def requireNotPaused : Res Unit := require (s.paused = false) (.error .ContractPaused)

def requireAdmin (admin : Address) : Res Unit := require (admin = s.admin) (.error .Unauthorized)

def requireAccessControl (caller : Address) : Res Unit := do
  let configured ← okOr s.accessControl (.error .AccessControlNotConfigured)
  require (caller = configured) (.error .Unauthorized)

def requireGovernance (caller : Address) : Res Unit := do
  let configured ← okOr s.governance (.error .GovernanceNotConfigured)
  require (caller = configured) (.error .Unauthorized)

/-- Whether there is a `Screener` entry. -/
def hasScreener (a : Address) : Bool := (s.screeners.get a).isSome

def requireScreenerOrAdmin (caller : Address) : Res Unit :=
  require (caller = s.admin ∨ s.hasScreener caller = true) (.error .Unauthorized)

end State

/-- `add_to_list`.  A full list drops its oldest entry, but only the two lists with an event of
their own (`evicts`): the others are left as they are. -/
def addToList (evicts : Bool) (list : List Address) (address : Address) (max : ℕ) : List Address :=
  if address ∈ list then list
  else if max ≤ list.length then
    if evicts then list.tail ++ [address] else list
  else list ++ [address]

def removeFromList (list : List Address) (address : Address) : List Address :=
  list.filter fun a => a ≠ address

/-- `append_history` and `append_screener_submission`. -/
def appendEntry {α : Type} (entries : List α) (entry : α) : List α :=
  (if maxHistoryEntries ≤ entries.length then entries.tail else entries) ++ [entry]

namespace State

variable (s : State)

def syncStatusLists (address : Address) : ComplianceStatus → State
  | .Flagged | .Blocked =>
    { s with
      flaggedIds := addToList true s.flaggedIds address maxFlaggedList
      pendingReviewIds := removeFromList s.pendingReviewIds address }
  | .PendingReview =>
    { s with
      pendingReviewIds := addToList true s.pendingReviewIds address maxPendingList
      flaggedIds := removeFromList s.flaggedIds address }
  | .Cleared | .Unscreened =>
    { s with
      flaggedIds := removeFromList s.flaggedIds address
      pendingReviewIds := removeFromList s.pendingReviewIds address }

/-- What the two ways to write a record have in common: the record, the two histories and the
lists. -/
def putRecord (record : ComplianceRecord) : State :=
  { s.syncStatusLists record.address record.status with
    records := s.records.set record.address record
    history := Function.update s.history record.address
      (appendEntry (s.history record.address) {
        status := record.status
        reasonCode := record.reasonCode
        riskTier := record.riskTier
        screenedAt := record.screenedAt
        screenedBy := record.screenedBy
        expiresAt := record.expiresAt
        notesHash := record.notesHash })
    screenerSubmissions := Function.update s.screenerSubmissions record.screenedBy
      (appendEntry (s.screenerSubmissions record.screenedBy) {
        subjectAddress := record.address
        status := record.status
        reasonCode := record.reasonCode
        riskTier := record.riskTier
        screenedAt := record.screenedAt
        expiresAt := record.expiresAt
        notesHash := record.notesHash }) }

end State

/-! ## Screeners -/

def activateScreener (s : State) (screener : Address) : Res State := do
  require (s.hasScreener screener = false) (.error .ScreenerAlreadyRegistered)
  require (s.screenerIds.length < maxScreenerList) (.error .ListFull)
  return { s with
    screenerIds := s.screenerIds ++ [screener]
    screeners := s.screeners.set screener true }

def registerScreenerInternal (s : State) (screener : Address) : Res State := do
  s.requireNotPaused
  require (s.hasScreener screener = false) (.error .ScreenerAlreadyRegistered)
  require (s.pendingScreeners.get screener = none) (.error .ScreenerAlreadyRegistered)
  if s.screenerTimelockSecs = 0 then activateScreener s screener
  else return { s with
    pendingScreeners := s.pendingScreeners.set screener {
      address := screener
      proposedAt := s.now
      effectiveAt := saturatingAddU 64 s.now s.screenerTimelockSecs }
    pendingScreenerIds := addToList false s.pendingScreenerIds screener maxScreenerList }

def State.dropPending (s : State) (screener : Address) : State :=
  { s with
    pendingScreeners := s.pendingScreeners.remove screener
    pendingScreenerIds := removeFromList s.pendingScreenerIds screener }

def confirmScreenerRegistrationInternal (s : State) (screener : Address) : Res State := do
  s.requireNotPaused
  let pending ← okOr (s.pendingScreeners.get screener) (.error .NoPendingScreener)
  require (pending.effectiveAt ≤ s.now) (.error .ScreenerTimelockActive)
  activateScreener (s.dropPending screener) screener

def deregisterScreenerInternal (s : State) (screener : Address) : Res State := do
  s.requireNotPaused
  if s.hasScreener screener = true then
    return { s with
      screeners := s.screeners.remove screener
      screenerIds := removeFromList s.screenerIds screener }
  else do
    require ((s.pendingScreeners.get screener).isSome = true) (.error .ScreenerNotRegistered)
    return s.dropPending screener

section Entrypoints

variable (signers : List Address) (s : State)

def registerScreener (admin screener : Address) : Res State := do
  requireAuth signers admin
  s.requireAdmin admin
  registerScreenerInternal s screener

def registerScreenerViaAc (accessControl screener : Address) : Res State := do
  requireAuth signers accessControl
  s.requireAccessControl accessControl
  registerScreenerInternal s screener

def confirmScreenerRegistration (admin screener : Address) : Res State := do
  requireAuth signers admin
  s.requireAdmin admin
  confirmScreenerRegistrationInternal s screener

def confirmScreenerViaAc (accessControl screener : Address) : Res State := do
  requireAuth signers accessControl
  s.requireAccessControl accessControl
  confirmScreenerRegistrationInternal s screener

def deregisterScreener (admin screener : Address) : Res State := do
  requireAuth signers admin
  s.requireAdmin admin
  deregisterScreenerInternal s screener

def deregisterScreenerViaAc (accessControl screener : Address) : Res State := do
  requireAuth signers accessControl
  s.requireAccessControl accessControl
  deregisterScreenerInternal s screener

def submitScreeningResult (screener address : Address) (status : ComplianceStatus) (reasonCode : ℕ)
    (riskTier : RiskTier) (expiresAt : ℕ) (notesHash : Bytes) : Res State := do
  requireAuth signers screener
  s.requireNotPaused
  s.requireScreenerOrAdmin screener
  require (status ≠ .Unscreened) (.error .InvalidStatus)
  -- the admin may screen a subject again at once
  require (screener ≠ s.admin → ∀ lastAt ∈ s.lastScreenedAt.get (screener, address),
    saturatingAddU 64 lastAt s.rescreeningInterval ≤ s.now) (.error .RescreeningTooSoon)
  require (expiresAt ≠ 0 → status = .Cleared → s.now < expiresAt) (.error .InvalidConfig)
  let record : ComplianceRecord := {
    address := address
    status := status
    reasonCode := reasonCode
    riskTier := riskTier
    screenedAt := s.now
    screenedBy := screener
    expiresAt := if expiresAt = 0 then saturatingAddU 64 s.now s.rescreeningInterval else expiresAt
    notesHash := notesHash }
  return { s.putRecord record with
    lastScreenedAt := s.lastScreenedAt.set (screener, address) s.now }

/-- `request_review`.  What the source calls `was_cleared` only appears in its event. -/
def requestReview (caller address : Address) (reason : Bytes) : Res State := do
  requireAuth signers caller
  s.requireNotPaused
  require (reason ≠ [] ∧ reason.length ≤ 1024) (.error .InvalidReason)
  require (∀ lastAt ∈ s.reviewRequestedAt.get address,
    saturatingAddU 64 lastAt reviewRequestCooldownSecs ≤ s.now) (.error .ReviewRequestTooSoon)
  let record : ComplianceRecord := {
    address := address
    status := .PendingReview
    reasonCode := 0
    riskTier := ((s.records.get address).map (·.riskTier)).getD .Medium
    screenedAt := s.now
    screenedBy := caller
    expiresAt := 0
    notesHash := reason }
  return { s.putRecord record with
    reviewRequestedAt := s.reviewRequestedAt.set address s.now }

/-! ## Settings -/

def pause (admin : Address) : Res State := do
  requireAuth signers admin
  s.requireAdmin admin
  return { s with paused := true }

def unpause (admin : Address) : Res State := do
  requireAuth signers admin
  s.requireAdmin admin
  return { s with paused := false }

def setPausedViaAc (accessControl : Address) (paused : Bool) : Res State := do
  requireAuth signers accessControl
  s.requireAccessControl accessControl
  return { s with paused := paused }

def setRescreeningInterval (admin : Address) (secs : ℕ) : Res State := do
  requireAuth signers admin
  s.requireAdmin admin
  require (secs ≠ 0) (.error .InvalidConfig)
  return { s with rescreeningInterval := secs }

def setRescreeningIntervalViaAc (accessControl : Address) (secs : ℕ) : Res State := do
  requireAuth signers accessControl
  s.requireAccessControl accessControl
  require (secs ≠ 0) (.error .InvalidConfig)
  return { s with rescreeningInterval := secs }

def setRescreeningIntervalGov (governance : Address) (secs : ℕ) : Res State := do
  requireAuth signers governance
  s.requireGovernance governance
  require (86400 ≤ secs) (.error .InvalidConfig)
  return { s with rescreeningInterval := secs }

def setScreenerTimelock (admin : Address) (secs : ℕ) : Res State := do
  requireAuth signers admin
  s.requireAdmin admin
  return { s with screenerTimelockSecs := secs }

def setScreenerTimelockViaAc (accessControl : Address) (secs : ℕ) : Res State := do
  requireAuth signers accessControl
  s.requireAccessControl accessControl
  return { s with screenerTimelockSecs := secs }

def setScreenerTimelockGov (governance : Address) (secs : ℕ) : Res State := do
  requireAuth signers governance
  s.requireGovernance governance
  require (3600 ≤ secs) (.error .InvalidConfig)
  return { s with screenerTimelockSecs := secs }

def setAccessControl (admin accessControl : Address) : Res State := do
  requireAuth signers admin
  s.requireAdmin admin
  return { s with accessControl := some accessControl }

def setAccessControlViaAc (accessControl newAccessControl : Address) : Res State := do
  requireAuth signers accessControl
  s.requireAccessControl accessControl
  return { s with accessControl := some newAccessControl }

def setGovernanceAddress (admin governance : Address) : Res State := do
  requireAuth signers admin
  s.requireAdmin admin
  return { s with governance := some governance }

end Entrypoints

def ComplianceRecord.isCleared (record : ComplianceRecord) (now : ℕ) : Bool :=
  record.status = .Cleared && (record.expiresAt = 0 || now < record.expiresAt)

def State.isCleared (s : State) (address : Address) : Bool :=
  ((s.records.get address).map fun record => record.isCleared s.now).getD false

def State.listPendingScreeners (s : State) : List PendingScreener :=
  s.pendingScreenerIds.filterMap fun a => s.pendingScreeners.get a

end Astera.Compliance
