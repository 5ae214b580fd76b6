import Astera.Pool.State

/-!
# The referral registry

The storage of the contract and its writing entrypoints.  A claim moves tokens, so it runs on the
pool's state.  Time-to-live extensions, events and the views are left out.
-/

namespace Astera.Referral

open Fallible Machine
open Pool (ActivityKind)

inductive ReferralError
  | AlreadyInitialized | Unauthorized | AlreadyRegistered | SelfReferral | InvalidBps
  | ContractPaused | AccessControlNotConfigured | InvalidRewardCap | RewardOverflow | ReferralCycle
  | InvalidActivityKind | NotInitialized
  deriving DecidableEq, Repr

inductive Fault
  | error (e : ReferralError)
  | auth
  /-- A token transfer that the sender cannot make. -/
  | token
  /-- A number left its type. -/
  | overflow
  deriving DecidableEq, Repr

abbrev Res := Except Fault

def bpsDenom : ℤ := 10_000

def maxBps : ℕ := 10_000

def defaultBorrowRewardBps : ℕ := 500

def defaultDepositRewardBps : ℕ := 1_000

def maxLeaderboardSize : ℕ := 25

structure LeaderboardEntry where
  referrer : Address
  referralCount : ℕ
  deriving DecidableEq, Repr

structure Registry where
  admin : Address
  pool : Address
  paused : Bool := false
  borrowRewardBps : ℕ := defaultBorrowRewardBps
  depositRewardBps : ℕ := defaultDepositRewardBps
  referrer : Address → Option Address := fun _ => none
  activated : Address → Bool := fun _ => false
  pendingReward : Store (Address × Address) ℤ := ∅
  lifetimeRewardCap : Address → Option ℤ := fun _ => none
  refereeRewardAccrued : Address × Address → ℤ := fun _ => 0
  referralCount : Address → ℕ := fun _ => 0
  topReferrers : List LeaderboardEntry := []
  accessControl : Option Address := none

def initializeReferral (admin pool : Address) : Registry where
  admin := admin
  pool := pool

def requireAuth (signers : List Address) (a : Address) : Res Unit := require (a ∈ signers) .auth

namespace Registry

variable (r : Registry)

def requireNotPaused : Res Unit := require (r.paused = false) (.error .ContractPaused)

def asAdmin (signers : List Address) (admin : Address) : Res Unit := do
  requireAuth signers admin
  require (admin = r.admin) (.error .Unauthorized)

/-- The two guards of a call by the access control contract. -/
def asAccessControl (signers : List Address) (accessControl : Address) : Res Unit := do
  requireAuth signers accessControl
  let configured ← okOr r.accessControl (.error .AccessControlNotConfigured)
  require (accessControl = configured) (.error .Unauthorized)

def pending (referrer token : Address) : ℤ := (r.pendingReward.get (referrer, token)).getD 0

/-- `get_borrow_reward_bps` or `get_deposit_reward_bps`. -/
def rewardBps : ActivityKind → ℕ
  | .borrow => r.borrowRewardBps
  | .deposit => r.depositRewardBps

end Registry

/-- An entry goes behind all that count at least as much. -/
def insertEntry (board : List LeaderboardEntry) (entry : LeaderboardEntry) : List LeaderboardEntry :=
  let ahead := board.takeWhile fun e => entry.referralCount ≤ e.referralCount
  let behind := board.dropWhile fun e => entry.referralCount ≤ e.referralCount
  ahead ++ entry :: behind

def updateLeaderboard (board : List LeaderboardEntry) (referrer : Address) (newCount : ℕ) :
    List LeaderboardEntry :=
  let entry := { referrer := referrer, referralCount := newCount }
  if board.any (fun e => e.referrer = referrer) then
    insertEntry (board.eraseP fun e => e.referrer = referrer) entry
  else if board.length = maxLeaderboardSize then
    if newCount ≤ (board.getLast?.map LeaderboardEntry.referralCount).getD 0 then board
    else insertEntry board.dropLast entry
  else insertEntry board entry

/-! ## Settings -/

section Settings

variable (signers : List Address) (r : Registry)

def pause (admin : Address) : Res Registry := do
  r.asAdmin signers admin
  return { r with paused := true }

def unpause (admin : Address) : Res Registry := do
  r.asAdmin signers admin
  return { r with paused := false }

def setPool (admin pool : Address) : Res Registry := do
  r.asAdmin signers admin
  return { r with pool := pool }

def setBorrowRewardBps (admin : Address) (bps : ℕ) : Res Registry := do
  r.asAdmin signers admin
  require (bps ≤ maxBps) (.error .InvalidBps)
  return { r with borrowRewardBps := bps }

def setDepositRewardBps (admin : Address) (bps : ℕ) : Res Registry := do
  r.asAdmin signers admin
  require (bps ≤ maxBps) (.error .InvalidBps)
  return { r with depositRewardBps := bps }

def setLifetimeRewardCap (admin token : Address) (cap : ℤ) : Res Registry := do
  r.asAdmin signers admin
  require (0 ≤ cap) (.error .InvalidRewardCap)
  return { r with lifetimeRewardCap := Function.update r.lifetimeRewardCap token (some cap) }

def setAccessControl (admin accessControl : Address) : Res Registry := do
  r.asAdmin signers admin
  return { r with accessControl := some accessControl }

def setAccessControlViaAc (accessControl newAccessControl : Address) : Res Registry := do
  r.asAccessControl signers accessControl
  return { r with accessControl := some newAccessControl }

def setPausedViaAc (accessControl : Address) (paused : Bool) : Res Registry := do
  r.asAccessControl signers accessControl
  return { r with paused := paused }

def setPoolViaAc (accessControl pool : Address) : Res Registry := do
  r.asAccessControl signers accessControl
  return { r with pool := pool }

def setBorrowRewardBpsViaAc (accessControl : Address) (bps : ℕ) : Res Registry := do
  r.asAccessControl signers accessControl
  require (bps ≤ maxBps) (.error .InvalidBps)
  return { r with borrowRewardBps := bps }

def setDepositRewardBpsViaAc (accessControl : Address) (bps : ℕ) : Res Registry := do
  r.asAccessControl signers accessControl
  require (bps ≤ maxBps) (.error .InvalidBps)
  return { r with depositRewardBps := bps }

end Settings

def register (signers : List Address) (r : Registry) (referee referrer : Address) : Res Registry := do
  requireAuth signers referee
  r.requireNotPaused
  require (referee ≠ referrer) (.error .SelfReferral)
  require (r.referrer referrer ≠ some referee) (.error .ReferralCycle)
  require (r.referrer referee = none) (.error .AlreadyRegistered)
  return { r with referrer := Function.update r.referrer referee (some referrer) }

/-- The first activity of a referee counts for the referrer, once. -/
def activate (r : Registry) (referee referrer : Address) : Res Registry := do
  if r.activated referee = true then return r
  else do
    let newCount ← okOr (fitU 32 (r.referralCount referrer + 1)) .overflow
    return { r with
      activated := Function.update r.activated referee true
      referralCount := Function.update r.referralCount referrer newCount
      topReferrers := updateLeaderboard r.topReferrers referrer newCount }

/-- The reward of an activity is credited to the referrer, and counted for the referee. -/
def credit (r : Registry) (referee referrer token : Address) (reward : ℤ) : Res Registry := do
  let newPending ← okOr (checkedAdd (r.pending referrer token) reward) (.error .RewardOverflow)
  return { r with
    pendingReward := r.pendingReward.set (referrer, token) newPending
    refereeRewardAccrued := Function.update r.refereeRewardAccrued (referee, token)
      (saturatingAdd (r.refereeRewardAccrued (referee, token)) reward) }

/-- `record_activity`: the storage after it, and the reward. -/
def recordActivity (signers : List Address) (r : Registry) (caller referee : Address)
    (kind : ActivityKind) (feeAmount : ℤ) (token : Address) : Res (Registry × ℤ) := do
  requireAuth signers caller
  r.requireNotPaused
  require (caller = r.pool) (.error .Unauthorized)
  match r.referrer referee with
  | none => return (r, 0)
  | some referrer => do
      let r ← activate r referee referrer
      if feeAmount ≤ 0 then return (r, 0)
      else
        let calculatedReward := (saturatingMul feeAmount (r.rewardBps kind)).tdiv bpsDenom
        match r.lifetimeRewardCap token with
        | none => return (r, 0)
        | some cap => do
            let accrued := r.refereeRewardAccrued (referee, token)
            let remaining := max (saturatingSub cap accrued) 0
            let reward := min calculatedReward remaining
            if 0 < reward then do
              let r ← credit r referee referrer token reward
              return (r, reward)
            else return (r, reward)

/-- `claim_rewards` up to the transfer, for the balance that the contract has of the token: the
storage, and what is paid out. -/
def takeRewards (signers : List Address) (r : Registry) (balance : ℤ) (referrer token : Address) :
    Res (Registry × ℤ) := do
  requireAuth signers referrer
  r.requireNotPaused
  let amount := r.pending referrer token
  if amount ≤ 0 then return (r, 0)
  else
    let actualClaimAmount := if balance < amount then balance else amount
    if actualClaimAmount ≤ 0 then return (r, 0)
    else return ({ r with
      pendingReward := r.pendingReward.set (referrer, token) (amount - actualClaimAmount) },
      actualClaimAmount)

end Astera.Referral
