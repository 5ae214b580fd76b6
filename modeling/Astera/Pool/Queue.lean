import Astera.Pool.State

/-!
# Settling the withdrawal queue

`process_withdrawal_queue` runs inside the transactions of other users.  Two callers discard its
`Err` and commit what it did so far, so an early stop carries its state (`Halt.err`); a trap loses
everything.
-/

namespace Astera.Pool

open Fallible Machine

variable {W : Type}

/-- Why the pass over the queue stopped before its end. -/
inductive Halt (W : Type)
  | trap (t : Trap)
  | err (e : PoolError) (reached : State W)

/-- A fallible step taken in state `s`. -/
def haltAt {α : Type} (s : State W) : Res α → Except (Halt W) α
  | .ok a => .ok a
  | .error (.err e) => .error (.err e s)
  | .error (.trap t) => .error (.trap t)

/-- The variables of the pass: the state, the local copy of the totals, what is left to pay out,
and the requests that stay queued. -/
structure Drain (W : Type) where
  state : State W
  tt : PoolTokenTotals
  remainingAmount : ℤ
  remainingQueue : List WithdrawalRequest

/-- Payout and shares to burn for a request of `shares` in a cohort of `cohortShares` that shares
`budget`, at the valuation taken when the pass began. -/
def requestPayout (budget cohortShares valuation totalShares shares : ℤ) : Res (ℤ × ℤ) := do
  let product ← okOr (checkedMul budget shares) overflowErr
  let availableForRequest ← okOr (checkedDiv product cohortShares) overflowErr
  let requestAmount ← withdrawalAmount shares valuation totalShares
  let payout := if requestAmount < availableForRequest then requestAmount else availableForRequest
  if payout ≤ 0 then return (payout, 0)
  else if payout = requestAmount then return (payout, shares)
  else do
    let product ← okOr (checkedMul payout shares) overflowErr
    let sharesToBurn ← okOr (checkedDiv product requestAmount) overflowErr
    return (payout, sharesToBurn)

def settleQueuedWithdrawal (h : Host W) (signers : List Address) (s : State W)
    (token share : Address) (request : WithdrawalRequest) (sharesToBurn amount : ℤ) :
    Res (State W) := do
  let s ← s.burn h signers share request.investor sharesToBurn
  s.transfer token h.self request.investor amount

/-- What stays of a request after `sharesToBurn` of its shares were settled. -/
def leftover (request : WithdrawalRequest) (sharesToBurn : ℤ) : List WithdrawalRequest :=
  if sharesToBurn = request.shares then []
  else [{ request with shares := request.shares - sharesToBurn }]

/-- One iteration of the cohort loop. -/
def settleRequest (h : Host W) (signers : List Address) (token share : Address)
    (valuation totalShares budget cohortShares : ℤ) (d : Drain W) (request : WithdrawalRequest) :
    Except (Halt W) (Drain W) := do
  let (payout, sharesToBurn) ← haltAt d.state
    (requestPayout budget cohortShares valuation totalShares request.shares)
  if payout ≤ 0 then return { d with remainingQueue := d.remainingQueue ++ [request] }
  else
    let s ← haltAt d.state
      (settleQueuedWithdrawal h signers d.state token share request sharesToBurn payout)
    -- from here on a failure leaves the burn and the payment behind
    let poolValue ← haltAt s (okOr (checkedSub d.tt.poolValue payout) overflowErr)
    let remainingAmount ← haltAt s (okOr (checkedSub d.remainingAmount payout) overflowErr)
    let _ ← haltAt s (okOr (checkedSub request.shares sharesToBurn) overflowErr)
    let left := leftover request sharesToBurn
    return {
      state := { s with
        withdrawalRequests :=
          set₂ s.withdrawalRequests request.investor request.requestId left.head? }
      tt := { d.tt with poolValue := poolValue }
      remainingAmount := remainingAmount
      remainingQueue := d.remainingQueue ++ left }

def sumShares (requests : List WithdrawalRequest) : Res ℤ :=
  requests.foldlM (fun acc r => okOr (checkedAdd acc r.shares) overflowErr) 0

/-- The earliest request time among `first` and `rest`. -/
def oldestRequestedAt (first : WithdrawalRequest) (rest : List WithdrawalRequest) : ℕ :=
  rest.foldl (fun oldest r => min oldest r.requestedAt) first.requestedAt

/-- The `while` loop over the pending requests: requests with the same time form one cohort, and
older cohorts are served first.  Every iteration removes a cohort, so `pending.length` bounds their
number. -/
def drainCohorts (h : Host W) (signers : List Address) (token share : Address)
    (valuation totalShares : ℤ) :
    ℕ → Drain W → List WithdrawalRequest → Except (Halt W) (Drain W)
  | fuel + 1, d, first :: rest => do
      let oldest := oldestRequestedAt first rest
      let cohort := (first :: rest).filter fun r => r.requestedAt = oldest
      let younger := (first :: rest).filter fun r => r.requestedAt ≠ oldest
      let cohortShares ← haltAt d.state (sumShares cohort)
      let d ← cohort.foldlM
        (settleRequest h signers token share valuation totalShares d.remainingAmount cohortShares) d
      drainCohorts h signers token share valuation totalShares fuel d younger
  | _, d, _ => return d

/-- Whether a queued request has waited for the configured time. -/
def isAged (maxAgeSecs now : ℕ) (r : WithdrawalRequest) : Bool :=
  decide (0 < maxAgeSecs ∧ min (r.requestedAt + maxAgeSecs) (2 ^ 64 - 1) ≤ now)

/-- The requests a pass serves and those it leaves queued: the aged ones first, and all of them
when no aged request holds shares. -/
def splitQueue (maxAgeSecs now : ℕ) (queue : List WithdrawalRequest) :
    Res (List WithdrawalRequest × List WithdrawalRequest) := do
  let dueByAge := queue.filter (isAged maxAgeSecs now)
  let regular := queue.filter fun r => !isAged maxAgeSecs now r
  let totalDueShares ← sumShares dueByAge
  if totalDueShares = 0 then do
    let _ ← sumShares regular
    return (regular, [])
  else return (dueByAge, regular)

/-- The pass over the queue once there is something to pay: serve the requests and write back the
queue and the totals. -/
def drainQueue (h : Host W) (signers : List Address) (s : State W) (token share : Address)
    (remainingAmount : ℤ) : Except (Halt W) (State W) := do
  let tt := s.tt token
  let maxAgeSecs := s.params.config.maxWithdrawalQueueAgeDays * secsPerDay
  let (pending, regular) ← haltAt s (splitQueue maxAgeSecs s.now (s.queue token))
  let d ← drainCohorts h signers token share tt.poolValue (s.supply share) pending.length
    ⟨s, tt, remainingAmount, []⟩ pending
  return { d.state with
    queue := Function.update d.state.queue token (d.remainingQueue ++ regular)
    totals := Function.update d.state.totals token (some d.tt) }

/-- The early exits of `process_withdrawal_queue`, and the pass. -/
def queuePass (h : Host W) (signers : List Address) (s : State W) (token : Address)
    (availableAmount : ℤ) : Except (Halt W) (State W) := do
  if s.queue token = [] then return s
  else
    let liquid ← haltAt s (availableLiquidity (s.tt token))
    let remainingAmount := if availableAmount < liquid then availableAmount else liquid
    if remainingAmount ≤ 0 then return s
    else
      let share ← haltAt s (s.shareTokenOf token)
      if s.supply share ≤ 0 then return s
      else drainQueue h signers s token share remainingAmount

/-- `process_withdrawal_queue`: the state it leaves, and the error it returned in it. -/
def processWithdrawalQueue (h : Host W) (signers : List Address) (s : State W) (token : Address)
    (availableAmount : ℤ) : Res (State W × Option PoolError) :=
  match queuePass h signers s token availableAmount with
  | .ok s' => .ok (s', none)
  | .error (.err e s') => .ok (s', some e)
  | .error (.trap t) => .error (.trap t)

end Astera.Pool
