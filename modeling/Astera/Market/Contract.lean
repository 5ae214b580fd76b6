import Astera.Lib.Transition
import Astera.Market.Types

/-!
# The secondary market

The storage of the contract and its writing entrypoints.  The pool is reached through `Host`; it
cannot call back.

A call takes the reentrancy guard, runs and gives it back.  `place_order` holds the guard while it
matches, and `settle_fill` takes it again, so that an order that meets a counterparty traps;
`placeOrderBody` is what stands between the two ends of the guard.

Time-to-live extensions, events, the views and the forecasts are left out.
-/

namespace Astera.Market

open Fallible Machine
open Pool (FundedInvoice ListingSettlement)

variable {W : Type}

structure Host (W : Type) where
  fundedInvoice : W → Address → ℕ → Option FundedInvoice
  coFundShare : W → Address → ℕ → Address → ℕ
  /-- `get_investor_position`: what is available and what is deployed. -/
  investorPosition : W → Address → Address → Address → ℤ × ℤ
  /-- `market_settle_listing`; nothing when the call fails. -/
  settleListing : W → Address → ListingSettlement → Option W

structure State (W : Type) where
  now : ℕ
  world : W
  admin : Address
  poolContract : Address
  paused : Bool := false
  reentrancyGuard : Bool := false
  /-- `LISTING_DATA`. -/
  listings : Store ℕ Listing := ∅
  listingIdsInv : ℕ → List ℕ := fun _ => []
  listingIdsSeller : Address → List ℕ := fun _ => []
  listingCounter : ℕ := 0
  /-- `ORDER_DATA`. -/
  orders : Store ℕ Order := ∅
  orderCounter : ℕ := 0
  orderIdsOwner : Address → List ℕ := fun _ => []
  /-- `BOOK_BIDS` and `BOOK_ASKS`. -/
  book : Place → List ℕ := fun _ => []

def initializeMarket (now : ℕ) (world : W) (admin poolContract : Address) : State W :=
  { now := now, world := world, admin := admin, poolContract := poolContract }

def requireAuth (signers : List Address) (a : Address) : Res Unit := require (a ∈ signers) .auth

namespace State

variable (s : State W)

def requireNotPaused : Res Unit := require (s.paused = false) (.error .ContractPaused)

def nonReentrantStart : Res (State W) := do
  require (s.reentrancyGuard = false) (.error .Reentrancy)
  return { s with reentrancyGuard := true }

def nonReentrantEnd : State W := { s with reentrancyGuard := false }

def saveOrder (o : Order) : State W := { s with orders := s.orders.set o.orderId o }

def indexOrderForOwner (owner : Address) (orderId : ℕ) : State W :=
  { s with
    orderIdsOwner :=
      Function.update s.orderIdsOwner owner (s.orderIdsOwner owner ++ [orderId]) }

def insertIntoBook (o : Order) : State W :=
  { s with book := Function.update s.book o.place (s.book o.place ++ [o.orderId]) }

def removeFromBook (o : Order) : State W :=
  { s with book := Function.update s.book o.place ((s.book o.place).filter fun id => id ≠ o.orderId) }

/-- One turn of the scan of the listings in `available_commitment_capacity`. -/
def commitListing (invoiceId : ℕ) (owner : Address) (kind : ListingKind) (committed id : ℕ) :
    Option ℕ :=
  match s.listings.get id with
  | none => some committed
  | some listing =>
    if listing.invoiceId ≠ invoiceId ∨ listing.seller ≠ owner ∨ listing.kind ≠ kind ∨
        listing.status ≠ .Open then some committed
    else fitU 64 (committed + listing.amountOrBps)

/-- One turn of the scan of the orders in `available_commitment_capacity`. -/
def commitOrder (invoiceId : ℕ) (owner : Address) (kind : ListingKind) (committed id : ℕ) :
    Option ℕ :=
  match s.orders.get id with
  | none => some committed
  | some order =>
    if order.invoiceId ≠ invoiceId ∨ order.owner ≠ owner ∨ order.kind ≠ kind ∨
        order.side ≠ .Ask ∨ ¬ order.status.Live then some committed
    else fitU 64 (committed + order.remaining)

/-- The scan over the given listings and orders. -/
def capacityOver (listingIds orderIds : List ℕ) (invoiceId : ℕ) (owner : Address)
    (kind : ListingKind) (owned : ℕ) : Option ℕ := do
  let inListings ← listingIds.foldlM (s.commitListing invoiceId owner kind) 0
  let committed ← orderIds.foldlM (s.commitOrder invoiceId owner kind) inListings
  if committed ≤ owned then return owned - committed else none

/-- `available_commitment_capacity`: the scan over the listings of the invoice and the asks that rest
on its book. -/
def availableCommitmentCapacity (invoiceId : ℕ) (owner : Address) (kind : ListingKind) (owned : ℕ) :
    Option ℕ :=
  s.capacityOver (s.listingIdsInv invoiceId) (s.book (.Ask, bookKey invoiceId kind)) invoiceId owner
    kind owned

end State

/-- The check that `list_position` and the ask side of `place_order` make: the owner holds what is
offered, and has not committed it elsewhere. -/
def State.checkHolding (h : Host W) (s : State W) (record : FundedInvoice) (owner : Address)
    (invoiceId : ℕ) (kind : ListingKind) (amountOrBps : ℕ) : Res Unit :=
  match kind with
  | .CoFunding => do
      let ownerBps := h.coFundShare s.world s.poolContract invoiceId owner
      let availableBps ← okOr (s.availableCommitmentCapacity invoiceId owner kind ownerBps)
        (.error .InvalidAmount)
      require (truncU 32 amountOrBps ≤ ownerBps ∧ amountOrBps ≤ availableBps)
        (.error .InvalidAmount)
  | .SingleFunded => do
      require (record.coFundingRoundId = none) (.error .InvalidAmount)
      let deployed := (h.investorPosition s.world s.poolContract owner record.token).2
      require ((amountOrBps : ℤ) ≤ deployed ∧ deployed ≠ 0) (.error .InvalidAmount)
      let availableAmount ←
        okOr (s.availableCommitmentCapacity invoiceId owner kind (toU 64 deployed))
          (.error .InvalidAmount)
      require (amountOrBps ≤ availableAmount) (.error .InvalidAmount)

/-! ## Matching -/

def fillTotalPrice (pricePerUnit : ℤ) (fillQty : ℕ) : Option ℤ := do
  let numerator ← checkedMul pricePerUnit fillQty
  let value ← checkedAdd numerator (priceScale - 1)
  checkedDiv value priceScale

def Order.Stale (o : Order) (now : ℕ) : Prop := o.expiresAt ≠ 0 ∧ o.expiresAt ≤ now

instance (o : Order) (now : ℕ) : Decidable (o.Stale now) := inferInstanceAs (Decidable (_ ∧ _))

/-- The price of a candidate is within the limit of a taker of this side. -/
def OrderSide.Within : OrderSide → ℤ → ℤ → Prop
  | .Bid, limit, price => price ≤ limit
  | .Ask, limit, price => limit ≤ price

instance : ∀ (side : OrderSide) (limit price : ℤ), Decidable (side.Within limit price)
  | .Bid, limit, price => inferInstanceAs (Decidable (price ≤ limit))
  | .Ask, limit, price => inferInstanceAs (Decidable (limit ≤ price))

/-- A price is better than another one for a taker of this side. -/
def OrderSide.Improves : OrderSide → ℤ → ℤ → Prop
  | .Bid, price, current => price < current
  | .Ask, price, current => current < price

instance : ∀ (side : OrderSide) (price current : ℤ), Decidable (side.Improves price current)
  | .Bid, price, current => inferInstanceAs (Decidable (price < current))
  | .Ask, price, current => inferInstanceAs (Decidable (current < price))

/-- The test `is_better`: a better price, or the same price and an older id. -/
def Order.Better (candidate current : Order) (side : OrderSide) : Prop :=
  side.Improves candidate.price current.price ∨
    candidate.price = current.price ∧ candidate.orderId < current.orderId

instance (candidate current : Order) (side : OrderSide) : Decidable (candidate.Better current side) :=
  inferInstanceAs (Decidable (_ ∨ _))

/-- What the scan of the opposite side has found: the best candidate and the expired ids. -/
structure Found where
  best : Option Order := none
  expired : List ℕ := []

/-- One turn of the scan of the opposite side. -/
def State.scanCandidate (s : State W) (taker : Order) (excluded : List ℕ) (found : Found) (id : ℕ) :
    Found :=
  if id ∈ excluded then found
  else
    match s.orders.get id with
    | none => found
    | some candidate =>
      if ¬ candidate.status.Live then found
      else if candidate.Stale s.now then { found with expired := found.expired ++ [id] }
      else if ¬ taker.side.Within taker.price candidate.price then found
      else
        match found.best with
        | none => { found with best := some candidate }
        | some current =>
          if candidate.Better current taker.side then { found with best := some candidate }
          else found

/-- An expired order leaves the book. -/
def State.pruneExpired (s : State W) (id : ℕ) : State W :=
  match s.orders.get id with
  | none => s
  | some order =>
    let stale := { order with status := .Expired }
    (s.saveOrder stale).removeFromBook stale

/-- `settle_fill`: the state, and whether the pool settled the fill. -/
def State.settleFill (h : Host W) (s : State W) (settlement : ListingSettlement) :
    Res (State W × Bool) := do
  let s ← s.nonReentrantStart
  match h.settleListing s.world s.poolContract settlement with
  | some world => return ({ s with world := world }.nonReentrantEnd, true)
  | none => return (s.nonReentrantEnd, false)

def Order.filled (maker : Order) (fillQty : ℕ) : Order :=
  let remaining := maker.remaining - fillQty
  { maker with
    remaining := remaining
    status := if remaining = 0 then .Filled else .PartiallyFilled }

def State.fillMaker (s : State W) (maker : Order) : State W :=
  if maker.remaining = 0 then (s.saveOrder maker).removeFromBook maker else s.saveOrder maker

/-- The variables of the loop of `match_order`. -/
structure Pass (W : Type) where
  state : State W
  taker : Order
  excluded : List ℕ := []
  matchesMade : ℕ := 0

/-- The parties of a fill, the buyer first. -/
def parties (taker maker : Order) : Address × Address :=
  match taker.side with
  | .Bid => (taker.owner, maker.owner)
  | .Ask => (maker.owner, taker.owner)

/-- One round of `match_order`: the variables after it, and whether the loop goes on. -/
def matchRound (h : Host W) (p : Pass W) : Res (Pass W × Bool) :=
  let taker := p.taker
  let ids := p.state.book (taker.side.opposite, bookKey taker.invoiceId taker.kind)
  let found := ids.foldl (p.state.scanCandidate taker p.excluded) {}
  let s := found.expired.foldl State.pruneExpired p.state
  match found.best with
  | none => return ({ p with state := s }, false)
  | some maker =>
    let (buyer, seller) := parties taker maker
    if buyer = seller then
      return ({ p with state := s, excluded := p.excluded ++ [maker.orderId] }, true)
    else
      let counted := { p with state := s, matchesMade := p.matchesMade + 1 }
      let fillQty := min taker.remaining maker.remaining
      match fillTotalPrice maker.price fillQty with
      | none => return (counted, false)
      | some totalPrice => do
          let (s, settled) ← s.settleFill h
            { buyer := buyer
              seller := seller
              invoiceId := taker.invoiceId
              isCoFunding := decide (taker.kind = .CoFunding)
              amountOrBps := fillQty
              price := totalPrice }
          if settled then
            return ({ counted with
              state := s.fillMaker (maker.filled fillQty)
              taker := { taker with remaining := taker.remaining - fillQty } }, true)
          else return ({ counted with state := s }, false)

/-- The loop of `match_order`, at most `fuel` rounds of it. -/
def matchLoop (h : Host W) : ℕ → Pass W → Res (Pass W)
  | 0, p => .ok p
  | fuel + 1, p =>
    if 0 < p.taker.remaining ∧ p.matchesMade < maxMatchesPerCall then do
      let (p', more) ← matchRound h p
      if more then matchLoop h fuel p' else return p'
    else .ok p

/-- The rounds that `match_order` can take: one for each order it may exclude and one for each match. -/
def State.matchFuel (s : State W) (taker : Order) : ℕ :=
  (s.book (taker.side.opposite, bookKey taker.invoiceId taker.kind)).length + maxMatchesPerCall

def matchOrder (h : Host W) (s : State W) (taker : Order) : Res (State W × Order) := do
  let p ← matchLoop h (s.matchFuel taker) { state := s, taker := taker }
  return (p.state, p.taker)

/-! ## Entrypoints -/

section Entrypoints

variable (h : Host W) (signers : List Address) (s : State W)

/-- `pause` and `unpause`. -/
def setPaused (admin : Address) (paused : Bool) : Res (State W) := do
  requireAuth signers admin
  require (admin = s.admin) (.error .Unauthorized)
  return { s with paused := paused }

def pause (admin : Address) : Res (State W) := setPaused signers s admin true

def unpause (admin : Address) : Res (State W) := setPaused signers s admin false

def State.newListing (listingId : ℕ) (seller : Address) (invoiceId : ℕ) (token : Address)
    (kind : ListingKind) (amountOrBps : ℕ) (price : ℤ) : Listing where
  listingId := listingId
  invoiceId := invoiceId
  seller := seller
  token := token
  kind := kind
  amountOrBps := amountOrBps
  price := price
  createdAt := s.now
  status := .Open

/-- Store a new listing and index it. -/
def State.addListing (listing : Listing) : State W :=
  { s with
    listings := s.listings.set listing.listingId listing
    listingCounter := listing.listingId
    listingIdsInv :=
      Function.update s.listingIdsInv listing.invoiceId
        (s.listingIdsInv listing.invoiceId ++ [listing.listingId])
    listingIdsSeller :=
      Function.update s.listingIdsSeller listing.seller
        (s.listingIdsSeller listing.seller ++ [listing.listingId]) }

/-- `list_position`.  The cap counts the listings of the invoice that are open and those that are
closed. -/
def listPosition (seller : Address) (invoiceId : ℕ) (kind : ListingKind) (amountOrBps : ℕ)
    (price : ℤ) : Res (State W × ℕ) := do
  requireAuth signers seller
  s.requireNotPaused
  require (amountOrBps ≠ 0) (.error .ZeroAmount)
  require (0 < price) (.error .InvalidAmount)
  let record ← okOr (h.fundedInvoice s.world s.poolContract invoiceId) (.error .InvalidAmount)
  s.checkHolding h record seller invoiceId kind amountOrBps
  require ((s.listingIdsInv invoiceId).length < maxListingsPerInvoice) (.error .TooManyListings)
  let listingId ← okOr (fitU 64 (s.listingCounter + 1)) (.error .InvalidAmount)
  return (s.addListing
    (s.newListing listingId seller invoiceId record.token kind amountOrBps price), listingId)

/-- Store a listing under another status. -/
def State.closeListing (listingId : ℕ) (listing : Listing) (status : ListingStatus) : State W :=
  { s with listings := s.listings.set listingId { listing with status := status } }

def cancelListing (seller : Address) (listingId : ℕ) : Res (State W) := do
  requireAuth signers seller
  s.requireNotPaused
  let listing ← okOr (s.listings.get listingId) (.error .ListingNotFound)
  require (listing.seller = seller) (.error .ListingNotSeller)
  require (listing.status = .Open) (.error .ListingNotOpen)
  return s.closeListing listingId listing .Cancelled

def buyListing (buyer : Address) (listingId : ℕ) : Res (State W) := do
  requireAuth signers buyer
  s.requireNotPaused
  let s ← s.nonReentrantStart
  let listing ← okOr (s.listings.get listingId) (.error .ListingNotFound)
  require (listing.status = .Open) (.error .ListingNotOpen)
  require (listing.seller ≠ buyer) (.error .Unauthorized)
  let world ← okOr
    (h.settleListing s.world s.poolContract
      { buyer := buyer
        seller := listing.seller
        invoiceId := listing.invoiceId
        isCoFunding := decide (listing.kind = .CoFunding)
        amountOrBps := listing.amountOrBps
        price := listing.price }) (.error .SettlementFailed)
  return ({ s with world := world }.closeListing listingId listing .Filled).nonReentrantEnd

def State.newOrder (orderId : ℕ) (owner : Address) (token : Address) (request : PlaceOrderRequest) :
    Order where
  orderId := orderId
  invoiceId := request.invoiceId
  owner := owner
  token := token
  kind := request.kind
  side := request.side
  price := request.price
  amountOrBps := request.amountOrBps
  remaining := request.amountOrBps
  createdAt := s.now
  expiresAt := request.expiresAt
  status := .Open

/-- An order after its matching, with the status that its remainder gives. -/
def Order.placed (o : Order) : Order :=
  { o with
    status :=
      if o.remaining = 0 then .Filled
      else if o.remaining = o.amountOrBps then .Open
      else .PartiallyFilled }

/-- Store an order after its matching: what remains of it rests on the book. -/
def State.restOrder (o : Order) : State W :=
  let booked := if 0 < o.remaining then s.insertIntoBook o else s
  (booked.saveOrder o).indexOrderForOwner o.owner o.orderId

/-- The body of `place_order`, between the two ends of its guard. -/
def placeOrderBody (owner : Address) (request : PlaceOrderRequest) : Res (State W × ℕ) := do
  require (request.amountOrBps ≠ 0) (.error .ZeroAmount)
  require (0 < request.price) (.error .InvalidAmount)
  require (¬ (request.expiresAt ≠ 0 ∧ request.expiresAt ≤ s.now)) (.error .InvalidExpiry)
  require ((s.book (request.side, bookKey request.invoiceId request.kind)).length <
    maxOrdersPerBookSide) (.error .TooManyOrders)
  let record ← okOr (h.fundedInvoice s.world s.poolContract request.invoiceId)
    (.error .InvalidAmount)
  if request.side = .Ask then
    s.checkHolding h record owner request.invoiceId request.kind request.amountOrBps
  let orderId ← okOr (fitU 64 (s.orderCounter + 1)) (.error .InvalidAmount)
  let numbered := { s with orderCounter := orderId }
  let (matched, taker) ← matchOrder h numbered (s.newOrder orderId owner record.token request)
  return (matched.restOrder taker.placed, orderId)

def placeOrder (owner : Address) (request : PlaceOrderRequest) : Res (State W × ℕ) := do
  requireAuth signers owner
  s.requireNotPaused
  let s ← s.nonReentrantStart
  let (s', orderId) ← placeOrderBody h s owner request
  return (s'.nonReentrantEnd, orderId)

def cancelOrder (owner : Address) (orderId : ℕ) : Res (State W) := do
  requireAuth signers owner
  s.requireNotPaused
  let order ← okOr (s.orders.get orderId) (.error .OrderNotFound)
  require (order.owner = owner) (.error .OrderNotOwner)
  require order.status.Live (.error .OrderNotOpen)
  let cancelled := { order with status := .Cancelled }
  return (s.saveOrder cancelled).removeFromBook cancelled

def expireOrder (orderId : ℕ) : Res (State W) := do
  s.requireNotPaused
  let order ← okOr (s.orders.get orderId) (.error .OrderNotFound)
  require order.status.Live (.error .OrderNotOpen)
  require (order.Stale s.now) (.error .InvalidExpiry)
  let expired := { order with status := .Expired }
  return (s.saveOrder expired).removeFromBook expired

end Entrypoints

/-! ## The contract as a machine

`Call` lists the entrypoints, the passing of time and moves of the other contracts; a run is a run
of `exec h` (`Transition.Reaches`).  `placeOrder` traps when the order meets a counterparty.  So
that the runs contain matching all the same, `matchOrder` is the same call with the guard left to
`settle_fill`.
-/

inductive Call (W : Type)
  | listPosition (seller : Address) (invoiceId : ℕ) (kind : ListingKind) (amountOrBps : ℕ)
      (price : ℤ)
  | cancelListing (seller : Address) (listingId : ℕ)
  | buyListing (buyer : Address) (listingId : ℕ)
  | placeOrder (owner : Address) (request : PlaceOrderRequest)
  /-- `place_order`, with `match_order` entered while the guard is free. -/
  | matchOrder (owner : Address) (request : PlaceOrderRequest)
  | cancelOrder (owner : Address) (orderId : ℕ)
  | expireOrder (orderId : ℕ)
  | pause (admin : Address)
  | unpause (admin : Address)
  | advance (now : ℕ)
  | elsewhere (world : W)

structure Tx (W : Type) where
  signers : List Address
  call : Call W

/-- `place_order` without its guard. -/
def placeOrderUnguarded (h : Host W) (signers : List Address) (s : State W) (owner : Address)
    (request : PlaceOrderRequest) : Res (State W × ℕ) := do
  requireAuth signers owner
  s.requireNotPaused
  placeOrderBody h s owner request

def advance (s : State W) (now : ℕ) : Res (State W) := do
  require (s.now ≤ now ∧ now < 2 ^ 64) .overflow
  return { s with now := now }

def exec (h : Host W) (s : State W) (tx : Tx W) : Res (State W) :=
  let signers := tx.signers
  match tx.call with
  | .listPosition seller invoiceId kind amountOrBps price =>
    (listPosition h signers s seller invoiceId kind amountOrBps price).map Prod.fst
  | .cancelListing seller listingId => cancelListing signers s seller listingId
  | .buyListing buyer listingId => buyListing h signers s buyer listingId
  | .placeOrder owner request => (placeOrder h signers s owner request).map Prod.fst
  | .matchOrder owner request => (placeOrderUnguarded h signers s owner request).map Prod.fst
  | .cancelOrder owner orderId => cancelOrder signers s owner orderId
  | .expireOrder orderId => expireOrder s orderId
  | .pause admin => pause signers s admin
  | .unpause admin => unpause signers s admin
  | .advance now => advance s now
  | .elsewhere world => .ok { s with world := world }

/-! ## A sample market -/

/-- Every invoice is funded in token 2 by a single pool, account 5 has 100 of it deployed, and every
settlement succeeds. -/
def sampleHost : Host Unit where
  fundedInvoice := fun _ _ invoiceId => some
    { invoiceId := invoiceId, sme := 7, token := 2, principal := 100, fundedAt := 0, factoringFee := 0,
      dueDate := 5000, repaidAmount := 0, coFundingRoundId := none, lockedYieldBps := 0 }
  coFundShare := fun _ _ _ _ => 0
  investorPosition := fun _ _ investor _ => (0, if investor = 5 then 100 else 0)
  settleListing := fun _ _ _ => some ()

/-- The contract after `initialize` with the admin 1 and the pool 3. -/
def sampleStart : State Unit := initializeMarket 1000 () 1 3

end Astera.Market
