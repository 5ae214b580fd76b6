import Astera.Pool.Types

/-!
# Data of the secondary market

The listings and limit orders, the error codes and constants, with the names of the contract.  The
pool's records that the contract mirrors are those of the pool.
-/

namespace Astera.Market

inductive MarketError
  | AlreadyInitialized | NotInitialized | Unauthorized | ContractPaused | ZeroAmount | InvalidAmount
  | ListingNotFound | ListingNotOpen | ListingNotSeller | TooManyListings | SettlementFailed
  | OrderNotFound | OrderNotOpen | OrderNotOwner | TooManyOrders | InvalidExpiry | Reentrancy
  deriving DecidableEq, Repr

inductive Fault
  | error (e : MarketError)
  | auth
  /-- A time that is no `u64`. -/
  | overflow
  deriving DecidableEq, Repr

abbrev Res := Except Fault

def maxListingsPerInvoice : ℕ := 50

def maxOrdersPerBookSide : ℕ := 30

def maxMatchesPerCall : ℕ := 10

def priceScale : ℤ := 10000000

inductive ListingStatus
  | Open | Filled | Cancelled
  deriving DecidableEq, Repr

/-- `ListingKind`: basis points of a co-funding share, or an amount of deployed principal. -/
inductive ListingKind
  | CoFunding | SingleFunded
  deriving DecidableEq, Repr

structure Listing where
  listingId : ℕ
  invoiceId : ℕ
  seller : Address
  token : Address
  kind : ListingKind
  amountOrBps : ℕ
  price : ℤ
  createdAt : ℕ
  status : ListingStatus
  deriving DecidableEq, Repr

/-! ## Orders -/

inductive OrderSide
  | Bid | Ask
  deriving DecidableEq, Repr

inductive OrderStatus
  | Open | PartiallyFilled | Filled | Cancelled | Expired
  deriving DecidableEq, Repr

structure Order where
  orderId : ℕ
  invoiceId : ℕ
  owner : Address
  token : Address
  kind : ListingKind
  side : OrderSide
  price : ℤ
  amountOrBps : ℕ
  remaining : ℕ
  createdAt : ℕ
  expiresAt : ℕ
  status : OrderStatus
  deriving DecidableEq, Repr

structure PlaceOrderRequest where
  invoiceId : ℕ
  kind : ListingKind
  side : OrderSide
  amountOrBps : ℕ
  price : ℤ
  expiresAt : ℕ
  deriving DecidableEq, Repr

def OrderSide.opposite : OrderSide → OrderSide
  | .Bid => .Ask
  | .Ask => .Bid

/-- The status of an order that can still trade. -/
def OrderStatus.Live (status : OrderStatus) : Prop := status = .Open ∨ status = .PartiallyFilled

instance (status : OrderStatus) : Decidable status.Live := inferInstanceAs (Decidable (_ ∨ _))

def bookKey (invoiceId : ℕ) (kind : ListingKind) : ℕ :=
  let kindBit := match kind with
    | .CoFunding => 0
    | .SingleFunded => 1
  min (min (invoiceId * 2) (2 ^ 64 - 1) + kindBit) (2 ^ 64 - 1)

/-- The place of an order: the map that `book_side_symbol` names, and its key. -/
abbrev Place := OrderSide × ℕ

def Order.place (o : Order) : Place := (o.side, bookKey o.invoiceId o.kind)

end Astera.Market
