import Astera.Pool.Types

/-!
# Data of the auction contract

The sales and the auctions, the error codes and the constants, with the names of the contract.  The
pool's records that the contract mirrors are those of the pool.
-/

namespace Astera.Auction

inductive AuctionError
  | AlreadyInitialized | NotInitialized | Unauthorized | RoundNotFound | RoundNotOpen
  | RoundAlreadySettled | BidWindowExpired | InvoiceNotVerified | InvoiceAlreadyBid | DiscountTooHigh
  | NoBids | InsufficientLiquidity | AllocationOverflow | RoundNotClearing | PoolCallFailed
  | InvalidSaleParams | SaleNotFound | SaleNotOpen | SaleExpired | SaleNotExpired | DepositNotFound
  | InvoiceNotFound | CollateralAlreadySettled | OraclePriceUnavailable | NotAtRisk
  | GracePeriodNotElapsed | InvalidRiskConfig | AmountOverflow | AuctionNotFound | AuctionNotOpen
  | AuctionExpired | AuctionNotExpired | AuctionAlreadySettled | BidAmountTooLow | BidEscrowFailed
  | BidWithdrawFailed | UnauthorizedSettlement
  deriving DecidableEq, Repr

inductive Fault
  | error (e : AuctionError)
  | auth
  | overflow
  | token
  /-- The pool's answer is not of the expected type. -/
  | decode
  | pool (e : Pool.Fault)
  deriving DecidableEq

abbrev Res := Except Fault

/-! ## Constants -/

def bpsDenom : ℤ := 10000

def defaultDangerBps : ℕ := 12000

def maxDangerBps : ℕ := 30000

def defaultGracePeriodSecs : ℕ := 259200

def maxGracePeriodSecs : ℕ := 2592000

inductive SaleStatus
  | Open | Settled | Expired | Cancelled
  deriving DecidableEq, Repr

structure CollateralSale where
  saleId : ℕ
  seller : Address
  token : Address
  amount : ℤ
  proceedsToken : Address
  proceedsRecipient : Address
  startPrice : ℤ
  floorPrice : ℤ
  openedAt : ℕ
  durationSecs : ℕ
  status : SaleStatus
  taker : Option Address
  settledPrice : Option ℤ
  deriving DecidableEq, Repr

structure CollateralSaleParams where
  seller : Address
  token : Address
  amount : ℤ
  proceedsToken : Address
  proceedsRecipient : Address
  startPrice : ℤ
  floorPrice : ℤ
  durationSecs : ℕ
  deriving DecidableEq, Repr

inductive AuctionStatus
  | Open | Clearing | Settled | Cancelled
  deriving DecidableEq, Repr

structure InvoiceAuction where
  auctionId : ℕ
  invoiceId : ℕ
  sme : Address
  token : Address
  principal : ℤ
  targetDiscountBps : ℕ
  openedAt : ℕ
  durationSecs : ℕ
  status : AuctionStatus
  winningBid : Option Address
  winningDiscountBps : Option ℕ
  deriving DecidableEq, Repr

structure InvestorBid where
  auctionId : ℕ
  investor : Address
  bidAmount : ℤ
  discountBps : ℕ
  deriving DecidableEq, Repr

structure CollateralRiskConfig where
  dangerBps : ℕ
  gracePeriodSecs : ℕ
  deriving DecidableEq, Repr

def windowEnd (openedAt durationSecs : ℕ) : ℕ := min (openedAt + durationSecs) (2 ^ 64 - 1)

end Astera.Auction
