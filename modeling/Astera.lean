import Astera.Market.Forecast
import Astera.Messages.Reception
import Astera.OracleService.VerificationQueue
import Astera.Proof.AdvanceRate
import Astera.Proof.Allowances
import Astera.Proof.ArbitrationGate
import Astera.Proof.AuctionClearing
import Astera.Proof.AuctionCustody
import Astera.Proof.AuctionFairness
import Astera.Proof.Blocks
import Astera.Proof.CommitReveal
import Astera.Proof.Commitments
import Astera.Proof.ComplianceLists
import Astera.Proof.Concentration
import Astera.Proof.Consensus
import Astera.Proof.ConsensusDelivery
import Astera.Proof.Coverage
import Astera.Proof.CoveredExposure
import Astera.Proof.CreationLimit
import Astera.Proof.CurrentQuorum
import Astera.Proof.DebtorExposure
import Astera.Proof.Delivery
import Astera.Proof.DerivedTables
import Astera.Proof.DueDates
import Astera.Proof.DutchSales
import Astera.Proof.ExecutionTimelock
import Astera.Proof.Expiry
import Astera.Proof.Finality
import Astera.Proof.FundingAgreement
import Astera.Proof.GovernanceTimelock
import Astera.Proof.Interest
import Astera.Proof.InvoiceCounts
import Astera.Proof.InvoiceIndexes
import Astera.Proof.InvoiceLifecycle
import Astera.Proof.JurorBonds
import Astera.Proof.JurorStakes
import Astera.Proof.Leaderboard
import Astera.Proof.LimitPrices
import Astera.Proof.Liquidity
import Astera.Proof.ListingCap
import Astera.Proof.LiveRatios
import Astera.Proof.MirroredAnswers
import Astera.Proof.OracleStakes
import Astera.Proof.Parameters
import Astera.Proof.PariPassu
import Astera.Proof.PauseRoles
import Astera.Proof.Payouts
import Astera.Proof.Positions
import Astera.Proof.PremiumPricing
import Astera.Proof.ProposalLifecycle
import Astera.Proof.QueueConservation
import Astera.Proof.QueueErrors
import Astera.Proof.QueuePriority
import Astera.Proof.QueueSafety
import Astera.Proof.Rates
import Astera.Proof.Reorgs
import Astera.Proof.Replays
import Astera.Proof.Reserves
import Astera.Proof.Revenue
import Astera.Proof.RoleConfigs
import Astera.Proof.RoundExits
import Astera.Proof.Scores
import Astera.Proof.ScreenerTimelock
import Astera.Proof.SharePrice
import Astera.Proof.SimulationCache
import Astera.Proof.SmeExposure
import Astera.Proof.SmeRegistry
import Astera.Proof.Solvency
import Astera.Proof.SplitFees
import Astera.Proof.Timelock
import Astera.Proof.TokenRemoval
import Astera.Proof.TrancheArithmetic
import Astera.Proof.Tranches
import Astera.Proof.Verdicts
import Astera.Proof.VoteWeight
import Astera.Proof.Votes
import Astera.Proof.WithdrawalPaths
import Astera.Proof.Yield
import Astera.Proof.YieldPolicy
