import Astera.Auction.System
import Astera.Pool.Payers

/-!
# What the auction contract holds and owes

The contract owes the amounts of its open sales and the escrow of its auctions; `surplus` is what it
holds beyond that.  A call changes the surplus only by what it strands: an expired sale of its own
that it returns to itself, and the price of a sale that is paid to the contract.
-/

namespace Astera.Auction

open Fallible Machine Transition

variable {W : Type}
variable {sale sale' : CollateralSale} {auction : InvoiceAuction} {auctionId id saleId : ℕ}

/-! ## Well-formed storage -/

/-- The ids that are taken are below the next one, sales and escrow entries are positive, and escrow
belongs to auctions that exist. -/
structure Sound (s : State W) : Prop where
  sale : ∀ id sale, s.sales.get id = some sale → id < s.nextSaleId ∧ 0 < sale.amount
  auction : ∀ id auction, s.auctions.get id = some auction → id < s.nextAuctionId
  escrow : ∀ key amount, s.escrow.get key = some amount →
    0 < amount ∧ ∃ auction, s.auctions.get key.2 = some auction

theorem sound_initial (ledger : Pool.State W) (admin : Address) :
    Sound (initializeAuction ledger admin) := by
  refine ⟨fun id sale hget => ?_, fun id auction hget => ?_, fun key amount hget => ?_⟩
  · simp [initializeAuction] at hget
  · simp [initializeAuction] at hget
  · simp [initializeAuction] at hget

section Keeping

variable {h : Host W} {s s' : State W}

theorem Sound.congr (hs : Sound s) (hsales : s'.sales = s.sales)
    (hsaleId : s'.nextSaleId = s.nextSaleId) (hauctions : s'.auctions = s.auctions)
    (hauctionId : s'.nextAuctionId = s.nextAuctionId) (hescrow : s'.escrow = s.escrow) :
    Sound s' := by
  refine ⟨?_, ?_, ?_⟩
  · rw [hsales, hsaleId]
    exact hs.sale
  · rw [hauctions, hauctionId]
    exact hs.auction
  · rw [hescrow, hauctions]
    exact hs.escrow

theorem Sound.setSale (hs : Sound s) (hget : s.sales.get saleId = some sale)
    (hamount : sale'.amount = sale.amount) :
    Sound (s.setSale saleId sale') := by
  refine ⟨Store.forall_get_set hs.sale ?_, hs.auction, hs.escrow⟩
  rw [hamount]
  exact hs.sale saleId sale hget

theorem Sound.opened (hs : Sound s) {params : CollateralSaleParams} (hopened : Opened h s params s') :
    Sound s' := by
  rw [hopened.opened]
  refine ⟨?_, hs.auction, hs.escrow⟩
  have hold : ∀ id sale, s.sales.get id = some sale → id < s.nextSaleId + 1 ∧ 0 < sale.amount :=
    fun id sale hget => ⟨Nat.lt_succ_of_lt (hs.sale id sale hget).1, (hs.sale id sale hget).2⟩
  exact Store.forall_get_set hold ⟨Nat.lt_succ_self _, hopened.amount⟩

theorem exists_auction_set {id id' : ℕ} {auction' : InvoiceAuction}
    (hget : ∃ auction, s.auctions.get id = some auction) :
    ∃ auction, (s.auctions.set id' auction').get id = some auction := by
  rw [Store.get_set]
  split_ifs
  · exact ⟨auction', rfl⟩
  · exact hget

theorem Sound.setAuction (hs : Sound s) {next : ℕ} (hid : id < next)
    (hnext : s.nextAuctionId ≤ next) :
    Sound { s.setAuction id auction with nextAuctionId := next } := by
  refine ⟨hs.sale, ?_, fun key amount hget => ?_⟩
  · exact Store.forall_get_set (fun i a hget => (hs.auction i a hget).trans_le hnext) hid
  · obtain ⟨hpos, hauction⟩ := hs.escrow key amount hget
    exact ⟨hpos, exists_auction_set hauction⟩

theorem Sound.bid (hs : Sound s) {bid : InvestorBid}
    (hget : s.auctions.get bid.auctionId = some auction) (hpos : 0 < bid.bidAmount) :
    Sound (s.bid h auction bid) := by
  refine ⟨hs.sale, hs.auction, Store.forall_get_set hs.escrow ⟨?_, auction, hget⟩⟩
  have hexisting : 0 ≤ (s.escrow.get (bid.investor, bid.auctionId)).getD 0 := by
    cases hescrow : s.escrow.get (bid.investor, bid.auctionId) with
    | none => exact le_rfl
    | some amount => exact (hs.escrow _ _ hescrow).1.le
  omega

theorem Sound.withdrawn (hs : Sound s) {token investor : Address} {escrowed : ℤ} :
    Sound (s.withdrawn h token investor auctionId escrowed) :=
  ⟨hs.sale, hs.auction, fun key amount hget => hs.escrow key amount (Store.get_of_get_remove hget)⟩

theorem exec_sound {tx : Tx h} (hs : Sound s) (hx : exec h s tx = .ok s') : Sound s' := by
  cases exec_effect hx with
  | opened hcall hauth hopened => exact hs.opened hopened
  | @taken taker saleId sale price hcall hauth hget hopen hprice hnn =>
    have hset : Sound (s.setSale saleId { sale with
        status := .Settled, taker := some taker, settledPrice := some price }) :=
      hs.setSale hget rfl
    exact hset.congr rfl rfl rfl rfl rfl
  | @reclaimed caller saleId sale hcall hget hopen =>
    have hset : Sound (s.setSale saleId { sale with status := .Expired }) := hs.setSale hget rfl
    exact hset.congr rfl rfl rfl rfl rfl
  | @cancelled saleId sale hcall hauth hget hopen =>
    have hset : Sound (s.setSale saleId { sale with status := .Cancelled }) := hs.setSale hget rfl
    exact hset.congr rfl rfl rfl rfl rfl
  | auctioned hcall => exact hs.setAuction (Nat.lt_succ_self _) (Nat.le_succ _)
  | bade hcall hauth hget hopen hpos hdiscount => exact hs.bid hget hpos
  | withdrew hcall hauth hget hclosed hescrow hloser => exact hs.withdrawn
  | settled hcall hget hopen hbest => exact hs.setAuction (hs.auction _ _ hget) le_rfl
  | expired hcall hget hopen => exact hs.setAuction (hs.auction _ _ hget) le_rfl
  | configured admin riskConfig hcall => exact hs.congr rfl rfl rfl rfl rfl
  | flagged hcall hresult => exact hs.congr rfl rfl rfl rfl rfl
  | cleared hcall => exact hs.congr rfl rfl rfl rfl rfl
  | seized hcall hresult hsince hgrace hseized =>
    obtain ⟨deposit, funded, ledger, startPrice, -, -, -, hopened⟩ := hseized.seized
    have hstart : Sound { s with ledger := ledger } := hs.congr rfl rfl rfl rfl rfl
    exact (hstart.opened hopened).congr rfl rfl rfl rfl rfl
  | pool hcall hmem hexec => exact hs.congr rfl rfl rfl rfl rfl

end Keeping

/-! ## Holdings and debts -/

def CollateralSale.consigned (sale : CollateralSale) (token : Address) : ℤ :=
  if sale.status = .Open ∧ sale.token = token then sale.amount else 0

namespace State

def balance (h : Host W) (s : State W) (token : Address) : ℤ := s.ledger.cash token h.self

def onSale (s : State W) (token : Address) : ℤ := s.sales.total fun _ sale => sale.consigned token

def auctionToken (s : State W) (auctionId : ℕ) : Option Address :=
  (s.auctions.get auctionId).map InvoiceAuction.token

def escrowed (s : State W) (token : Address) : ℤ :=
  s.escrow.total fun key amount => if s.auctionToken key.2 = some token then amount else 0

def owed (s : State W) (token : Address) : ℤ := s.onSale token + s.escrowed token

/-- What the contract holds beyond what it owes. -/
def surplus (h : Host W) (s : State W) (token : Address) : ℤ := s.balance h token - s.owed token

end State

section Surplus

variable {h : Host W} {s s' : State W}

theorem balance_moved (token sender receiver : Address) (amount : ℤ) (t : Address) :
    (s.moved token sender receiver amount).balance h t =
      s.balance h t - (if t = token ∧ h.self = sender then amount else 0) +
        (if t = token ∧ h.self = receiver then amount else 0) :=
  Pool.State.moveCash_apply _ _ _ _ _ _ _

theorem onSale_setSale (hget : s.sales.get saleId = some sale) (t : Address) :
    (s.setSale saleId sale').onSale t =
      s.onSale t - sale.consigned t + sale'.consigned t := by
  unfold State.onSale State.setSale
  rw [Store.total_set, Store.part_of_get hget]

theorem onSale_close (hget : s.sales.get saleId = some sale) (hopen : sale.status = .Open)
    (hclosed : sale'.status ≠ .Open) (t : Address) :
    (s.setSale saleId sale').onSale t = s.onSale t - if t = sale.token then sale.amount else 0 := by
  have hnew : sale'.consigned t = 0 := if_neg fun hand => hclosed hand.1
  have hold : sale.consigned t = if t = sale.token then sale.amount else 0 := by
    simp only [CollateralSale.consigned, hopen, true_and, eq_comm]
  rw [onSale_setSale hget, hnew, hold, add_zero]

theorem surplus_of_escrowed {t : Address} (hescrow : s'.escrowed t = s.escrowed t) :
    s'.surplus h t = s.surplus h t + (s'.balance h t - s.balance h t) -
      (s'.onSale t - s.onSale t) := by
  unfold State.surplus State.owed
  rw [hescrow]
  ring

theorem surplus_opened (hs : Sound s) {params : CollateralSaleParams}
    (hopened : Opened h s params s') (t : Address) :
    s'.surplus h t = s.surplus h t -
      if t = params.token ∧ h.self = params.seller then params.amount else 0 := by
  have hfresh : s.sales.get s.nextSaleId = none := by
    cases hget : s.sales.get s.nextSaleId with
    | none => rfl
    | some sale => exact absurd (hs.sale _ _ hget).1 (lt_irrefl _)
  have hsale : s'.onSale t = s.onSale t + if t = params.token then params.amount else 0 := by
    rw [hopened.opened]
    unfold State.onSale State.setSale
    dsimp only [State.moved]
    rw [Store.total_set, Store.part_of_get_none hfresh, sub_zero]
    congr 1
    simp only [CollateralSale.consigned, State.newSale, true_and, eq_comm]
  have hbalance : s'.balance h t = s.balance h t -
      (if t = params.token ∧ h.self = params.seller then params.amount else 0) +
        if t = params.token then params.amount else 0 := by
    rw [hopened.opened]
    refine (balance_moved params.token params.seller h.self params.amount t).trans ?_
    simp
  have hescrow : s'.escrowed t = s.escrowed t := by
    rw [hopened.opened]
    rfl
  rw [surplus_of_escrowed hescrow, hsale, hbalance]
  ring

theorem surplus_seized (hs : Sound s) {invoiceId : ℕ} (hseized : Seized h s invoiceId s')
    (t : Address) : s'.surplus h t = s.surplus h t := by
  obtain ⟨deposit, funded, ledger, startPrice, hdeposit, -, hledger, hopened⟩ := hseized.seized
  have hstart : Sound { s with ledger := ledger } := hs.congr rfl rfl rfl rfl rfl
  have hbalance : ledger.cash t h.self =
      s.balance h t + if t = deposit.token then deposit.amount else 0 := by
    obtain ⟨col, hcol, -, -, -, rfl⟩ := Pool.riskLiquidateCollateral_eq_ok hledger
    rw [hdeposit] at hcol
    obtain rfl := Option.some.inj hcol
    refine (Pool.State.moveCash_apply _ _ _ _ _ _ _).trans ?_
    simp [h.self_ne_pool, State.balance]
  have hafter : ({ s with ledger := ledger } : State W).surplus h t =
      s.surplus h t + if t = deposit.token then deposit.amount else 0 := by
    show ledger.cash t h.self - s.owed t = _
    rw [hbalance]
    unfold State.surplus
    ring
  rw [surplus_opened hstart hopened, hafter]
  simp [liquidationSale]

theorem escrowed_congr {t : Address} (hescrow : s'.escrow = s.escrow)
    (htoken : ∀ key amount, s.escrow.get key = some amount →
      s'.auctionToken key.2 = s.auctionToken key.2) : s'.escrowed t = s.escrowed t := by
  unfold State.escrowed
  rw [hescrow]
  apply Store.total_congr
  intro key amount hget
  rw [htoken key amount hget]

theorem escrowed_setAuction
    (htoken : ∀ key amount, s.escrow.get key = some amount → key.2 = id →
      s.auctionToken id = some auction.token)
    (t : Address) :
    (s.setAuction id auction).escrowed t = s.escrowed t := by
  refine escrowed_congr rfl fun key amount hget => ?_
  unfold State.auctionToken State.setAuction
  rw [Store.get_set]
  split_ifs with hkey
  · have hsame := htoken key amount hget hkey
    rw [← hkey] at hsame
    exact hsame.symm
  · rfl

theorem surplus_bid {bid : InvestorBid} (hget : s.auctions.get bid.auctionId = some auction)
    (hinvestor : h.self ≠ bid.investor) (t : Address) :
    (s.bid h auction bid).surplus h t = s.surplus h t := by
  have htoken : s.auctionToken bid.auctionId = some auction.token := by
    simp [State.auctionToken, hget]
  have hpart : s.escrow.part (fun key amount => if s.auctionToken key.2 = some t then amount else 0)
      (bid.investor, bid.auctionId) =
        if t = auction.token then (s.escrow.get (bid.investor, bid.auctionId)).getD 0 else 0 := by
    unfold Store.part
    simp only [htoken, Option.some.injEq, eq_comm]
    cases s.escrow.get (bid.investor, bid.auctionId) with
    | none => simp
    | some amount => rfl
  have hescrow : (s.bid h auction bid).escrowed t =
      s.escrowed t + if t = auction.token then bid.bidAmount else 0 := by
    show Store.total _ (s.escrow.set _ _) = _
    have hsame : ∀ id, (s.bid h auction bid).auctionToken id = s.auctionToken id := fun _ => rfl
    simp only [hsame]
    rw [Store.total_set, hpart, htoken]
    by_cases ht : t = auction.token
    · simp only [ht, if_true, State.escrowed]
      ring
    · simp only [ht, Option.some.injEq, Ne.symm ht, if_false, State.escrowed]
      ring
  have hbalance : (s.bid h auction bid).balance h t =
      s.balance h t + if t = auction.token then bid.bidAmount else 0 := by
    refine (balance_moved auction.token bid.investor h.self bid.bidAmount t).trans ?_
    simp [hinvestor]
  have hsale : (s.bid h auction bid).onSale t = s.onSale t := rfl
  unfold State.surplus State.owed
  rw [hescrow, hbalance, hsale]
  ring

theorem surplus_withdrawn {investor : Address} {escrowed : ℤ}
    (hget : s.auctions.get auctionId = some auction)
    (hescrowed : s.escrow.get (investor, auctionId) = some escrowed) (hinvestor : h.self ≠ investor)
    (t : Address) :
    (s.withdrawn h auction.token investor auctionId escrowed).surplus h t = s.surplus h t := by
  have htoken : s.auctionToken auctionId = some auction.token := by simp [State.auctionToken, hget]
  have hescrow : (s.withdrawn h auction.token investor auctionId escrowed).escrowed t =
      s.escrowed t - if t = auction.token then escrowed else 0 := by
    show Store.total _ (s.escrow.remove _) = _
    have hsame : ∀ id, (s.withdrawn h auction.token investor auctionId escrowed).auctionToken id =
        s.auctionToken id := fun _ => rfl
    simp only [hsame]
    rw [Store.total_remove, Store.part_of_get hescrowed, htoken]
    by_cases ht : t = auction.token
    · simp only [ht, if_true, State.escrowed]
    · simp only [ht, Option.some.injEq, Ne.symm ht, if_false, State.escrowed]
  have hbalance : (s.withdrawn h auction.token investor auctionId escrowed).balance h t =
      s.balance h t - if t = auction.token then escrowed else 0 := by
    refine (balance_moved auction.token h.self investor escrowed t).trans ?_
    simp [hinvestor, State.balance]
  have hsale : (s.withdrawn h auction.token investor auctionId escrowed).onSale t = s.onSale t := rfl
  unfold State.surplus State.owed
  rw [hescrow, hbalance, hsale]
  ring

theorem surplus_closed (hget : s.sales.get saleId = some sale) (hopen : sale.status = .Open)
    (hclosed : sale'.status ≠ .Open) (receiver t : Address) :
    ((s.setSale saleId sale').moved sale.token h.self receiver sale.amount).surplus h t =
      s.surplus h t + if t = sale.token ∧ h.self = receiver then sale.amount else 0 := by
  have hsale : ((s.setSale saleId sale').moved sale.token h.self receiver sale.amount).onSale t =
      s.onSale t - if t = sale.token then sale.amount else 0 := onSale_close hget hopen hclosed t
  have hbalance : ((s.setSale saleId sale').moved sale.token h.self receiver sale.amount).balance h t =
      s.balance h t - (if t = sale.token then sale.amount else 0) +
        if t = sale.token ∧ h.self = receiver then sale.amount else 0 := by
    refine (balance_moved sale.token h.self receiver sale.amount t).trans ?_
    simp only [and_true]
    rfl
  have hescrow : ((s.setSale saleId sale').moved sale.token h.self receiver sale.amount).escrowed t =
      s.escrowed t := rfl
  rw [surplus_of_escrowed hescrow, hsale, hbalance]
  ring

theorem surplus_moved {token sender receiver : Address} {amount : ℤ} (hsender : h.self ≠ sender)
    (t : Address) : (s.moved token sender receiver amount).surplus h t =
      s.surplus h t + if t = token ∧ h.self = receiver then amount else 0 := by
  unfold State.surplus
  rw [balance_moved]
  simp only [hsender, and_false, if_false, sub_zero]
  show _ - s.owed t = _
  ring

theorem surplus_rewritten {auction auction' : InvoiceAuction}
    (hget : s.auctions.get id = some auction) (htoken : auction'.token = auction.token)
    (t : Address) : (s.setAuction id auction').surplus h t = s.surplus h t := by
  have hescrow : (s.setAuction id auction').escrowed t = s.escrowed t := by
    refine escrowed_setAuction (fun key amount _ _ => ?_) t
    simp [State.auctionToken, hget, htoken]
  rw [surplus_of_escrowed (s := s) hescrow]
  show _ + (s.balance h t - s.balance h t) - (s.onSale t - s.onSale t) = _
  ring

theorem surplus_auctioned (hs : Sound s) (auction : InvoiceAuction) (t : Address) :
    ({ s.setAuction s.nextAuctionId auction with nextAuctionId := s.nextAuctionId + 1 } :
      State W).surplus h t = s.surplus h t := by
  have hescrow : (s.setAuction s.nextAuctionId auction).escrowed t = s.escrowed t := by
    refine escrowed_setAuction (fun key amount hget hkey => ?_) t
    obtain ⟨-, auction, hauction⟩ := hs.escrow key amount hget
    rw [hkey] at hauction
    exact absurd (hs.auction _ _ hauction) (lt_irrefl _)
  show s.balance h t - (s.onSale t + (s.setAuction s.nextAuctionId auction).escrowed t) = _
  rw [hescrow]
  rfl

end Surplus

/-! ## What is stranded -/

/-- Tokens that came to the contract and that it owes to nobody. -/
structure Stray where
  token : Address
  amount : ℤ
  deriving DecidableEq, Repr

/-- What a call is about to strand: the amount of an expired sale of the contract's own that is
returned to its seller, and the price of a sale whose proceeds go to the contract. -/
def strays (h : Host W) (s : State W) (tx : Tx h) : List Stray :=
  match tx.call with
  | .reclaimExpiredSale _ saleId =>
    match s.sales.get saleId with
    | some sale => if sale.seller = h.self then [⟨sale.token, sale.amount⟩] else []
    | none => []
  | .takeCollateralSale _ saleId =>
    match s.sales.get saleId with
    | some sale =>
      match sale.priceAt s.ledger.now with
      | .ok price =>
        if sale.proceedsRecipient = h.self ∧ price ≠ 0 then [⟨sale.proceedsToken, price⟩]
        else []
      | .error _ => []
    | none => []
  | _ => []

def strayed (log : List Stray) (token : Address) : ℤ :=
  (log.map fun stray => if token = stray.token then stray.amount else 0).sum

@[simp]
theorem strayed_nil (token : Address) : strayed [] token = 0 := rfl

@[simp]
theorem strayed_cons (stray : Stray) (log : List Stray) (token : Address) :
    strayed (stray :: log) token =
      (if token = stray.token then stray.amount else 0) + strayed log token := by
  simp [strayed]

theorem strayed_append (log log' : List Stray) (token : Address) :
    strayed (log ++ log') token = strayed log token + strayed log' token := by
  simp [strayed]

theorem strayed_eq_zero_iff {log : List Stray} (hpos : ∀ stray ∈ log, 0 < stray.amount)
    (token : Address) : 0 ≤ strayed log token ∧
      (strayed log token = 0 ↔ ∀ stray ∈ log, stray.token ≠ token) := by
  induction log with
  | nil => simp
  | cons stray log ih =>
    obtain ⟨hnn, hzero⟩ := ih fun stray' hmem => hpos stray' (List.mem_cons_of_mem _ hmem)
    have hfirst := hpos stray List.mem_cons_self
    rw [strayed_cons, List.forall_mem_cons, ← hzero]
    by_cases ht : token = stray.token
    · simp only [ht, if_true, ne_eq, not_true, false_and, iff_false]
      subst ht
      exact ⟨by omega, by omega⟩
    · simp only [ht, if_false, zero_add, ne_eq, Ne.symm ht, not_false_eq_true, true_and]
      exact ⟨hnn, trivial⟩

section Steps

variable {h : Host W} {s s' : State W} {tx : Tx h}

theorem strays_pos (hs : Sound s) (hx : exec h s tx = .ok s') :
    ∀ stray ∈ strays h s tx, 0 < stray.amount := by
  intro stray hmem
  cases exec_effect hx with
  | @taken taker saleId sale price hcall hauth hget hopen hprice hnn =>
    simp only [strays, hcall, hget, hprice] at hmem
    split_ifs at hmem with hself
    · rw [List.mem_singleton.1 hmem]
      exact lt_of_le_of_ne hnn (Ne.symm hself.2)
    · cases hmem
  | @reclaimed caller saleId sale hcall hget hopen =>
    simp only [strays, hcall, hget] at hmem
    split_ifs at hmem
    · rw [List.mem_singleton.1 hmem]
      exact (hs.sale saleId sale hget).2
    · cases hmem
  | configured admin riskConfig hcall =>
    rcases hcall with ⟨_, _, hcall⟩ | ⟨_, _, _, hcall⟩ <;> simp [strays, hcall] at hmem
  | cleared hcall => rcases hcall with ⟨hcall, -⟩ | ⟨hcall, -⟩ <;> simp [strays, hcall] at hmem
  | opened hcall | cancelled hcall | auctioned hcall | bade hcall | withdrew hcall | settled hcall
  | expired hcall | flagged hcall | seized hcall | pool hcall => simp [strays, hcall] at hmem

theorem exec_surplus (hs : Sound s) (hx : exec h s tx = .ok s') (hown : ∀ call, tx.call ≠ .pool call)
    (t : Address) : s'.surplus h t = s.surplus h t + strayed (strays h s tx) t := by
  have houtside : ∀ a, a ∈ tx.signers → h.self ≠ a := fun a ha heq => tx.self_not_mem (heq ▸ ha)
  cases exec_effect hx with
  | opened hcall hauth hopened =>
    rw [surplus_opened hs hopened]
    simp [strays, hcall, houtside _ hauth]
  | @taken taker saleId sale price hcall hauth hget hopen hprice hnn =>
    have hpaid : (((s.setSale saleId { sale with
        status := .Settled, taker := some taker, settledPrice := some price }).moved
          sale.proceedsToken taker sale.proceedsRecipient price).moved sale.token h.self taker
            sale.amount).surplus h t = s.surplus h t +
          if t = sale.proceedsToken ∧ h.self = sale.proceedsRecipient then price else 0 := by
      have hmoved : (s.moved sale.proceedsToken taker sale.proceedsRecipient price).sales.get saleId =
          some sale := hget
      refine (surplus_closed hmoved hopen SaleStatus.noConfusion taker t).trans ?_
      rw [surplus_moved (houtside _ hauth)]
      simp [houtside _ hauth]
    rw [hpaid]
    simp only [strays, hcall, hget, hprice]
    by_cases hself : h.self = sale.proceedsRecipient
    · by_cases hzero : price = 0
      · simp [hzero]
      · simp [← hself, hzero]
    · simp [hself, Ne.symm hself]
  | @reclaimed caller saleId sale hcall hget hopen =>
    rw [surplus_closed hget hopen SaleStatus.noConfusion]
    simp only [strays, hcall, hget]
    by_cases hself : h.self = sale.seller
    · simp [← hself]
    · simp [hself, Ne.symm hself]
  | @cancelled saleId sale hcall hauth hget hopen =>
    rw [surplus_closed hget hopen SaleStatus.noConfusion]
    simp [strays, hcall, houtside _ hauth]
  | auctioned hcall =>
    rw [surplus_auctioned hs]
    simp [strays, hcall]
  | bade hcall hauth hget =>
    rw [surplus_bid hget (houtside _ hauth)]
    simp [strays, hcall]
  | withdrew hcall hauth hget hclosed hescrow =>
    rw [surplus_withdrawn hget hescrow (houtside _ hauth)]
    simp [strays, hcall]
  | settled hcall hget =>
    refine (surplus_rewritten hget (by rfl) t).trans ?_
    simp [strays, hcall]
  | expired hcall hget =>
    refine (surplus_rewritten hget (by rfl) t).trans ?_
    simp [strays, hcall]
  | configured admin riskConfig hcall =>
    have hnone : strays h s tx = [] := by
      rcases hcall with ⟨_, _, hcall⟩ | ⟨_, _, _, hcall⟩ <;> simp [strays, hcall]
    rw [hnone, strayed_nil, add_zero]
    rfl
  | flagged hcall =>
    simp only [strays, hcall, strayed_nil, add_zero]
    rfl
  | cleared hcall =>
    have hnone : strays h s tx = [] := by
      rcases hcall with ⟨hcall, -⟩ | ⟨hcall, -⟩ <;> simp [strays, hcall]
    rw [hnone, strayed_nil, add_zero]
    rfl
  | seized hcall hresult hsince hgrace hseized =>
    simp only [strays, hcall, strayed_nil, add_zero]
    exact surplus_seized hs hseized t
  | pool hcall => exact absurd hcall (hown _)

theorem pool_surplus {call : Pool.Call W} (hcall : tx.call = .pool call)
    (hx : exec h s tx = .ok s') (t : Address) :
    s'.owed t = s.owed t ∧ s.balance h t ≤ s'.balance h t := by
  have heffect := exec_effect hx
  cases heffect with
  | @pool call' ledger hcall' hmem hexec =>
    refine ⟨rfl, Pool.exec_spares hexec h.self ?_ t⟩
    simp only [List.mem_cons, not_or]
    exact ⟨h.self_ne_pool, tx.self_not_mem⟩
  | configured admin riskConfig hcall' =>
    rcases hcall' with ⟨_, _, hcall'⟩ | ⟨_, _, _, hcall'⟩ <;> rw [hcall] at hcall' <;> cases hcall'
  | cleared hcall' =>
    rcases hcall' with ⟨hcall', -⟩ | ⟨hcall', -⟩ <;> rw [hcall] at hcall' <;> cases hcall'
  | opened hcall' | taken hcall' | reclaimed hcall' | cancelled hcall' | auctioned hcall'
  | bade hcall' | withdrew hcall' | settled hcall' | expired hcall' | flagged hcall'
  | seized hcall' =>
    rw [hcall] at hcall'
    cases hcall'

theorem surplus_le (hs : Sound s) (hx : exec h s tx = .ok s') (t : Address) :
    s.surplus h t ≤ s'.surplus h t := by
  cases hcall : tx.call with
  | pool call =>
    obtain ⟨howed, hgrown⟩ := pool_surplus hcall hx t
    unfold State.surplus
    omega
  | _ =>
    rw [exec_surplus hs hx (by simp [hcall])]
    have hnn := (strayed_eq_zero_iff (strays_pos hs hx) t).1
    omega

theorem escrow_le_balance (hs : Sound s) {investor : Address} {amount : ℤ}
    (hget : s.auctions.get auctionId = some auction)
    (hescrow : s.escrow.get (investor, auctionId) = some amount)
    (hcovered : 0 ≤ s.surplus h auction.token) : amount ≤ s.balance h auction.token := by
  have hpart : s.escrow.part (fun key amount => if s.auctionToken key.2 = some auction.token then
      amount else 0) (investor, auctionId) = amount := by
    rw [Store.part_of_get hescrow]
    simp [State.auctionToken, hget]
  have hescrowed : amount ≤ s.escrowed auction.token := by
    rw [← hpart]
    refine Store.part_le_total (fun key amount' hkey => ?_) _
    split_ifs
    · exact (hs.escrow key amount' hkey).1.le
    · exact le_rfl
  have hsale : 0 ≤ s.onSale auction.token := by
    refine Store.total_nonneg fun id sale hsale => ?_
    unfold CollateralSale.consigned
    split_ifs
    · exact (hs.sale id sale hsale).2.le
    · exact le_rfl
  unfold State.surplus State.owed at hcovered
  omega

end Steps

end Astera.Auction
