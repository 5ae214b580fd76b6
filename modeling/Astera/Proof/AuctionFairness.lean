import Astera.Auction.Custody

/-!
# Settlement of invoice auctions

What an auction owes its bidders once it is closed: a settlement that the pool authorized after the
bidding, the lowest discount among the bids that cover the principal, and the money back to all
others.
-/

namespace Astera.Auction

open Fallible Transition

variable {W : Type}
variable {investor : Address} {best bid : InvestorBid} {auction : InvoiceAuction}
  {bids : List InvestorBid} {id : ℕ}

/-- A successful call of `settle_invoice_auction`. -/
structure Settlement where
  auctionId : ℕ
  signers : List Address
  time : ℕ
  deriving DecidableEq, Repr

/-- What the bidders went through: what left their accounts for an auction, what came back, and how
often. -/
structure Dealings where
  settlements : List Settlement := []
  paid : Address → ℕ → ℤ := fun _ _ => 0
  returned : Address → ℕ → ℤ := fun _ _ => 0
  withdrawals : Address → ℕ → ℕ := fun _ _ => 0

def State.held (s : State W) (auctionId : ℕ) (investor : Address) : ℤ :=
  (s.auctions.get auctionId).elim 0 fun auction => s.ledger.cash auction.token investor

/-- Add to an entry of a table with two keys. -/
def addAt {α : Type} [Add α] (f : Address → ℕ → α) (investor : Address) (auctionId : ℕ) (x : α) :
    Address → ℕ → α :=
  fun investor' auctionId' =>
    if investor' = investor ∧ auctionId' = auctionId then f investor' auctionId' + x
    else f investor' auctionId'

def noteDealings (h : Host W) (s : State W) (tx : Tx h) (s' : State W) (d : Dealings) : Dealings :=
  match tx.call with
  | .placeBid investor auctionId _ _ =>
    { d with
      paid := addAt d.paid investor auctionId
        (s.held auctionId investor - s'.held auctionId investor) }
  | .withdrawBid investor auctionId =>
    { d with
      returned := addAt d.returned investor auctionId
        (s'.held auctionId investor - s.held auctionId investor)
      withdrawals := addAt d.withdrawals investor auctionId 1 }
  | .settleInvoiceAuction _ auctionId =>
    { d with settlements := d.settlements ++ [⟨auctionId, tx.signers, s.ledger.now⟩] }
  | _ => d

def wonBy (won : Option InvestorBid) (investor : Address) : ℤ :=
  won.elim 0 fun bid => if bid.investor = investor then bid.bidAmount else 0

/-- An investor takes back what is due, once: it can do so now and has not done so before, or it has
and cannot do so again. -/
def TakesBack (h : Host W) (s : State W) (d : Dealings) (auctionId : ℕ) (investor : Address)
    (due : ℤ) : Prop :=
  (0 < due ∧ d.returned investor auctionId = 0 ∧ d.withdrawals investor auctionId = 0 ∧
    ∀ signers, investor ∈ signers → ∃ s', withdrawBid h signers s investor auctionId = .ok s' ∧
      s'.held auctionId investor = s.held auctionId investor + due) ∨
  (d.returned investor auctionId = due ∧ d.withdrawals investor auctionId ≤ 1 ∧
    ∀ signers s', withdrawBid h signers s investor auctionId ≠ .ok s')

structure FairOutcome (h : Host W) (s : State W) (d : Dealings) (auctionId : ℕ)
    (auction : InvoiceAuction) : Prop where
  authorized : auction.status = .Settled → ∃ settlement ∈ d.settlements,
    settlement.auctionId = auctionId ∧ h.pool.self ∈ settlement.signers ∧
      windowEnd auction.openedAt auction.durationSecs < settlement.time
  won : ∃ won : Option InvestorBid, (auction.status = .Settled ↔ won ≠ none) ∧
    (∀ best ∈ won, best ∈ s.bids auctionId ∧ auction.winningBid = some best.investor ∧
      auction.principal ≤ best.bidAmount ∧
      ∀ bid ∈ s.bids auctionId, auction.principal ≤ bid.bidAmount →
        best.discountBps ≤ bid.discountBps) ∧
    ∀ investor, TakesBack h s d auctionId investor
      (d.paid investor auctionId - wonBy won investor)

/-- `best` is the first of the bids with the lowest discount, it covers the principal, and its
investor made no other bid. -/
def SoleLowest (bids : List InvestorBid) (principal : ℤ) (best : InvestorBid) : Prop :=
  ∃ before after, bids = before ++ best :: after ∧
    (∀ bid ∈ before, best.discountBps < bid.discountBps) ∧
    (∀ bid ∈ after, best.discountBps ≤ bid.discountBps) ∧
    principal ≤ best.bidAmount ∧ ∀ bid ∈ before ++ after, bid.investor ≠ best.investor

/-- The settlements of a run are made by the pool, after the bidding, and with a first lowest bid that
covers the principal and is the only one of its investor. -/
def SettlesFairly (h : Host W) (x : State W × Dealings) (tx : Tx h) : Prop :=
  ∀ caller auctionId auction, tx.call = .settleInvoiceAuction caller auctionId →
    x.1.auctions.get auctionId = some auction →
      h.pool.self ∈ tx.signers ∧
      windowEnd auction.openedAt auction.durationSecs < x.1.ledger.now ∧
      ∃ best, SoleLowest (x.1.bids auctionId) auction.principal best

theorem foldl_betterBid_of_le :
    ∀ {bids : List InvestorBid}, (∀ bid ∈ bids, best.discountBps ≤ bid.discountBps) →
      bids.foldl betterBid (best, best.discountBps) = (best, best.discountBps) := by
  intro bids
  induction bids with
  | nil =>
    intro _
    rfl
  | cons bid bids ih =>
    intro hle
    have hfirst : betterBid (best, best.discountBps) bid = (best, best.discountBps) :=
      if_neg (not_lt.2 (hle bid List.mem_cons_self))
    rw [List.foldl_cons, hfirst]
    exact ih fun bid' hmem => hle bid' (List.mem_cons_of_mem _ hmem)

theorem lt_foldl_betterBid {discount : ℕ} :
    ∀ {bids : List InvestorBid} {start : InvestorBid × ℕ},
      (∀ bid ∈ bids, discount < bid.discountBps) → discount < start.2 →
      discount < (bids.foldl betterBid start).2 := by
  intro bids
  induction bids with
  | nil =>
    intro start _ hstart
    exact hstart
  | cons bid bids ih =>
    intro start hlt hstart
    rw [List.foldl_cons]
    apply ih fun bid' hmem => hlt bid' (List.mem_cons_of_mem _ hmem)
    unfold betterBid
    split_ifs
    · exact hlt bid List.mem_cons_self
    · exact hstart

theorem winningBid_eq {before after : List InvestorBid}
    (hbefore : ∀ bid ∈ before, best.discountBps < bid.discountBps)
    (hafter : ∀ bid ∈ after, best.discountBps ≤ bid.discountBps)
    (hdiscount : best.discountBps ≤ 10000) :
    winningBid (before ++ best :: after) = some best := by
  have hloop : ∀ first, (before ++ best :: after).foldl betterBid (first, 10001) =
      (best, best.discountBps) := by
    intro first
    have hlt : best.discountBps < (before.foldl betterBid (first, 10001)).2 :=
      lt_foldl_betterBid hbefore (Nat.lt_succ_of_le hdiscount)
    have htaken : betterBid (before.foldl betterBid (first, 10001)) best =
        (best, best.discountBps) := if_pos hlt
    rw [List.foldl_append, List.foldl_cons, htaken]
    exact foldl_betterBid_of_le hafter
  cases hbids : before ++ best :: after with
  | nil => simp at hbids
  | cons first rest =>
    have hresult := hloop first
    rw [hbids] at hresult
    show some ((first :: rest).foldl betterBid (first, 10001)).1 = some best
    rw [hresult]

/-! ## The books of the bidders -/

def staked (bids : List InvestorBid) (investor : Address) : ℤ :=
  (bids.map fun bid => if bid.investor = investor then bid.bidAmount else 0).sum

theorem staked_append (bids : List InvestorBid) (bid : InvestorBid) (investor : Address) :
    staked (bids ++ [bid]) investor =
      staked bids investor + if bid.investor = investor then bid.bidAmount else 0 := by
  simp [staked]

theorem staked_of_forall_ne (hne : ∀ bid ∈ bids, bid.investor ≠ investor) :
    staked bids investor = 0 := by
  apply List.sum_eq_zero
  intro x hx
  obtain ⟨bid, hmem, rfl⟩ := List.mem_map.1 hx
  exact if_neg (hne bid hmem)

theorem SoleLowest.staked {principal : ℤ} (hsole : SoleLowest bids principal best) :
    staked bids best.investor = best.bidAmount := by
  obtain ⟨before, after, rfl, -, -, -, hother⟩ := hsole
  have hbefore := staked_of_forall_ne fun bid hmem => hother bid (List.mem_append_left _ hmem)
  have hafter := staked_of_forall_ne fun bid hmem => hother bid (List.mem_append_right _ hmem)
  unfold Auction.staked at hbefore hafter ⊢
  simp [hbefore, hafter]

theorem SoleLowest.le {principal : ℤ} (hsole : SoleLowest bids principal best) (hmem : bid ∈ bids) :
    best.discountBps ≤ bid.discountBps := by
  obtain ⟨before, after, rfl, hbefore, hafter, -, -⟩ := hsole
  rcases List.mem_append.1 hmem with hmem | hmem
  · exact (hbefore bid hmem).le
  · rcases List.mem_cons.1 hmem with rfl | hmem
    · exact le_rfl
    · exact hafter bid hmem

/-- An account of a bidder: the escrow holds all that was paid in and nothing came back, or all of it
came back at once. -/
def Account (escrow : Option ℤ) (paid returned : ℤ) (withdrawals : ℕ) : Prop :=
  (escrow = some paid ∧ returned = 0 ∧ withdrawals = 0) ∨
    (escrow = none ∧ returned = paid ∧ withdrawals ≤ 1)

/-- What the auctions, the escrow and the dealings of a run have to do with one another. -/
structure Booked (h : Host W) (s : State W) (d : Dealings) : Prop where
  sound : Sound s
  covered : ∀ token, 0 ≤ s.surplus h token
  outside : ∀ key amount, s.escrow.get key = some amount → key.1 ≠ h.self
  discounts : ∀ id, ∀ bid ∈ s.bids id, bid.discountBps ≤ 10000
  paid : ∀ investor id, d.paid investor id = staked (s.bids id) investor
  account : ∀ investor id,
    Account (s.escrow.get (investor, id)) (d.paid investor id) (d.returned investor id)
      (d.withdrawals investor id)
  untouched : ∀ id, (∀ auction, s.auctions.get id = some auction → auction.status = .Open) →
    ∀ investor, d.returned investor id = 0 ∧ d.withdrawals investor id = 0
  unbidden : ∀ id, s.auctions.get id = none → s.bids id = []
  loser : ∀ id auction, s.auctions.get id = some auction → auction.status ≠ .Settled →
    auction.winningBid = none
  settled : ∀ id auction, s.auctions.get id = some auction → auction.status = .Settled →
    (∃ settlement ∈ d.settlements, settlement.auctionId = id ∧
      h.pool.self ∈ settlement.signers ∧
      windowEnd auction.openedAt auction.durationSecs < settlement.time) ∧
    ∃ best, SoleLowest (s.bids id) auction.principal best ∧
      auction.winningBid = some best.investor ∧ d.returned best.investor id = 0 ∧
      d.withdrawals best.investor id = 0

theorem booked_initial {h : Host W} {ledger : Pool.State W} (admin : Address)
    (hcash : ∀ token, 0 ≤ ledger.cash token h.self) :
    Booked h (initializeAuction ledger admin) {} where
  sound := sound_initial ledger admin
  covered := fun token => by
    show 0 ≤ ledger.cash token h.self - (0 + 0)
    have hnn := hcash token
    omega
  outside := fun key amount hget => by simp [initializeAuction] at hget
  discounts := fun id bid hmem => by simp [initializeAuction] at hmem
  paid := fun investor id => rfl
  account := fun investor id => .inr ⟨Store.get_empty _, rfl, Nat.zero_le _⟩
  untouched := fun id _ investor => ⟨rfl, rfl⟩
  unbidden := fun id _ => rfl
  loser := fun id auction hget => by simp [initializeAuction] at hget
  settled := fun id auction hget => by simp [initializeAuction] at hget

section Keeping

variable {h : Host W} {s s' : State W} {d : Dealings}

theorem Booked.frame (hb : Booked h s d) (hsound : Sound s') (hcovered : ∀ t, 0 ≤ s'.surplus h t)
    (hauctions : s'.auctions = s.auctions) (hbids : s'.bids = s.bids)
    (hescrow : s'.escrow = s.escrow) : Booked h s' d := by
  refine ⟨hsound, hcovered, ?_, ?_, ?_, ?_, ?_, ?_, ?_, ?_⟩
  · rw [hescrow]
    exact hb.outside
  · rw [hbids]
    exact hb.discounts
  · rw [hbids]
    exact hb.paid
  · rw [hescrow]
    exact hb.account
  · rw [hauctions]
    exact hb.untouched
  · rw [hauctions, hbids]
    exact hb.unbidden
  · rw [hauctions]
    exact hb.loser
  · rw [hauctions, hbids]
    exact hb.settled

theorem Booked.auctioned (hb : Booked h s d) (hopen : auction.status = .Open)
    (hwinner : auction.winningBid = none)
    (hsound : Sound { s.setAuction s.nextAuctionId auction with nextAuctionId := s.nextAuctionId + 1 })
    (hcovered : ∀ t, 0 ≤ ({ s.setAuction s.nextAuctionId auction with nextAuctionId :=
      s.nextAuctionId + 1 } : State W).surplus h t) :
    Booked h { s.setAuction s.nextAuctionId auction with nextAuctionId := s.nextAuctionId + 1 } d := by
  have hfresh : s.auctions.get s.nextAuctionId = none := by
    cases hget : s.auctions.get s.nextAuctionId with
    | none => rfl
    | some old => exact absurd (hb.sound.auction _ _ hget) (lt_irrefl _)
  refine ⟨hsound, hcovered, hb.outside, hb.discounts, hb.paid, hb.account, ?_, ?_, ?_, ?_⟩
  · intro id hstatus
    by_cases hid : id = s.nextAuctionId
    · subst hid
      exact hb.untouched _ fun old hget => by simp [hfresh] at hget
    · refine hb.untouched id fun old hget => hstatus old ?_
      exact (Store.get_set_of_ne _ _ hid).trans hget
  · intro id hnone
    by_cases hid : id = s.nextAuctionId
    · subst hid
      exact hb.unbidden _ hfresh
    · exact hb.unbidden id ((Store.get_set_of_ne _ _ hid).symm.trans hnone)
  · exact Store.forall_get_set hb.loser fun _ => hwinner
  · refine Store.forall_get_set hb.settled fun hsettled => ?_
    rw [hopen] at hsettled
    cases hsettled

theorem Booked.closed (hb : Booked h s d) {auction auction' : InvoiceAuction}
    (hget : s.auctions.get id = some auction) (hopen : auction.status = .Open)
    (hclosed : auction'.status ≠ .Open) (log : List Settlement)
    (hloser : auction'.status ≠ .Settled → auction'.winningBid = none)
    (hsettled : auction'.status = .Settled → (∃ settlement ∈ log, settlement.auctionId = id ∧
      h.pool.self ∈ settlement.signers ∧ windowEnd auction'.openedAt auction'.durationSecs <
      settlement.time) ∧ ∃ best, SoleLowest (s.bids id) auction'.principal best ∧
      auction'.winningBid = some best.investor)
    (hsound : Sound (s.setAuction id auction'))
    (hcovered : ∀ t, 0 ≤ (s.setAuction id auction').surplus h t) :
    Booked h (s.setAuction id auction') { d with settlements := d.settlements ++ log } := by
  have huntouched := hb.untouched id fun old hold => by
    rw [hget] at hold
    exact Option.some.inj hold ▸ hopen
  refine ⟨hsound, hcovered, hb.outside, hb.discounts, hb.paid, hb.account, ?_, ?_, ?_, ?_⟩
  · intro id' hstatus
    by_cases hid : id' = id
    · subst hid
      exact absurd (hstatus auction' (Store.get_set_self _ _ _)) hclosed
    · refine hb.untouched id' fun old hold => hstatus old ?_
      exact (Store.get_set_of_ne _ _ hid).trans hold
  · intro id' hnone
    by_cases hid : id' = id
    · subst hid
      have hself := Store.get_set_self s.auctions id' auction'
      rw [show (s.auctions.set id' auction').get id' = none from hnone] at hself
      cases hself
    · exact hb.unbidden id' ((Store.get_set_of_ne _ _ hid).symm.trans hnone)
  · exact Store.forall_get_set hb.loser hloser
  · refine Store.forall_get_set (fun id' old hold hstatus => ?_) fun hstatus => ?_
    · obtain ⟨⟨settlement, hmem, hrest⟩, hwon⟩ := hb.settled id' old hold hstatus
      exact ⟨⟨settlement, List.mem_append_left _ hmem, hrest⟩, hwon⟩
    · obtain ⟨⟨settlement, hmem, hrest⟩, best, hsole, hwinner⟩ := hsettled hstatus
      obtain ⟨hreturned, hwithdrawals⟩ := huntouched best.investor
      exact ⟨⟨settlement, List.mem_append_right _ hmem, hrest⟩, best, hsole, hwinner, hreturned,
        hwithdrawals⟩

theorem held_bid (hget : s.auctions.get bid.auctionId = some auction)
    (hinvestor : h.self ≠ bid.investor) :
    (s.bid h auction bid).held bid.auctionId bid.investor =
      s.held bid.auctionId bid.investor - bid.bidAmount := by
  have hauctions : (s.bid h auction bid).auctions = s.auctions := rfl
  have hcash : (s.bid h auction bid).ledger.cash auction.token bid.investor =
      s.ledger.cash auction.token bid.investor - bid.bidAmount := by
    refine (Pool.State.moveCash_apply _ _ _ _ _ _ _).trans ?_
    simp [Ne.symm hinvestor]
  unfold State.held
  rw [hauctions, hget]
  exact hcash

theorem Booked.bade (hb : Booked h s d) (hget : s.auctions.get bid.auctionId = some auction)
    (hopen : auction.status = .Open) (hinvestor : h.self ≠ bid.investor)
    (hdiscount : bid.discountBps ≤ 10000) (hsound : Sound (s.bid h auction bid))
    (hcovered : ∀ t, 0 ≤ (s.bid h auction bid).surplus h t) :
    Booked h (s.bid h auction bid)
      { d with paid := addAt d.paid bid.investor bid.auctionId bid.bidAmount } := by
  have huntouched := hb.untouched bid.auctionId fun old hold => by
    rw [hget] at hold
    exact Option.some.inj hold ▸ hopen
  have hbids : ∀ id, (s.bid h auction bid).bids id =
      if id = bid.auctionId then s.bids id ++ [bid] else s.bids id := by
    intro id
    show Function.update s.bids bid.auctionId _ id = _
    by_cases hid : id = bid.auctionId
    · simp [hid]
    · simp [hid]
  refine ⟨hsound, hcovered, ?_, ?_, ?_, ?_, hb.untouched, ?_, hb.loser, ?_⟩
  · exact Store.forall_get_set hb.outside (Ne.symm hinvestor)
  · intro id bid' hmem
    rw [hbids] at hmem
    split_ifs at hmem with hid
    · rcases List.mem_append.1 hmem with hmem | hmem
      · exact hb.discounts id bid' hmem
      · rw [List.mem_singleton.1 hmem]
        exact hdiscount
    · exact hb.discounts id bid' hmem
  · intro investor id
    rw [hbids]
    unfold addAt
    by_cases hid : id = bid.auctionId
    · rw [if_pos hid, staked_append, ← hb.paid]
      by_cases hinv : investor = bid.investor
      · simp [hid, hinv]
      · simp [hinv, Ne.symm hinv]
    · simp [hid, hb.paid]
  · intro investor id
    show Account ((s.escrow.set _ _).get _) _ _ _
    by_cases hkey : (investor, id) = (bid.investor, bid.auctionId)
    · obtain ⟨rfl, rfl⟩ := Prod.mk.inj hkey
      obtain ⟨hreturned, hwithdrawals⟩ := huntouched bid.investor
      have hold := hb.account bid.investor bid.auctionId
      refine .inl ⟨?_, hreturned, hwithdrawals⟩
      rw [Store.get_set_self]
      rcases hold with ⟨hescrow, -, -⟩ | ⟨hescrow, hpaid, -⟩
      · simp [addAt, hescrow]
      · simp [addAt, hescrow, ← hpaid, hreturned]
    · rw [Store.get_set_of_ne _ _ hkey]
      have hother : addAt d.paid bid.investor bid.auctionId bid.bidAmount investor id =
          d.paid investor id := if_neg fun hand => hkey (Prod.ext hand.1 hand.2)
      dsimp only
      rw [hother]
      exact hb.account investor id
  · intro id hnone
    have hid : id ≠ bid.auctionId := by
      rintro rfl
      rw [show s.auctions.get bid.auctionId = none from hnone] at hget
      cases hget
    rw [hbids, if_neg hid]
    exact hb.unbidden id hnone
  · intro id old hold hstatus
    have hid : id ≠ bid.auctionId := by
      rintro rfl
      rw [show s.auctions.get bid.auctionId = some old from hold] at hget
      rw [← Option.some.inj hget, hstatus] at hopen
      cases hopen
    rw [hbids, if_neg hid]
    exact hb.settled id old hold hstatus

theorem held_withdrawn {escrowed : ℤ} (hget : s.auctions.get id = some auction)
    (hinvestor : h.self ≠ investor) :
    (s.withdrawn h auction.token investor id escrowed).held id investor =
      s.held id investor + escrowed := by
  have hauctions : (s.withdrawn h auction.token investor id escrowed).auctions = s.auctions := rfl
  have hcash : (s.withdrawn h auction.token investor id escrowed).ledger.cash auction.token investor =
      s.ledger.cash auction.token investor + escrowed := by
    refine (Pool.State.moveCash_apply _ _ _ _ _ _ _).trans ?_
    simp [Ne.symm hinvestor]
  unfold State.held
  rw [hauctions, hget]
  exact hcash

theorem Booked.withdrew (hb : Booked h s d) {escrowed : ℤ} (hget : s.auctions.get id = some auction)
    (hclosed : auction.status ≠ .Open) (hescrow : s.escrow.get (investor, id) = some escrowed)
    (hloser : auction.winningBid ≠ some investor)
    (hsound : Sound (s.withdrawn h auction.token investor id escrowed))
    (hcovered : ∀ t, 0 ≤ (s.withdrawn h auction.token investor id escrowed).surplus h t) :
    Booked h (s.withdrawn h auction.token investor id escrowed)
      { d with
        returned := addAt d.returned investor id escrowed
        withdrawals := addAt d.withdrawals investor id 1 } := by
  refine ⟨hsound, hcovered, ?_, hb.discounts, hb.paid, ?_, ?_, hb.unbidden, hb.loser, ?_⟩
  · exact fun key amount hkey => hb.outside key amount (Store.get_of_get_remove hkey)
  · intro investor' id'
    show Account ((s.escrow.remove _).get _) _ _ _
    have hold := hb.account investor' id'
    rw [Store.get_remove]
    by_cases hkey : (investor', id') = (investor, id)
    · obtain ⟨rfl, rfl⟩ := Prod.mk.inj hkey
      rw [if_pos rfl]
      rcases hold with ⟨hpaid, hreturned, hwithdrawals⟩ | ⟨hnone, -, -⟩
      · rw [hescrow] at hpaid
        refine .inr ⟨rfl, ?_, ?_⟩
        · simp [addAt, hreturned, Option.some.inj hpaid]
        · simp [addAt, hwithdrawals]
      · rw [hescrow] at hnone
        cases hnone
    · rw [if_neg hkey]
      have hpair : ¬ (investor' = investor ∧ id' = id) := fun hand => hkey (Prod.ext hand.1 hand.2)
      simpa [addAt, hpair] using hold
  · intro id' hstatus investor'
    have hid : id' ≠ id := by
      rintro rfl
      exact hclosed (hstatus auction hget)
    simpa [addAt, hid] using hb.untouched id' hstatus investor'
  · intro id' old hold hstatus
    obtain ⟨hsettlement, best, hsole, hwinner, hreturned, hwithdrawals⟩ :=
      hb.settled id' old hold hstatus
    have hpair : ¬ (best.investor = investor ∧ id' = id) := by
      rintro ⟨rfl, rfl⟩
      rw [show s.auctions.get id' = some old from hold] at hget
      rw [← Option.some.inj hget] at hloser
      exact hloser hwinner
    refine ⟨hsettlement, best, hsole, hwinner, ?_, ?_⟩
    · simpa [addAt, hpair] using hreturned
    · simpa [addAt, hpair] using hwithdrawals

theorem Opened.auctions {params : CollateralSaleParams} (hopened : Opened h s params s') :
    s'.auctions = s.auctions ∧ s'.bids = s.bids ∧ s'.escrow = s.escrow := by
  rw [hopened.opened]
  exact ⟨rfl, rfl, rfl⟩

theorem Seized.auctions {invoiceId : ℕ} (hseized : Seized h s invoiceId s') :
    s'.auctions = s.auctions ∧ s'.bids = s.bids ∧ s'.escrow = s.escrow := by
  obtain ⟨_, _, _, _, -, -, -, hopened⟩ := hseized.seized
  exact hopened.auctions

theorem booked_step {tx : Tx h} (hb : Booked h s d) (hfair : SettlesFairly h (s, d) tx)
    (hx : exec h s tx = .ok s') : Booked h s' (noteDealings h s tx s' d) := by
  have hsound : Sound s' := exec_sound hb.sound hx
  have hcovered : ∀ t, 0 ≤ s'.surplus h t := fun t => (hb.covered t).trans (surplus_le hb.sound hx t)
  have houtside : ∀ a, a ∈ tx.signers → h.self ≠ a := fun a ha heq => tx.self_not_mem (heq ▸ ha)
  cases exec_effect hx with
  | opened hcall hauth hopened =>
    obtain ⟨hauctions, hbids, hescrow⟩ := hopened.auctions
    simp only [noteDealings, hcall]
    exact hb.frame hsound hcovered hauctions hbids hescrow
  | taken hcall | reclaimed hcall | cancelled hcall | flagged hcall | pool hcall =>
    simp only [noteDealings, hcall]
    exact hb.frame hsound hcovered rfl rfl rfl
  | configured admin riskConfig hcall =>
    rcases hcall with ⟨_, _, hcall⟩ | ⟨_, _, _, hcall⟩ <;> simp only [noteDealings, hcall] <;>
      exact hb.frame hsound hcovered rfl rfl rfl
  | cleared hcall =>
    rcases hcall with ⟨hcall, -⟩ | ⟨hcall, -⟩ <;> simp only [noteDealings, hcall] <;>
      exact hb.frame hsound hcovered rfl rfl rfl
  | seized hcall hresult hsince hgrace hseized =>
    obtain ⟨hauctions, hbids, hescrow⟩ := hseized.auctions
    simp only [noteDealings, hcall]
    exact hb.frame hsound hcovered hauctions hbids hescrow
  | auctioned hcall =>
    simp only [noteDealings, hcall]
    exact hb.auctioned rfl rfl hsound hcovered
  | bade hcall hauth hget hopen hpos hdiscount =>
    simp only [noteDealings, hcall, held_bid hget (houtside _ hauth), sub_sub_cancel]
    exact hb.bade hget hopen (houtside _ hauth) hdiscount hsound hcovered
  | withdrew hcall hauth hget hclosed hescrow hloser =>
    simp only [noteDealings, hcall, held_withdrawn hget (houtside _ hauth), add_sub_cancel_left]
    exact hb.withdrew hget hclosed hescrow hloser hsound hcovered
  | @settled caller auctionId auction best hcall hget hopen hbest =>
    obtain ⟨hpool, htime, best', hsole⟩ := hfair caller auctionId auction hcall hget
    -- the loop finds the bid that the condition names
    have hsame : best = best' := by
      have hmem : best' ∈ s.bids auctionId := by
        obtain ⟨before, after, hbids, -⟩ := hsole
        rw [show s.bids auctionId = before ++ best' :: after from hbids]
        simp
      have hdiscount := hb.discounts auctionId best' hmem
      obtain ⟨before, after, hbids, hbefore, hafter, -⟩ := hsole
      rw [show s.bids auctionId = before ++ best' :: after from hbids,
        winningBid_eq hbefore hafter hdiscount] at hbest
      exact (Option.some.inj hbest).symm
    subst hsame
    simp only [noteDealings, hcall]
    refine hb.closed hget hopen AuctionStatus.noConfusion _ (fun hne => absurd rfl hne) ?_ hsound
      hcovered
    intro _
    exact ⟨⟨_, List.mem_singleton_self _, rfl, hpool, htime⟩, best, hsole, rfl⟩
  | @expired caller auctionId auction hcall hget hopen =>
    simp only [noteDealings, hcall]
    have hloser : auction.winningBid = none := by
      apply hb.loser auctionId auction hget
      rw [hopen]
      exact AuctionStatus.noConfusion
    have hclosed : Booked h (s.setAuction auctionId { auction with status := .Cancelled })
        { d with settlements := d.settlements ++ [] } :=
      hb.closed hget hopen AuctionStatus.noConfusion [] (fun _ => hloser)
        (fun hsettled => AuctionStatus.noConfusion hsettled) hsound hcovered
    rw [List.append_nil] at hclosed
    exact hclosed

theorem Booked.takesBack (hb : Booked h s d) (hget : s.auctions.get id = some auction)
    (hclosed : auction.status ≠ .Open) (hloser : auction.winningBid ≠ some investor) :
    TakesBack h s d id investor (d.paid investor id) := by
  rcases hb.account investor id with ⟨hescrow, hreturned, hwithdrawals⟩ |
    ⟨hescrow, hreturned, hwithdrawals⟩
  · have hpos : 0 < d.paid investor id := (hb.sound.escrow _ _ hescrow).1
    have hheld := escrow_le_balance hb.sound hget hescrow (hb.covered auction.token)
    refine .inl ⟨hpos, hreturned, hwithdrawals, fun signers hsigned => ?_⟩
    refine ⟨s.withdrawn h auction.token investor id (d.paid investor id), ?_, ?_⟩
    · rw [withdrawBid_eq_ok]
      exact ⟨auction, _, hsigned, hget, hclosed, hescrow, hpos.ne', hloser, hpos.le, hheld, rfl⟩
    · exact held_withdrawn hget (Ne.symm (hb.outside _ _ hescrow))
  · refine .inr ⟨hreturned, hwithdrawals, fun signers s' hx => ?_⟩
    obtain ⟨_, _, -, -, -, hsome, -⟩ := withdrawBid_eq_ok.1 hx
    rw [hescrow] at hsome
    cases hsome

theorem Booked.fairOutcome (hb : Booked h s d) (hget : s.auctions.get id = some auction)
    (hclosed : auction.status ≠ .Open) :
    FairOutcome h s d id auction := by
  refine ⟨fun hsettled => (hb.settled id auction hget hsettled).1, ?_⟩
  by_cases hsettled : auction.status = .Settled
  · obtain ⟨-, best, hsole, hwinner, hreturned, hwithdrawals⟩ := hb.settled id auction hget hsettled
    refine ⟨some best, by simp [hsettled], ?_, fun investor => ?_⟩
    · intro best' hbest
      obtain rfl : best = best' := Option.some.inj hbest
      refine ⟨?_, hwinner, ?_, fun bid hmem _ => hsole.le hmem⟩
      · obtain ⟨before, after, hbids, -⟩ := hsole
        rw [hbids]
        simp
      · obtain ⟨_, _, -, -, -, hcovers, -⟩ := hsole
        exact hcovers
    · by_cases hwon : best.investor = investor
      · subst hwon
        have hdue : d.paid best.investor id - wonBy (some best) best.investor = 0 := by
          rw [hb.paid, hsole.staked]
          simp [wonBy]
        rw [hdue]
        refine .inr ⟨hreturned, by omega, fun signers s' hx => ?_⟩
        obtain ⟨auction', _, -, hget', -, -, -, hloser, -⟩ := withdrawBid_eq_ok.1 hx
        rw [hget] at hget'
        rw [← Option.some.inj hget'] at hloser
        exact hloser hwinner
      · have hdue : d.paid investor id - wonBy (some best) investor = d.paid investor id := by
          simp [wonBy, hwon]
        rw [hdue]
        apply hb.takesBack hget hclosed
        rw [hwinner]
        exact fun heq => hwon (Option.some.inj heq)
  · refine ⟨none, by simp [hsettled], by simp, fun investor => ?_⟩
    have hdue : d.paid investor id - wonBy none investor = d.paid investor id := by simp [wonBy]
    rw [hdue]
    apply hb.takesBack hget hclosed
    rw [hb.loser id auction hget hsettled]
    simp

end Keeping

/-- In every run whose settlements are called by the pool, after the bidding window, with a first
lowest bid that covers the principal and is the only bid of its investor, every auction that is no
longer open was closed fairly. -/
theorem auctions_close_fairly {h : Host W} {ledger : Pool.State W} {admin : Address}
    (hcash : ∀ token, 0 ≤ ledger.cash token h.self) {s : State W} {d : Dealings}
    (hrun : Reaches (track (exec h) (noteDealings h)) (SettlesFairly h)
      (initializeAuction ledger admin, {}) (s, d)) {auctionId : ℕ} {auction : InvoiceAuction}
    (hget : s.auctions.get auctionId = some auction) (hclosed : auction.status ≠ .Open) :
    FairOutcome h s d auctionId auction := by
  have hbooked : Booked h s d := by
    apply hrun.invariant (P := fun x => Booked h x.1 x.2) (booked_initial admin hcash)
    intro x tx y hb hfair hstep
    rw [track_eq_ok] at hstep
    obtain ⟨hx, hnote⟩ := hstep
    rw [hnote]
    exact booked_step hb hfair hx
  exact hbooked.fairOutcome hget hclosed

/-- Three bids for a principal of 100, of which two are one investor's. -/
def sampleBids : List (Tx sampleHost) :=
  [⟨[4], self_ne_four, .openInvoiceAuction 4 7 4 10 100 500 50⟩,
    ⟨[8], self_ne_eight, .placeBid 8 1 100 400⟩,
    ⟨[6], self_ne_six, .placeBid 6 1 120 300⟩,
    ⟨[8], self_ne_eight, .placeBid 8 1 50 600⟩,
    ⟨[], self_notMem_nil, .pool (.advance 60)⟩]

def sampleSettlement : Tx sampleHost := ⟨[0], by decide, .settleInvoiceAuction 0 1⟩

theorem auctions_close_fairly_settled :
    ∃ (x : State Unit × Dealings) (auction : InvoiceAuction),
      Reaches (track (exec sampleHost) (noteDealings sampleHost)) (SettlesFairly sampleHost)
        (sampleStart, {}) x ∧
      x.1.auctions.get 1 = some auction ∧ auction.winningBid = some 6 ∧ x.2.paid 8 1 = 150 ∧
      FairOutcome sampleHost x.1 x.2 1 auction := by
  obtain ⟨x, hx, hp⟩ := exists_of_check
    (x := sampleBids.foldlM (track (exec sampleHost) (noteDealings sampleHost)) (sampleStart, {}))
    (p := fun x => decide (x.1.ledger.now = 60 ∧
      x.1.bids 1 = [⟨1, 8, 100, 400⟩, ⟨1, 6, 120, 300⟩, ⟨1, 8, 50, 600⟩] ∧
      (x.1.auctions.get 1).map (fun a => (a.openedAt, a.durationSecs, a.principal)) =
        some (1, 50, 100) ∧
      check (track (exec sampleHost) (noteDealings sampleHost) x sampleSettlement) fun y =>
        decide (y.2.paid 8 1 = 150 ∧
          (y.1.auctions.get 1).map (fun a => (a.status, a.winningBid)) = some (.Settled, some 6))))
    (by decide)
  obtain ⟨htime, hbids, hauction, hsettle⟩ := of_decide_eq_true hp
  obtain ⟨y, hy, hq⟩ := exists_of_check hsettle
  obtain ⟨hpaid, hwinner⟩ := of_decide_eq_true hq
  have hbidding : Reaches (track (exec sampleHost) (noteDealings sampleHost))
      (SettlesFairly sampleHost) (sampleStart, {}) x := by
    refine reaches_of_along .refl (along_of_forall_mem fun tx hmem s => ?_) hx
    intro caller auctionId auction hcall
    simp only [sampleBids, List.mem_cons, List.not_mem_nil, or_false] at hmem
    rcases hmem with rfl | rfl | rfl | rfl | rfl <;> cases hcall
  have hfair : SettlesFairly sampleHost x sampleSettlement := by
    intro caller auctionId auction hcall hget
    obtain ⟨rfl, rfl⟩ : 0 = caller ∧ 1 = auctionId := by
      simpa [sampleSettlement] using hcall
    rw [hget, Option.map_some, Option.some.injEq, Prod.mk.injEq, Prod.mk.injEq] at hauction
    obtain ⟨hopened, hduration, hprincipal⟩ := hauction
    refine ⟨by decide, ?_, ⟨1, 6, 120, 300⟩, [⟨1, 8, 100, 400⟩], [⟨1, 8, 50, 600⟩], hbids, ?_⟩
    · rw [hopened, hduration, htime]
      decide
    · rw [hprincipal]
      decide
  have hrun := hbidding.next hfair hy
  obtain ⟨auction, hget, hresult⟩ := Option.map_eq_some_iff.1 hwinner
  obtain ⟨hstatus, hwon⟩ := Prod.mk.inj hresult
  have hcash : ∀ token, 0 ≤ sampleStart.ledger.cash token sampleHost.self := fun _ => le_rfl
  have hclosed : auction.status ≠ .Open := by
    rw [hstatus]
    decide
  exact ⟨y, auction, hrun, hget, hwon, hpaid, auctions_close_fairly hcash hrun hget hclosed⟩

/-- A bid below the principal has the lowest discount when a bystander settles the auction in the
name of the pool, in the first second of the bidding. -/
def earlySettlement : List (Tx sampleHost) :=
  [⟨[4], self_ne_four, .openInvoiceAuction 4 7 4 10 100 500 50⟩,
    ⟨[6], self_ne_six, .placeBid 6 1 70 300⟩,
    ⟨[8], self_ne_eight, .placeBid 8 1 100 400⟩,
    ⟨[9], self_ne_nine, .settleInvoiceAuction 0 1⟩]

theorem bystander_settles_auction :
    ∃ (x : State Unit × Dealings) (auction : InvoiceAuction),
      Reaches (track (exec sampleHost) (noteDealings sampleHost)) (fun _ _ => True)
        (sampleStart, {}) x ∧
      x.1.auctions.get 1 = some auction ∧ auction.status ≠ .Open ∧
      ¬ FairOutcome sampleHost x.1 x.2 1 auction := by
  obtain ⟨x, hx, hp⟩ := exists_of_check
    (x := earlySettlement.foldlM (track (exec sampleHost) (noteDealings sampleHost)) (sampleStart, {}))
    (p := fun x => decide (x.2.settlements = [⟨1, [9], 1⟩] ∧
      (x.1.auctions.get 1).map InvoiceAuction.status = some .Settled)) (by decide)
  obtain ⟨hlog, hsettled⟩ := of_decide_eq_true hp
  have hrun := reaches_of_along .refl (along_of_forall (fun _ _ => trivial) _ _) hx
  obtain ⟨auction, hget, hstatus⟩ := Option.map_eq_some_iff.1 hsettled
  refine ⟨x, auction, hrun, hget, by simp [hstatus], fun hfair => ?_⟩
  obtain ⟨settlement, hmem, -, hpool, -⟩ := hfair.authorized hstatus
  rw [hlog, List.mem_singleton] at hmem
  rw [hmem] at hpool
  revert hpool
  decide

end Astera.Auction
