import Astera.Lib.Rounding
import Astera.Proof.CrossingOrders

/-!
# Limit prices

Every fill is paid at the maker's price, rounded up.  So a buyer who is filled in parts may pay one
unit more for each further part than the limit price of the whole, and a seller never receives less.
-/

namespace Astera.Market

open Fallible Machine Greedy Rounding Transition

variable {W : Type}

theorem priceScale_pos : 0 < priceScale := by decide

theorem fillTotalPrice_eq {price : ℤ} {fillQty : ℕ} {total : ℤ} (hprice : 0 ≤ price)
    (h : fillTotalPrice price fillQty = some total) : total = up (price * fillQty) priceScale := by
  simp only [fillTotalPrice, Option.bind_eq_bind, Option.bind_eq_some_iff, checkedMul_eq_some,
    checkedAdd_eq_some, checkedDiv_eq_some] at h
  obtain ⟨_, ⟨rfl, -⟩, _, ⟨rfl, -⟩, -, rfl, -⟩ := h
  have hmul : 0 ≤ price * (fillQty : ℤ) := mul_nonneg hprice (Int.natCast_nonneg _)
  exact Int.tdiv_eq_ediv_of_nonneg (by have := priceScale_pos; omega)

/-- A quantity that is filled at one price in parts. -/
structure Split (price : ℤ) (parts : List (ℕ × ℤ)) : Prop where
  ne : parts ≠ []
  priced : ∀ part ∈ parts, fillTotalPrice price part.1 = some part.2

theorem Split.bounds {price total : ℤ} {parts : List (ℕ × ℤ)} (hparts : Split price parts)
    (hprice : 0 ≤ price) (htotal : fillTotalPrice price (parts.map Prod.fst).sum = some total) :
    total ≤ (parts.map Prod.snd).sum ∧
      (parts.map Prod.snd).sum ≤ total + (parts.length - 1) := by
  have htotals : parts.map Prod.snd =
      (parts.map fun part => price * (part.1 : ℤ)).map fun a => up a priceScale := by
    rw [List.map_map]
    exact List.map_congr_left fun part hpart => fillTotalPrice_eq hprice (hparts.priced part hpart)
  have hsum : (parts.map fun part => price * (part.1 : ℤ)).sum =
      price * ((parts.map Prod.fst).sum : ℕ) := by
    rw [List.sum_map_mul_left, Nat.cast_list_sum, List.map_map]
    rfl
  rw [fillTotalPrice_eq hprice htotal, htotals, ← hsum]
  refine ⟨up_sum_le priceScale_pos _, ?_⟩
  have hupper := sum_up_le priceScale_pos (l := parts.map fun part => price * (part.1 : ℤ))
    (by simpa using hparts.ne) le_rfl
  simpa using hupper

/-! ## The trades of an order -/

/-- A fill, with the order that took it. -/
structure Trade where
  taker : ℕ
  fill : Fill

/-- The trades of an order, as taker and as maker. -/
def tradesOf (log : List Trade) (id : ℕ) : List Trade :=
  log.filter fun trade => trade.taker = id ∨ trade.fill.who.orderId = id

/-- The trades that the matching of a new order makes. -/
def placedTrades (h : Host W) (s : State W) (owner : Address) (request : PlaceOrderRequest) :
    List Trade :=
  match h.fundedInvoice s.world s.poolContract request.invoiceId with
  | none => []
  | some record =>
    (matchFills h s.numbered (s.incoming owner request record)).map fun fill =>
      ⟨s.orderCounter + 1, fill⟩

def callTrades (h : Host W) (s : State W) : Call W → List Trade
  | .placeOrder owner request => placedTrades h s.locked owner request
  | .matchOrder owner request => placedTrades h s owner request
  | _ => []

def noteTrades (h : Host W) (s : State W) (tx : Tx W) (_ : State W) (log : List Trade) :
    List Trade := log ++ callTrades h s tx.call

def traded (trades : List Trade) : ℕ := (trades.map fun trade => trade.fill.amount).sum

def paid (trades : List Trade) : ℤ := (trades.map fun trade => trade.fill.result).sum

/-- A trade at a price within the limit of an order. -/
structure Order.Priced (o : Order) (trade : Trade) : Prop where
  pos : 0 < trade.fill.who.price
  within : o.side.Within o.price trade.fill.who.price
  price : fillTotalPrice trade.fill.who.price trade.fill.amount = some trade.fill.result

/-- The trades account for what an order has traded, at prices within its limit. -/
structure Order.Accounted (o : Order) (trades : List Trade) : Prop where
  price : 0 < o.price
  conserved : o.amountOrBps = o.remaining + traded trades
  priced : ∀ trade ∈ trades, o.Priced trade

structure Accounted (s : State W) (log : List Trade) : Prop where
  ready : Ready s
  orders : ∀ id o, s.orders.get id = some o → o.Accounted (tradesOf log id)
  known : ∀ trade ∈ log, trade.taker ≤ s.orderCounter ∧ trade.fill.who.orderId ≤ s.orderCounter

theorem tradesOf_append (log log' : List Trade) (id : ℕ) :
    tradesOf (log ++ log') id = tradesOf log id ++ tradesOf log' id := List.filter_append ..

theorem traded_append (trades trades' : List Trade) :
    traded (trades ++ trades') = traded trades + traded trades' := by
  unfold traded
  rw [List.map_append, List.sum_append]

theorem tradesOf_eq_nil {log : List Trade} {id : ℕ}
    (h : ∀ trade ∈ log, trade.taker < id ∧ trade.fill.who.orderId < id) : tradesOf log id = [] := by
  refine List.filter_eq_nil_iff.2 fun trade htrade => ?_
  obtain ⟨htaker, hmaker⟩ := h trade htrade
  simp [htaker.ne, hmaker.ne]

section Fills

variable {fills : List Fill} {taker id : ℕ}

theorem tradesOf_taker : tradesOf (fills.map (Trade.mk id)) id = fills.map (Trade.mk id) :=
  List.filter_eq_self.2 fun trade htrade => by
    obtain ⟨fill, -, rfl⟩ := List.mem_map.1 htrade
    simp

theorem traded_maker (hne : id ≠ taker) :
    traded (tradesOf (fills.map (Trade.mk taker)) id) = filledBy fills id := by
  unfold traded tradesOf filledBy
  rw [List.filter_map, List.map_map]
  simp [Function.comp_def, hne.symm]

end Fills

section Locked

variable {h : Host W} {p p' : Pass W}

theorem matches_pruned (hs : Indexed p.state) : Matches p.state p.taker [] p.pruned p.taker where
  trimmed := (Pass.pruned_trims hs).trimmed
  takes := ⟨rfl, rfl⟩
  orders := fun id o hget => by
    rw [Pass.pruned_get hs, hget]
    split_ifs
    · exact ⟨o.lapsed, rfl, rfl, rfl⟩
    · exact ⟨o, rfl, rfl, rfl⟩
  makers := by simp
  price := by simp

theorem Matches.idle (p : Pass W) : Matches p.state p.taker [] p.state p.taker where
  trimmed := Trims.trimmed .refl
  takes := ⟨rfl, rfl⟩
  orders := fun _ o hget => ⟨o, hget, rfl, rfl⟩
  makers := by simp
  price := by simp

theorem Matches.unfilled_trans {s s₁ s₂ : State W} {taker taker' : Order}
    (h₁ : Matches s taker [] s₁ taker) (h₂ : Matches s₁ taker [] s₂ taker') :
    Matches s taker [] s₂ taker' where
  trimmed := h₁.trimmed.trans h₂.trimmed
  takes := h₂.takes
  orders := fun id o hget => by
    obtain ⟨o₁, hget₁, hterms₁, hremaining₁⟩ := h₁.orders id o hget
    obtain ⟨o₂, hget₂, hterms₂, hremaining₂⟩ := h₂.orders id o₁ hget₁
    refine ⟨o₂, hget₂, ?_, hremaining₁.trans hremaining₂⟩
    rw [hterms₂, hterms₁]
  makers := by simp
  price := by simp

theorem matchRound_locked {more : Bool} (hguard : p.state.reentrancyGuard = true)
    (hround : matchRound h p = .ok (p', more)) :
    p'.state = p.pruned ∧ p'.taker = p.taker ∧ roundFill h p = none := by
  cases hbest : p.found.best with
  | none =>
    rw [matchRound_of_none hbest] at hround
    obtain ⟨rfl, -⟩ := Prod.mk.inj (Except.ok.inj hround)
    exact ⟨rfl, rfl, roundFill_of_none hbest⟩
  | some maker =>
    by_cases hown : maker.owner = p.taker.owner
    · rw [matchRound_of_own hbest hown] at hround
      obtain ⟨rfl, -⟩ := Prod.mk.inj (Except.ok.inj hround)
      exact ⟨rfl, rfl, roundFill_of_own hbest hown⟩
    · rw [matchRound_of_locked hbest hown hguard] at hround
      cases hprice : fillTotalPrice maker.price (min p.taker.remaining maker.remaining) with
      | none =>
        rw [hprice] at hround
        obtain ⟨rfl, -⟩ := Prod.mk.inj (Except.ok.inj hround)
        refine ⟨rfl, rfl, ?_⟩
        rw [roundFill_of_other hbest hown, tryFill, hprice]
        rfl
      | some totalPrice =>
        rw [hprice] at hround
        cases hround

/-- With the guard taken, a loop that does not trap fills nothing: by induction on its rounds. -/
theorem matchLoop_unfilled (h : Host W) : ∀ (fuel : ℕ) {p p' : Pass W}, Indexed p.state →
    p.state.reentrancyGuard = true → matchLoop h fuel p = .ok p' →
      Matches p.state p.taker [] p'.state p'.taker ∧ matchFillsLoop h fuel p = [] := by
  intro fuel
  induction fuel with
  | zero =>
    rintro p _ - - ⟨⟩
    exact ⟨.idle p, rfl⟩
  | succ fuel ih =>
    intro p p' hs hguard hloop
    by_cases hopen : p.Open
    · cases hround : matchRound h p with
      | error e =>
        unfold Pass.Open at hopen
        rw [matchLoop, if_pos hopen, hround] at hloop
        cases hloop
      | ok x =>
        obtain ⟨p₁, more⟩ := x
        obtain ⟨hstate, htaker, hfill⟩ := matchRound_locked hguard hround
        have hfirst := matches_pruned hs
        cases more with
        | false =>
          obtain ⟨hlast, hfills⟩ := matchLoop_of_last hopen hround fuel
          obtain rfl := Except.ok.inj (hlast.symm.trans hloop)
          rw [hfills, hfill, hstate, htaker]
          exact ⟨hfirst, rfl⟩
        | true =>
          obtain ⟨hmore, hfills⟩ := matchLoop_of_more hopen hround fuel
          rw [hmore] at hloop
          obtain ⟨hrest, hnone⟩ := ih (hstate ▸ Pass.pruned_indexed hs)
            (hstate ▸ (pruned_reentrancyGuard p).trans hguard) hloop
          rw [hfills, hfill, hnone]
          rw [hstate, htaker] at hrest
          exact ⟨hfirst.unfilled_trans hrest, rfl⟩
    · obtain ⟨hdone, hfills⟩ := matchLoop_of_not_open (h := h) hopen (fuel + 1)
      obtain rfl := Except.ok.inj (hdone.symm.trans hloop)
      exact ⟨.idle p, hfills⟩

end Locked

/-- A call changes what remains of an order by the trades that it makes, and never its terms. -/
structure Settles (s s' : State W) (trades : List Trade) : Prop where
  counter : s.orderCounter ≤ s'.orderCounter
  known : ∀ trade ∈ trades,
    trade.taker ≤ s'.orderCounter ∧ trade.fill.who.orderId ≤ s'.orderCounter
  kept : ∀ id o', s'.orders.get id = some o' → id ≤ s.orderCounter → ∃ o,
    s.orders.get id = some o ∧ o' = { o with remaining := o'.remaining, status := o'.status } ∧
      o.remaining = o'.remaining + traded (tradesOf trades id)
  placed : ∀ id o', s'.orders.get id = some o' → s.orderCounter < id →
    0 < o'.price ∧ o'.amountOrBps = o'.remaining + traded (tradesOf trades id)
  priced : ∀ id o', s'.orders.get id = some o' → ∀ trade ∈ tradesOf trades id, o'.Priced trade

theorem settles_nil {s s' : State W} (hs : Indexed s) (hcounter : s'.orderCounter = s.orderCounter)
    (horders : ∀ id o', s'.orders.get id = some o' → ∃ o, s.orders.get id = some o ∧
      o' = { o with status := o'.status }) : Settles s s' [] where
  counter := hcounter.ge
  known := by simp
  kept := fun id o' hget _ => by
    obtain ⟨o, hget₀, hterms⟩ := horders id o' hget
    refine ⟨o, hget₀, ?_, ?_⟩
    · rw [hterms]
    · rw [hterms]
      rfl
  placed := fun id o' hget hlt => by
    obtain ⟨o, hget₀, -⟩ := horders id o' hget
    exact absurd (hs.orderId id o hget₀).2.2 hlt.not_ge
  priced := by simp [tradesOf]

theorem within_self (side : OrderSide) (price : ℤ) : side.Within price price := by
  cases side <;> exact le_rfl

theorem settles_matched {h : Host W} {s matched : State W} {owner : Address}
    {request : PlaceOrderRequest} {record : Pool.FundedInvoice} {fills : List Fill} {taker : Order}
    (hs : Indexed s) (hprices : ∀ id o, s.orders.get id = some o → 0 < o.price)
    (haccepts : Accepts h s owner request record)
    (hmatches : Matches s.numbered (s.incoming owner request record) fills matched taker) :
    Settles s (matched.restOrder taker.placed) (fills.map (Trade.mk (s.orderCounter + 1))) := by
  obtain ⟨htaker, htakes⟩ := hmatches.takes
  have hid : taker.placed.orderId = s.orderCounter + 1 := by
    rw [htaker]
    rfl
  have hcounter : (matched.restOrder taker.placed).orderCounter = s.orderCounter + 1 := by
    refine Eq.trans ?_ hmatches.trimmed.orderCounter
    unfold State.restOrder
    split_ifs <;> rfl
  have hget (id : ℕ) : (matched.restOrder taker.placed).orders.get id =
      if id = s.orderCounter + 1 then some taker.placed else matched.orders.get id := by
    rw [restOrder_orders, Store.get_set, hid]
  -- an order besides the new one was there before
  have hold {id : ℕ} {o' : Order} (hne : id ≠ s.orderCounter + 1)
      (hget' : (matched.restOrder taker.placed).orders.get id = some o') :
      ∃ o, s.orders.get id = some o ∧
        o' = { o with remaining := o'.remaining, status := o'.status } ∧
        o.remaining = o'.remaining + filledBy fills id := by
    rw [hget, if_neg hne] at hget'
    cases hget₀ : s.orders.get id with
    | none =>
      rw [hmatches.trimmed.fresh id hget₀] at hget'
      cases hget'
    | some o =>
      obtain ⟨o₁, hget₁, hterms, hremaining⟩ := hmatches.orders id o hget₀
      obtain rfl := Option.some.inj (hget₁.symm.trans hget')
      exact ⟨o, rfl, hterms, hremaining⟩
  refine ⟨hcounter ▸ Nat.le_succ _, fun trade htrade => ?_, fun id o' hget' hle => ?_,
    fun id o' hget' hlt => ?_, fun id o' hget' trade htrade => ?_⟩
  · obtain ⟨fill, hfill, rfl⟩ := List.mem_map.1 htrade
    have hle := (hs.orderId _ _ (hmatches.makers fill hfill).stored).2.2
    rw [hcounter]
    exact ⟨le_rfl, hle.trans (Nat.le_succ _)⟩
  · have hne : id ≠ s.orderCounter + 1 := by omega
    rw [traded_maker hne]
    exact hold hne hget'
  · by_cases hnew : id = s.orderCounter + 1
    · subst hnew
      rw [hget, if_pos rfl] at hget'
      obtain rfl := Option.some.inj hget'
      rw [tradesOf_taker]
      refine ⟨?_, ?_⟩
      · rw [htaker]
        exact haccepts.price
      · have hamount : taker.placed.amountOrBps = (s.incoming owner request record).remaining := by
          rw [htaker]
          rfl
        rw [hamount, htakes]
        unfold traded
        rw [List.map_map]
        rfl
    · obtain ⟨o, hget₀, -⟩ := hold hnew hget'
      exact absurd (hs.orderId id o hget₀).2.2 hlt.not_ge
  · obtain ⟨hmem, hparty⟩ := List.mem_filter.1 htrade
    obtain ⟨fill, hfill, rfl⟩ := List.mem_map.1 hmem
    have hmaker := hmatches.makers fill hfill
    refine ⟨hprices _ _ hmaker.stored, ?_, hmatches.price fill hfill⟩
    by_cases hnew : id = s.orderCounter + 1
    · rw [hget, if_pos hnew] at hget'
      obtain rfl := Option.some.inj hget'
      rw [htaker]
      exact hmaker.within
    · obtain ⟨o, hget₀, hterms, -⟩ := hold hnew hget'
      have hwho : fill.who.orderId = id := by
        rcases of_decide_eq_true hparty with htake | hmake
        · exact absurd htake.symm hnew
        · exact hmake
      have hsame : some fill.who = some o := by
        rw [← hget₀, ← hwho]
        exact hmaker.stored.symm
      obtain rfl := Option.some.inj hsame
      rw [hterms]
      exact within_self _ _

theorem placedTrades_of_funded {h : Host W} {s : State W} {owner : Address}
    {request : PlaceOrderRequest} {record : Pool.FundedInvoice}
    (hfunded : h.fundedInvoice s.world s.poolContract request.invoiceId = some record) :
    placedTrades h s owner request = (matchFills h s.numbered (s.incoming owner request record)).map
      (Trade.mk (s.orderCounter + 1)) := by
  unfold placedTrades
  rw [hfunded]

theorem exec_settles {h : Host W} {s s' : State W} {tx : Tx W} (hs : Ready s)
    (hprices : ∀ id o, s.orders.get id = some o → 0 < o.price) (hx : exec h s tx = .ok s') :
    Settles s s' (callTrades h s tx.call) := by
  have hstep := exec_orderStep hx
  generalize tx.call = call at hstep
  clear hx
  have hnone (hcall : call.places = false) : callTrades h s call = [] := by
    cases call <;> first | rfl | cases hcall
  cases hstep with
  | kept hcall horders hcounter hguard =>
    rw [hnone hcall]
    exact settles_nil hs.indexed hcounter fun id o' hget => ⟨o', horders ▸ hget, rfl⟩
  | @closed _ id order status hcall hget =>
    rw [hnone hcall]
    refine settles_nil hs.indexed rfl fun id' o' hget' => ?_
    obtain ⟨hid, -⟩ := hs.indexed.orderId id order hget
    change (s.orders.set order.orderId { order with status := status }).get id' = some o' at hget'
    rw [Store.get_set] at hget'
    split_ifs at hget' with hsame
    · obtain rfl := Option.some.inj hget'
      exact ⟨order, by rw [hsame, hid, hget], rfl⟩
    · exact ⟨o', hget', rfl⟩
  | @placed owner request _ hbody =>
    obtain ⟨record, matched, taker, haccepts, hmatch, rfl⟩ := placeOrderBody_matched hbody
    have hsame : SameRecords s s.locked := ⟨rfl, rfl, rfl, rfl, rfl, rfl, rfl, rfl⟩
    have hindexed : Indexed s.locked := hsame.indexed hs.indexed
    simp only [matchOrder, bind_eq_ok, pure_eq_ok, Prod.mk.injEq] at hmatch
    obtain ⟨p, hloop, rfl, rfl⟩ := hmatch
    obtain ⟨hmatches, hfills⟩ := matchLoop_unfilled h _ hindexed.number rfl hloop
    have hsettles := settles_matched hindexed hprices haccepts hmatches
    have htrades : callTrades h s (.placeOrder owner request) = [] := by
      rw [callTrades, placedTrades_of_funded haccepts.funded, matchFills, hfills]
      rfl
    rw [htrades]
    exact ⟨hsettles.counter, hsettles.known, hsettles.kept, hsettles.placed, hsettles.priced⟩
  | matched hbody =>
    obtain ⟨record, matched, taker, haccepts, hmatch, rfl⟩ := placeOrderBody_matched hbody
    obtain ⟨p', -, hmatch', hfills, hends⟩ := matchOrder_swept (s := s.numbered) h
      hs.indexed.number hs.guard (s.incoming _ _ record)
    obtain ⟨rfl, rfl⟩ := Prod.mk.inj (Except.ok.inj (hmatch'.symm.trans hmatch))
    rw [callTrades, placedTrades_of_funded haccepts.funded, hfills]
    exact settles_matched hs.indexed hprices haccepts
      (matches_of_ends hs.indexed.number hmatch hends)

/-! ## The totals -/

theorem Accounted.step {h : Host W} {x y : State W × List Trade} {tx : Tx W}
    (hx : Accounted x.1 x.2) (hstep : track (exec h) (noteTrades h) x tx = .ok y) :
    Accounted y.1 y.2 := by
  obtain ⟨s, log⟩ := x
  obtain ⟨s', log'⟩ := y
  obtain ⟨hexec, hlog⟩ := (track_eq_ok _ _ _ _ _).1 hstep
  simp only at hexec hlog
  subst hlog
  have hsettles : Settles s s' (callTrades h s tx.call) :=
    exec_settles hx.ready (fun id o hget => (hx.orders id o hget).price) hexec
  refine ⟨hx.ready.step hexec, fun id o' hget => ?_, fun trade htrade => ?_⟩
  · have hpriced := hsettles.priced id o' hget
    change o'.Accounted (tradesOf (log ++ callTrades h s tx.call) id)
    by_cases hid : id ≤ s.orderCounter
    · obtain ⟨o, hget₀, hterms, hremaining⟩ := hsettles.kept id o' hget hid
      obtain ⟨hprice, hconserved, hpriced₀⟩ := hx.orders id o hget₀
      rw [tradesOf_append]
      refine ⟨?_, ?_, fun trade htrade => ?_⟩
      · rw [hterms]
        exact hprice
      · have hamount : o'.amountOrBps = o.amountOrBps := by rw [hterms]
        rw [hamount, traded_append]
        simp only at hconserved
        omega
      · rcases List.mem_append.1 htrade with hbefore | hnow
        · obtain ⟨hpos, hwithin, htotal⟩ := hpriced₀ trade hbefore
          exact ⟨hpos, by rw [hterms]; exact hwithin, htotal⟩
        · exact hpriced trade hnow
    · have hold : tradesOf log id = [] := tradesOf_eq_nil fun trade htrade => by
        obtain ⟨htaker, hmaker⟩ := hx.known trade htrade
        simp only at htaker hmaker
        omega
      obtain ⟨hprice, hconserved⟩ := hsettles.placed id o' hget (not_le.1 hid)
      rw [tradesOf_append, hold, List.nil_append]
      exact ⟨hprice, hconserved, hpriced⟩
  · rcases List.mem_append.1 htrade with hbefore | hnow
    · obtain ⟨htaker, hmaker⟩ := hx.known trade hbefore
      exact ⟨htaker.trans hsettles.counter, hmaker.trans hsettles.counter⟩
    · exact hsettles.known trade hnow

structure Order.WithinLimit (o : Order) (trades : List Trade) : Prop where
  bid : o.side = .Bid → trades ≠ [] →
    paid trades ≤ up (o.price * o.amountOrBps) priceScale + (trades.length - 1)
  ask : o.side = .Ask → o.price * traded trades / priceScale ≤ paid trades
  sold : o.side = .Ask → o.remaining = 0 → o.price * o.amountOrBps / priceScale ≤ paid trades

section Totals

variable {o : Order} {trades : List Trade}

theorem paid_eq (hpriced : ∀ trade ∈ trades, o.Priced trade) :
    paid trades = (trades.map fun trade =>
      up (trade.fill.who.price * trade.fill.amount) priceScale).sum := by
  unfold paid
  congr 1
  exact List.map_congr_left fun trade htrade =>
    fillTotalPrice_eq (hpriced trade htrade).pos.le (hpriced trade htrade).price

theorem sum_at_limit (price : ℤ) (trades : List Trade) :
    (trades.map fun trade => price * (trade.fill.amount : ℤ)).sum = price * traded trades := by
  unfold traded
  rw [List.sum_map_mul_left, Nat.cast_list_sum, List.map_map]
  rfl

theorem Order.Accounted.withinLimit (h : o.Accounted trades) : o.WithinLimit trades := by
  have hpaid := paid_eq h.priced
  have hask (hside : o.side = .Ask) : o.price * traded trades / priceScale ≤ paid trades := by
    have hfloor : o.price * traded trades / priceScale ≤ up (o.price * traded trades) priceScale :=
      Int.ediv_le_ediv priceScale_pos (by have := priceScale_pos; omega)
    have hparts := up_sum_le priceScale_pos (trades.map fun trade => o.price * (trade.fill.amount : ℤ))
    rw [sum_at_limit, List.map_map] at hparts
    refine hfloor.trans (hparts.trans (hpaid ▸ List.sum_le_sum fun trade htrade => ?_))
    have hwithin := (h.priced trade htrade).within
    rw [hside] at hwithin
    exact up_mono priceScale_pos (mul_le_mul_of_nonneg_right hwithin (Int.natCast_nonneg _))
  refine ⟨fun hside hne => ?_, hask, fun hside hsold => ?_⟩
  · have hwhole : o.price * (traded trades : ℤ) ≤ o.price * o.amountOrBps := by
      have := h.conserved
      exact mul_le_mul_of_nonneg_left (by omega) h.price.le
    have hparts := sum_up_le priceScale_pos
      (l := trades.map fun trade => o.price * (trade.fill.amount : ℤ)) (by simpa using hne)
      (sum_at_limit o.price trades ▸ hwhole)
    rw [List.map_map, List.length_map] at hparts
    refine le_trans (hpaid ▸ List.sum_le_sum fun trade htrade => ?_) hparts
    have hwithin := (h.priced trade htrade).within
    rw [hside] at hwithin
    exact up_mono priceScale_pos (mul_le_mul_of_nonneg_right hwithin (Int.natCast_nonneg _))
  · have hall : o.amountOrBps = traded trades := by
      have := h.conserved
      omega
    rw [hall]
    exact hask hside

end Totals

/-- In every run the trades account for every order.  A bid that was filled in several parts pays at
most one unit more for each further part than its limit price of the whole, and an ask receives at least
its limit price of what it sold. -/
theorem limit_price_bounds_totals (h : Host W) {now : ℕ} {world : W} {admin poolContract : Address}
    {s : State W} {log : List Trade}
    (hrun : Reaches (track (exec h) (noteTrades h)) (fun _ _ => True)
      (initializeMarket now world admin poolContract, []) (s, log)) :
    (∀ id o, s.orders.get id = some o →
      o.Accounted (tradesOf log id) ∧ o.WithinLimit (tradesOf log id)) ∧
    ∀ price parts total, 0 ≤ price → Split price parts →
      fillTotalPrice price (parts.map Prod.fst).sum = some total →
        total ≤ (parts.map Prod.snd).sum ∧
          (parts.map Prod.snd).sum ≤ total + (parts.length - 1) := by
  have hstart : Accounted (initializeMarket now world admin poolContract) [] :=
    ⟨ready_initial now world admin poolContract, nofun, nofun⟩
  have haccounted : Accounted s log :=
    hrun.invariant (P := fun x => Accounted x.1 x.2) hstart fun _ _ _ hx _ hstep => hx.step hstep
  refine ⟨fun id o hget => ?_, fun price parts total hprice hparts htotal => ?_⟩
  · have ho := haccounted.orders id o hget
    exact ⟨ho, ho.withinLimit⟩
  · exact hparts.bounds hprice htotal

/-- Two asks for one unit at half a token, and a bid for two units at that price. -/
def halfTokens : List (Tx Unit) :=
  [⟨[5], .placeOrder 5 ⟨9, .SingleFunded, .Ask, 1, priceScale / 2, 0⟩⟩,
    ⟨[5], .placeOrder 5 ⟨9, .SingleFunded, .Ask, 1, priceScale / 2, 0⟩⟩,
    ⟨[6], .matchOrder 6 ⟨9, .SingleFunded, .Bid, 2, priceScale / 2, 0⟩⟩]

theorem exists_halfTokens :
    ∃ s log o, Reaches (track (exec sampleHost) (noteTrades sampleHost)) (fun _ _ => True)
        (sampleStart, []) (s, log) ∧ s.orders.get 3 = some o ∧
      (o.side = .Bid ∧ o.price = priceScale / 2 ∧ o.amountOrBps = 2) ∧
      (tradesOf log 3).map (fun trade => (trade.fill.who.price, trade.fill.result)) =
        [(priceScale / 2, 1), (priceScale / 2, 1)] := by
  obtain ⟨⟨s, log⟩, hs, hp⟩ := exists_of_check
    (x := halfTokens.foldlM (track (exec sampleHost) (noteTrades sampleHost)) (sampleStart, []))
    (p := fun x => decide (∃ o ∈ x.1.orders.get 3,
      (o.side = .Bid ∧ o.price = priceScale / 2 ∧ o.amountOrBps = 2) ∧
      (tradesOf x.2 3).map (fun trade => (trade.fill.who.price, trade.fill.result)) =
        [(priceScale / 2, 1), (priceScale / 2, 1)])) (by decide)
  obtain ⟨o, hget, hterms, htrades⟩ := of_decide_eq_true hp
  exact ⟨s, log, o, reaches_of_along .refl (along_of_forall (fun _ _ => trivial) _ _) hs, hget, hterms,
    htrades⟩

theorem limit_price_bounds_halfTokens :
    ∃ s log o, Reaches (track (exec sampleHost) (noteTrades sampleHost)) (fun _ _ => True)
        (sampleStart, []) (s, log) ∧ s.orders.get 3 = some o ∧ o.side = .Bid ∧
      (tradesOf log 3).length = 2 ∧ o.Accounted (tradesOf log 3) ∧ o.WithinLimit (tradesOf log 3) ∧
      [(1 : ℤ), 1].sum ≤ 1 + (2 - 1) := by
  obtain ⟨s, log, o, hrun, hget, ⟨hside, -⟩, htrades⟩ := exists_halfTokens
  obtain ⟨hbounds, hparts⟩ := limit_price_bounds_totals sampleHost hrun
  obtain ⟨haccounted, hwithin⟩ := hbounds 3 o hget
  have hsplit : Split (priceScale / 2) [(1, 1), (1, 1)] :=
    ⟨List.cons_ne_nil _ _, by decide⟩
  refine ⟨s, log, o, hrun, hget, hside, ?_, haccounted, hwithin,
    (hparts (priceScale / 2) _ 1 (by decide) hsplit (by decide)).2⟩
  rw [← List.length_map, htrades]
  rfl

/-- The bid for two units at half a token pays two units, in two parts, where one fill costs one. -/
theorem bid_pays_for_rounding :
    ∃ s log o, Reaches (track (exec sampleHost) (noteTrades sampleHost)) (fun _ _ => True)
        (sampleStart, []) (s, log) ∧ s.orders.get 3 = some o ∧ o.side = .Bid ∧
      (∀ trade ∈ tradesOf log 3, trade.fill.who.price ≤ o.price) ∧
      up (o.price * o.amountOrBps) priceScale < paid (tradesOf log 3) ∧
      ∃ total, fillTotalPrice o.price o.amountOrBps = some total ∧ total < paid (tradesOf log 3) := by
  obtain ⟨s, log, o, hrun, hget, ⟨hside, hprice, hamount⟩, htrades⟩ := exists_halfTokens
  have hpaid : paid (tradesOf log 3) = 2 := by
    have hresults := congrArg (List.map Prod.snd) htrades
    rw [List.map_map] at hresults
    exact congrArg List.sum hresults
  refine ⟨s, log, o, hrun, hget, hside, fun trade htrade => ?_, ?_, 1, ?_, ?_⟩
  · have hmem := List.mem_map_of_mem (f := fun trade : Trade =>
      (trade.fill.who.price, trade.fill.result)) htrade
    rw [htrades] at hmem
    simp at hmem
    rw [hprice, hmem.1]
  · rw [hpaid, hprice, hamount]
    decide
  · rw [hprice, hamount]
    decide
  · rw [hpaid]
    decide

end Astera.Market
