import Astera.Proof.PriceTime

/-!
# Crossing orders

`place_order` holds the guard while it matches, and a fill takes it again.  So an order that meets a
counterparty traps, unless the price of the first fill cannot be represented.
-/

namespace Astera.Market

open Fallible Machine Greedy Transition

variable {W : Type}

structure Pass.Unfilled (p p' : Pass W) : Prop where
  taker : p'.taker = p.taker
  world : p'.state.world = p.state.world

section Locked

variable {h : Host W} {p : Pass W} {first : Order} {rest : List Order}

/-- With the guard taken, the loop excludes the taker's own orders and then meets the first
counterparty: that is by induction on the rounds, as each of them excludes an order. -/
theorem matchLoop_locked (h : Host W) :
    ∀ (fuel : ℕ) {p : Pass W}, p.Tracks (first :: rest) → p.state.reentrancyGuard = true →
      p.weight ≤ fuel → p.Open →
      match fillTotalPrice first.price (min p.taker.remaining first.remaining) with
      | none => ∃ p', matchLoop h fuel p = .ok p' ∧ p.Unfilled p'
      | some _ => matchLoop h fuel p = .error (.error .Reentrancy) := by
  intro fuel
  induction fuel with
  | zero =>
    intro p _ _ hweight hopen
    unfold Pass.weight at hweight
    unfold Pass.Open at hopen
    omega
  | succ fuel ih =>
    intro p htracks hguard hweight hopen
    cases hbest : p.found.best with
    | none => exact absurd (htracks.eq_nil hbest) (List.cons_ne_nil _ _)
    | some maker =>
      by_cases hown : maker.owner = p.taker.owner
      · have hround := matchRound_of_own (h := h) hbest hown
        obtain ⟨htracks₁, -⟩ := htracks.exclude hbest hown
        have hless := weight_lt_of_round htracks.indexed hopen hround
        have hrest := ih htracks₁ ((pruned_reentrancyGuard p).trans hguard) (by omega) hopen
        rw [(matchLoop_of_more hopen hround fuel).1]
        simp only at hrest
        split at hrest
        · obtain ⟨p', hloop, hunfilled⟩ := hrest
          exact ⟨p', hloop, hunfilled.taker, hunfilled.world.trans (pruned_world p)⟩
        · exact hrest
      · obtain ⟨rest', hcons⟩ := htracks.eq_cons hbest hown
        obtain ⟨rfl, -⟩ := List.cons.inj hcons
        have hround := matchRound_of_locked (h := h) hbest hown hguard
        cases hprice : fillTotalPrice first.price (min p.taker.remaining first.remaining) with
        | none =>
          rw [hprice] at hround
          exact ⟨_, (matchLoop_of_last hopen hround fuel).1, rfl, pruned_world p⟩
        | some totalPrice =>
          rw [hprice] at hround
          unfold Pass.Open at hopen
          simp only
          rw [matchLoop, if_pos hopen, hround]
          rfl

end Locked

/-! ## Placing an order -/

/-- A request passes the checks of `place_order`. -/
structure Valid (h : Host W) (signers : List Address) (s : State W) (owner : Address)
    (request : PlaceOrderRequest) (record : Pool.FundedInvoice) : Prop where
  auth : owner ∈ signers
  active : s.paused = false
  accepts : Accepts h s owner request record

/-- The call does not fail, and at least one fill of its order is settled. -/
def State.Trades (h : Host W) (signers : List Address) (s : State W) (owner : Address)
    (request : PlaceOrderRequest) : Prop :=
  ∃ s' id o, placeOrder h signers s owner request = .ok (s', id) ∧ s'.orders.get id = some o ∧
    o.remaining < o.amountOrBps

section Placing

variable {h : Host W} {signers : List Address} {s : State W} {owner : Address}
  {request : PlaceOrderRequest} {record : Pool.FundedInvoice}

theorem Accepts.locked (haccepts : Accepts h s owner request record) :
    Accepts h s.locked owner request record :=
  ⟨haccepts.amount, haccepts.price, haccepts.expiry, haccepts.room, haccepts.funded, haccepts.held,
    haccepts.numbered⟩

theorem restOrder_get (s : State W) (o : Order) : (s.restOrder o).orders.get o.orderId = some o := by
  rw [restOrder_orders, Store.get_set_self]

theorem restOrder_world (s : State W) (o : Order) : (s.restOrder o).world = s.world := by
  unfold State.restOrder
  split_ifs <;> rfl

theorem placeOrder_of_valid (hready : Ready s) (hvalid : Valid h signers s owner request record) :
    placeOrder h signers s owner request =
      (matchOrder h s.locked.numbered (s.incoming owner request record)).map fun x =>
        ((x.1.restOrder x.2.placed).nonReentrantEnd, s.orderCounter + 1) := by
  unfold placeOrder
  rw [(requireAuth_eq_ok (u := ())).2 hvalid.auth, ok_bind,
    (requireNotPaused_eq_ok (u := ())).2 hvalid.active, ok_bind,
    nonReentrantStart_eq_ok.2 ⟨hready.guard, rfl⟩, ok_bind]
  change (placeOrderBody h s.locked owner request >>= _) = _
  rw [placeOrderBody_of_accepts hvalid.accepts.locked]
  change (Except.map _ (matchOrder h s.locked.numbered (s.incoming owner request record)) >>= _) = _
  cases matchOrder h s.locked.numbered (s.incoming owner request record) <;> rfl

theorem placeOrder_locked (hready : Ready s) (hvalid : Valid h signers s owner request record)
    {first : Order} {rest : List Order}
    (hranked : s.ranked (s.incoming owner request record) = first :: rest) :
    match fillTotalPrice first.price (min request.amountOrBps first.remaining) with
    | none => ∃ s' id o, placeOrder h signers s owner request = .ok (s', id) ∧ s'.world = s.world ∧
        s'.orders.get id = some o ∧ o.remaining = o.amountOrBps
    | some _ => placeOrder h signers s owner request = .error (.error .Reentrancy) := by
  have hindexed : Indexed s.locked.numbered := by
    have hsame : SameRecords s s.locked := ⟨rfl, rfl, rfl, rfl, rfl, rfl, rfl, rfl⟩
    exact (hsame.indexed hready.indexed).number
  have htracks : Pass.Tracks { state := s.locked.numbered, taker := s.incoming owner request record }
      (first :: rest) := hranked ▸ tracks_start hindexed (s.incoming owner request record)
  have hweight : Pass.weight { state := s.locked.numbered, taker := s.incoming owner request record } ≤
      s.locked.numbered.matchFuel (s.incoming owner request record) := by
    simp [Pass.weight, Pass.place, State.matchFuel]
  have hopen : Pass.Open { state := s.locked.numbered, taker := s.incoming owner request record } :=
    ⟨Nat.pos_of_ne_zero hvalid.accepts.amount, Nat.zero_lt_succ 9⟩
  have hloop := matchLoop_locked h _ htracks rfl hweight hopen
  change match fillTotalPrice first.price (min request.amountOrBps first.remaining) with
    | none => _
    | some _ => _ at hloop
  rw [placeOrder_of_valid hready hvalid]
  unfold matchOrder
  cases hprice : fillTotalPrice first.price (min request.amountOrBps first.remaining) with
  | none =>
    rw [hprice] at hloop
    obtain ⟨p', hloop, htaker, hworld⟩ := hloop
    simp only at htaker hworld ⊢
    rw [hloop]
    refine ⟨_, _, p'.taker.placed, rfl, (restOrder_world _ _).trans hworld, ?_, ?_⟩
    · have hid : p'.taker.placed.orderId = s.orderCounter + 1 := by
        rw [htaker]
        rfl
      rw [← hid]
      exact restOrder_get _ _
    · rw [htaker]
      rfl
  | some totalPrice =>
    rw [hprice] at hloop
    simp only at hloop ⊢
    rw [hloop]
    rfl

end Placing

/-- An order that has a counterparty never trades: the call traps with `Reentrancy`, unless the total
price of the first fill cannot be represented, and then the order rests as it is. -/
theorem crossing_orders_do_not_trade (h : Host W) {now : ℕ} {world : W}
    {admin poolContract : Address} {s : State W}
    (hrun : Reaches (exec h) (fun _ _ => True) (initializeMarket now world admin poolContract) s)
    {signers : List Address} {owner : Address} {request : PlaceOrderRequest}
    {record : Pool.FundedInvoice} (hvalid : Valid h signers s owner request record) {maker : Order}
    (hmaker : s.Counterparty (s.incoming owner request record) maker) :
    ¬ s.Trades h signers owner request ∧
      ∃ first rest, s.ranked (s.incoming owner request record) = first :: rest ∧
        (fillTotalPrice first.price (min request.amountOrBps first.remaining) ≠ none →
          placeOrder h signers s owner request = .error (.error .Reentrancy)) := by
  have hready : Ready s := ready_of_reaches (ready_initial now world admin poolContract) hrun
  have hmem := (mem_ranked hready.indexed).2 hmaker
  obtain ⟨first, rest, hranked⟩ := List.exists_cons_of_ne_nil (List.ne_nil_of_mem hmem)
  have hplaced := placeOrder_locked hready hvalid hranked
  rw [hranked]
  cases hprice : fillTotalPrice first.price (min request.amountOrBps first.remaining) with
  | none =>
    rw [hprice] at hplaced
    obtain ⟨s', id, o, hcall, -, hget, hwhole⟩ := hplaced
    refine ⟨?_, first, rest, rfl, fun hsome => absurd hprice hsome⟩
    rintro ⟨s'', id', o', hcall', hget', hless⟩
    obtain ⟨rfl, rfl⟩ := Prod.mk.inj (Except.ok.inj (hcall.symm.trans hcall'))
    obtain rfl := Option.some.inj (hget.symm.trans hget')
    omega
  | some totalPrice =>
    rw [hprice] at hplaced
    refine ⟨?_, first, rest, rfl, fun _ => hplaced⟩
    rintro ⟨s', id, o, hcall, -⟩
    have hplaced' : placeOrder h signers s owner request = .error (.error .Reentrancy) := hplaced
    rw [hplaced'] at hcall
    cases hcall

/-- Account 6 bids for fifteen units of a position in invoice 9. -/
def crossingBid : PlaceOrderRequest := ⟨9, .SingleFunded, .Bid, 15, 2 * priceScale, 0⟩

def sampleRecord : Pool.FundedInvoice :=
  { invoiceId := 9, sme := 7, token := 2, principal := 100, fundedAt := 0, factoringFee := 0,
    dueDate := 5000, repaidAmount := 0, coFundingRoundId := none, lockedYieldBps := 0 }

/-- What is checked of the state after the ask: the bid is valid and the ask is a counterparty that
the pool would settle with. -/
def crosses (s : State Unit) : Bool :=
  decide (∃ maker ∈ s.orders.get 1,
    (s.paused = false ∧ s.orderCounter + 1 < 2 ^ 64 ∧
      (s.book (.Bid, bookKey 9 .SingleFunded)).length < maxOrdersPerBookSide) ∧
    (s.orders.get maker.orderId = some maker ∧
      maker.orderId ∈ s.book (.Ask, bookKey 9 .SingleFunded) ∧ ¬ maker.Stale s.now ∧
      maker.price ≤ 2 * priceScale ∧ maker.owner ≠ 6) ∧
    s.Fillable sampleHost (s.incoming 6 crossingBid sampleRecord) 15 maker)

theorem valid_of_crosses {s : State Unit} (h : crosses s = true) :
    Valid sampleHost [6] s 6 crossingBid sampleRecord ∧
      ∃ maker, s.Counterparty (s.incoming 6 crossingBid sampleRecord) maker ∧
        s.Fillable sampleHost (s.incoming 6 crossingBid sampleRecord) 15 maker := by
  obtain ⟨maker, -, ⟨hactive, hnumbered, hroom⟩, ⟨hstored, hbooked, hfresh, hwithin, hother⟩, hfill⟩ :=
    of_decide_eq_true h
  exact ⟨⟨by decide, hactive, by decide, by decide, fun h => h.1 rfl, hroom, rfl, nofun, hnumbered⟩, maker,
    ⟨hstored, hbooked, hfresh, hwithin, hother⟩, hfill⟩

theorem crossing_bid_does_not_trade :
    ∃ s, exec sampleHost sampleStart (askFor 9) = .ok s ∧
      ¬ s.Trades sampleHost [6] 6 crossingBid := by
  obtain ⟨s, hs, hp⟩ := exists_of_check (x := exec sampleHost sampleStart (askFor 9)) (p := crosses)
    (by decide)
  obtain ⟨hvalid, maker, hmaker, -⟩ := valid_of_crosses hp
  have hrun : Reaches (exec sampleHost) (fun _ _ => True) sampleStart s :=
    .next .refl trivial hs
  exact ⟨s, hs, (crossing_orders_do_not_trade sampleHost hrun hvalid hmaker).1⟩

/-- A bid for fifteen units meets an unexpired ask for ten that the pool would settle, and the call
traps with `Reentrancy`. -/
theorem crossing_bid_traps :
    ∃ s maker, exec sampleHost sampleStart (askFor 9) = .ok s ∧
      Valid sampleHost [6] s 6 crossingBid sampleRecord ∧
      s.Counterparty (s.incoming 6 crossingBid sampleRecord) maker ∧
      s.Fillable sampleHost (s.incoming 6 crossingBid sampleRecord) 15 maker ∧
      placeOrder sampleHost [6] s 6 crossingBid = .error (.error .Reentrancy) ∧
      ¬ s.Trades sampleHost [6] 6 crossingBid := by
  obtain ⟨s, hs, hp⟩ := exists_of_check (x := exec sampleHost sampleStart (askFor 9))
    (p := fun s => crosses s &&
      fails (placeOrder sampleHost [6] s 6 crossingBid) (.error .Reentrancy)) (by decide)
  obtain ⟨hcrosses, hfails⟩ := Bool.and_eq_true_iff.1 hp
  obtain ⟨hvalid, maker, hmaker, hfill⟩ := valid_of_crosses hcrosses
  have htraps := of_fails hfails
  refine ⟨s, maker, hs, hvalid, hmaker, hfill, htraps, ?_⟩
  rintro ⟨s', id, o, hcall, -⟩
  rw [htraps] at hcall
  cases hcall

end Astera.Market
