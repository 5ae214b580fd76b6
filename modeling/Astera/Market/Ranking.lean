import Astera.Lib.Greedy
import Astera.Market.Steps

/-!
# Counterparties in order

The orders that a taker can trade with, best price first and then by age, and the matching as a
sweep over them, which says what `matchFills` collects without scanning the book round by round.
-/

namespace Astera.Market

open Fallible Machine Greedy Index Transition
open Pool (ListingSettlement)

variable {W : Type}

/-! ## Fills -/

/-- The settlement that a fill asks the pool for. -/
def settlement (taker maker : Order) (fillQty : ℕ) (totalPrice : ℤ) : ListingSettlement where
  buyer := (parties taker maker).1
  seller := (parties taker maker).2
  invoiceId := taker.invoiceId
  isCoFunding := decide (taker.kind = .CoFunding)
  amountOrBps := fillQty
  price := totalPrice

/-- The total price of a fill and the world after it; nothing when the price cannot be represented or
the pool refuses. -/
def tryFill (h : Host W) (pool : Address) (taker : Order) (world : W) (maker : Order) (fillQty : ℕ) :
    Option (ℤ × W) := do
  let totalPrice ← fillTotalPrice maker.price fillQty
  let world ← h.settleListing world pool (settlement taker maker fillQty totalPrice)
  return (totalPrice, world)

/-- A fill: the maker as it was before, the quantity and the total price. -/
abbrev Fill := Turn Order ℤ

namespace Pass

variable (p : Pass W)

/-- What a round finds on the other side. -/
def found : Found := (p.state.book p.place).foldl (p.state.scanCandidate p.taker p.excluded) {}

/-- The state after a round has removed what has expired. -/
def pruned : State W := p.found.expired.foldl State.pruneExpired p.state

def fill (maker : Order) (fillQty : ℕ) (world : W) : Pass W :=
  { p with
    state := { p.pruned with world := world }.fillMaker (maker.filled fillQty)
    taker := { p.taker with remaining := p.taker.remaining - fillQty }
    matchesMade := p.matchesMade + 1 }

end Pass

def roundFill (h : Host W) (p : Pass W) : Option Fill := do
  let maker ← p.found.best
  if maker.owner = p.taker.owner then none
  else do
    let fillQty := min p.taker.remaining maker.remaining
    let x ← tryFill h p.pruned.poolContract p.taker p.pruned.world maker fillQty
    return ⟨maker, fillQty, x.1⟩

/-- The `ord_fill` events of the loop of `match_order`. -/
def matchFillsLoop (h : Host W) : ℕ → Pass W → List Fill
  | 0, _ => []
  | fuel + 1, p =>
    if 0 < p.taker.remaining ∧ p.matchesMade < maxMatchesPerCall then
      match matchRound h p with
      | .error _ => []
      | .ok (p', more) =>
        (roundFill h p).toList ++ if more then matchFillsLoop h fuel p' else []
    else []

def matchFills (h : Host W) (s : State W) (taker : Order) : List Fill :=
  matchFillsLoop h (s.matchFuel taker) { state := s, taker := taker }

/-! ## The cases of a round -/

section Round

variable {h : Host W} {p : Pass W} {maker : Order}

theorem parties_eq_iff (taker maker : Order) :
    (parties taker maker).1 = (parties taker maker).2 ↔ maker.owner = taker.owner := by
  unfold parties
  cases taker.side with
  | Bid => exact eq_comm
  | Ask => exact Iff.rfl

theorem pruneExpired_keeps (s : State W) (id : ℕ) :
    (s.pruneExpired id).world = s.world ∧ (s.pruneExpired id).poolContract = s.poolContract ∧
      (s.pruneExpired id).reentrancyGuard = s.reentrancyGuard ∧
      (s.pruneExpired id).now = s.now := by
  unfold State.pruneExpired
  split <;> exact ⟨rfl, rfl, rfl, rfl⟩

theorem prune_keeps : ∀ (ids : List ℕ) (s : State W),
    (ids.foldl State.pruneExpired s).world = s.world ∧
      (ids.foldl State.pruneExpired s).poolContract = s.poolContract ∧
      (ids.foldl State.pruneExpired s).reentrancyGuard = s.reentrancyGuard ∧
      (ids.foldl State.pruneExpired s).now = s.now := by
  intro ids
  induction ids with
  | nil =>
    intro s
    exact ⟨rfl, rfl, rfl, rfl⟩
  | cons id ids ih =>
    intro s
    obtain ⟨hworld, hpool, hguard, hnow⟩ := pruneExpired_keeps s id
    obtain ⟨hworlds, hpools, hguards, hnows⟩ := ih (s.pruneExpired id)
    exact ⟨hworlds.trans hworld, hpools.trans hpool, hguards.trans hguard, hnows.trans hnow⟩

@[simp]
theorem pruned_world (p : Pass W) : p.pruned.world = p.state.world := (prune_keeps _ _).1

@[simp]
theorem pruned_poolContract (p : Pass W) : p.pruned.poolContract = p.state.poolContract :=
  (prune_keeps _ _).2.1

@[simp]
theorem pruned_reentrancyGuard (p : Pass W) :
    p.pruned.reentrancyGuard = p.state.reentrancyGuard :=
  (prune_keeps _ _).2.2.1

@[simp]
theorem pruned_now (p : Pass W) : p.pruned.now = p.state.now := (prune_keeps _ _).2.2.2

theorem matchRound_eq (h : Host W) (p : Pass W) :
    matchRound h p =
      match p.found.best with
      | none => .ok ({ p with state := p.pruned }, false)
      | some maker =>
        if maker.owner = p.taker.owner then
          .ok ({ p with state := p.pruned, excluded := p.excluded ++ [maker.orderId] }, true)
        else
          match fillTotalPrice maker.price (min p.taker.remaining maker.remaining) with
          | none => .ok ({ p with state := p.pruned, matchesMade := p.matchesMade + 1 }, false)
          | some totalPrice => do
              let (s, settled) ← p.pruned.settleFill h
                (settlement p.taker maker (min p.taker.remaining maker.remaining) totalPrice)
              if settled then
                return ({ p with
                  matchesMade := p.matchesMade + 1
                  state := s.fillMaker (maker.filled (min p.taker.remaining maker.remaining))
                  taker := { p.taker with
                    remaining := p.taker.remaining - min p.taker.remaining maker.remaining } }, true)
              else return ({ p with state := s, matchesMade := p.matchesMade + 1 }, false) := by
  unfold matchRound
  change (match p.found.best with | none => _ | some maker => _) = _
  cases p.found.best with
  | none => rfl
  | some maker =>
    have hparties := parties_eq_iff p.taker maker
    dsimp only
    by_cases hself : maker.owner = p.taker.owner
    · rw [if_pos (hparties.2 hself), if_pos hself]
      rfl
    · rw [if_neg fun heq => hself (hparties.1 heq), if_neg hself]
      rfl

theorem matchRound_of_none (hbest : p.found.best = none) :
    matchRound h p = .ok ({ p with state := p.pruned }, false) := by
  rw [matchRound_eq, hbest]

theorem matchRound_of_own (hbest : p.found.best = some maker) (hown : maker.owner = p.taker.owner) :
    matchRound h p =
      .ok ({ p with state := p.pruned, excluded := p.excluded ++ [maker.orderId] }, true) := by
  rw [matchRound_eq, hbest]
  exact if_pos hown

theorem matchRound_of_locked (hbest : p.found.best = some maker)
    (hother : maker.owner ≠ p.taker.owner) (hguard : p.state.reentrancyGuard = true) :
    matchRound h p =
      match fillTotalPrice maker.price (min p.taker.remaining maker.remaining) with
      | none => .ok ({ p with state := p.pruned, matchesMade := p.matchesMade + 1 }, false)
      | some _ => .error (.error .Reentrancy) := by
  rw [matchRound_eq, hbest]
  dsimp only
  rw [if_neg hother]
  cases fillTotalPrice maker.price (min p.taker.remaining maker.remaining) with
  | none => rfl
  | some totalPrice =>
    have hlocked : ¬ p.pruned.reentrancyGuard = false := by simp [hguard]
    simp only [State.settleFill, State.nonReentrantStart, require, if_neg hlocked]
    rfl

theorem settleFill_of_free {s : State W} (hfree : s.reentrancyGuard = false)
    (settlement : ListingSettlement) :
    s.settleFill h settlement =
      match h.settleListing s.world s.poolContract settlement with
      | none => .ok (s, false)
      | some world => .ok ({ s with world := world }, true) := by
  cases s
  subst hfree
  unfold State.settleFill State.nonReentrantStart
  simp only [require, if_true, ok_bind, pure_bind]
  cases h.settleListing _ _ settlement with
  | none => rfl
  | some world => rfl

theorem matchRound_of_free (hbest : p.found.best = some maker)
    (hother : maker.owner ≠ p.taker.owner) (hguard : p.state.reentrancyGuard = false) :
    matchRound h p =
      match tryFill h p.pruned.poolContract p.taker p.pruned.world maker
        (min p.taker.remaining maker.remaining) with
      | none => .ok ({ p with state := p.pruned, matchesMade := p.matchesMade + 1 }, false)
      | some x => .ok (p.fill maker (min p.taker.remaining maker.remaining) x.2, true) := by
  have hfree : p.pruned.reentrancyGuard = false := by simp [hguard]
  rw [matchRound_eq, hbest]
  dsimp only
  rw [if_neg hother]
  unfold tryFill
  cases fillTotalPrice maker.price (min p.taker.remaining maker.remaining) with
  | none => rfl
  | some totalPrice =>
    dsimp only [Option.bind_eq_bind, Option.bind_some]
    rw [settleFill_of_free hfree]
    cases h.settleListing p.pruned.world p.pruned.poolContract (settlement p.taker maker
      (min p.taker.remaining maker.remaining) totalPrice) with
    | none => rfl
    | some world => rfl

end Round

/-! ## What the scan misses -/

section Better

variable {a b c : Order} {side : OrderSide}

theorem Order.Better.trans (hab : a.Better b side) (hbc : b.Better c side) : a.Better c side := by
  unfold Order.Better OrderSide.Improves at *
  cases side with
  | Bid => simp only at *; omega
  | Ask => simp only at *; omega

theorem Order.Better.asymm (hab : a.Better b side) : ¬ b.Better a side := by
  unfold Order.Better OrderSide.Improves at *
  cases side with
  | Bid => simp only at *; omega
  | Ask => simp only at *; omega

theorem Order.better_of_not (hid : a.orderId ≠ b.orderId) (h : ¬ b.Better a side) :
    a.Better b side := by
  unfold Order.Better OrderSide.Improves at *
  cases side with
  | Bid => simp only at *; omega
  | Ask => simp only at *; omega

theorem Order.not_better_trans (hab : ¬ b.Better a side) (hbc : ¬ c.Better b side) :
    ¬ c.Better a side := by
  unfold Order.Better OrderSide.Improves at *
  cases side with
  | Bid => simp only at *; omega
  | Ask => simp only at *; omega

end Better

section Scan

variable {s : State W} {taker : Order} {excluded : List ℕ}

/-- The scan of `seen` misses nothing: whatever can be matched is not better than the best candidate,
and all expired orders are found. -/
structure Found.Complete (s : State W) (taker : Order) (excluded seen : List ℕ) (found : Found) :
    Prop where
  best : ∀ id ∈ seen, id ∉ excluded → ∀ c, s.orders.get id = some c → c.status.Live →
    ¬ c.Stale s.now → taker.side.Within taker.price c.price →
      ∃ m, found.best = some m ∧ ¬ c.Better m taker.side
  expired : ∀ id, id ∈ found.expired ↔ id ∈ seen ∧ id ∉ excluded ∧
    ∃ o, s.orders.get id = some o ∧ o.status.Live ∧ o.Stale s.now

theorem Found.Complete.pass {seen : List ℕ} {found : Found} {id : ℕ}
    (hfound : found.Complete s taker excluded seen)
    (hid : id ∉ excluded → ∀ c, s.orders.get id = some c → c.status.Live →
      ¬ c.Stale s.now ∧ (taker.side.Within taker.price c.price →
        ∃ m, found.best = some m ∧ ¬ c.Better m taker.side)) :
    found.Complete s taker excluded (seen ++ [id]) := by
  constructor
  · intro i hi hexcluded c hget hlive hfresh hwithin
    rcases List.mem_append.1 hi with hi | hi
    · exact hfound.best i hi hexcluded c hget hlive hfresh hwithin
    · rw [List.mem_singleton] at hi
      subst hi
      exact (hid hexcluded c hget hlive).2 hwithin
  · intro i
    rw [hfound.expired i, List.mem_append, List.mem_singleton]
    refine ⟨fun h => ⟨.inl h.1, h.2⟩, fun h => ?_⟩
    obtain ⟨hi | rfl, hexcluded, o, hget, hlive, hstale⟩ := h
    · exact ⟨hi, hexcluded, o, hget, hlive, hstale⟩
    · exact absurd hstale (hid hexcluded o hget hlive).1

theorem Found.Complete.expire {seen : List ℕ} {found : Found} {id : ℕ} {candidate : Order}
    (hfound : found.Complete s taker excluded seen) (hexcluded : id ∉ excluded)
    (hget : s.orders.get id = some candidate) (hlive : candidate.status.Live)
    (hstale : candidate.Stale s.now) :
    Found.Complete s taker excluded (seen ++ [id])
      { found with expired := found.expired ++ [id] } := by
  constructor
  · intro i hi hout c hc hc' hfresh hwithin
    rcases List.mem_append.1 hi with hi | hi
    · exact hfound.best i hi hout c hc hc' hfresh hwithin
    · rw [List.mem_singleton] at hi
      subst hi
      obtain rfl := Option.some.inj (hget.symm.trans hc)
      exact absurd hstale hfresh
  · intro i
    simp only [List.mem_append, List.mem_singleton, hfound.expired i]
    constructor
    · rintro (⟨hi, hrest⟩ | rfl)
      · exact ⟨.inl hi, hrest⟩
      · exact ⟨.inr rfl, hexcluded, candidate, hget, hlive, hstale⟩
    · rintro ⟨hi | rfl, hrest⟩
      · exact .inl ⟨hi, hrest⟩
      · exact .inr rfl

theorem Found.Complete.choose {seen : List ℕ} {found : Found} {id : ℕ} {candidate : Order}
    (hfound : found.Complete s taker excluded seen) (hget : s.orders.get id = some candidate)
    (hfresh : ¬ candidate.Stale s.now)
    (hbest : ∀ m, found.best = some m → candidate.Better m taker.side) :
    Found.Complete s taker excluded (seen ++ [id]) { found with best := some candidate } := by
  constructor
  · intro i hi hexcluded c hc hlive hnot hwithin
    refine ⟨candidate, rfl, ?_⟩
    rcases List.mem_append.1 hi with hi | hi
    · obtain ⟨m, hm, hworse⟩ := hfound.best i hi hexcluded c hc hlive hnot hwithin
      exact fun hbetter => hworse (hbetter.trans (hbest m hm))
    · rw [List.mem_singleton] at hi
      subst hi
      obtain rfl := Option.some.inj (hget.symm.trans hc)
      exact fun hself => hself.asymm hself
  · intro i
    rw [hfound.expired i, List.mem_append, List.mem_singleton]
    refine ⟨fun h => ⟨.inl h.1, h.2⟩, fun h => ?_⟩
    obtain ⟨hi | rfl, hexcluded, o, ho, hlive, hstale⟩ := h
    · exact ⟨hi, hexcluded, o, ho, hlive, hstale⟩
    · obtain rfl := Option.some.inj (hget.symm.trans ho)
      exact absurd hstale hfresh

theorem Found.Complete.scanCandidate {seen : List ℕ} {found : Found}
    (hfound : found.Complete s taker excluded seen) (id : ℕ) :
    (s.scanCandidate taker excluded found id).Complete s taker excluded (seen ++ [id]) := by
  unfold State.scanCandidate
  by_cases hexcluded : id ∈ excluded
  · rw [if_pos hexcluded]
    exact hfound.pass fun hnot => absurd hexcluded hnot
  rw [if_neg hexcluded]
  cases hget : s.orders.get id with
  | none => exact hfound.pass fun _ c hc => by simp [hget] at hc
  | some candidate =>
    have honly (c : Order) (hc : s.orders.get id = some c) : candidate = c :=
      Option.some.inj (hget.symm.trans hc)
    dsimp only
    by_cases hlive : candidate.status.Live
    · rw [if_neg (not_not.2 hlive)]
      by_cases hstale : candidate.Stale s.now
      · rw [if_pos hstale]
        exact hfound.expire hexcluded hget hlive hstale
      rw [if_neg hstale]
      by_cases hwithin : taker.side.Within taker.price candidate.price
      · rw [if_neg (not_not.2 hwithin)]
        cases hbest : found.best with
        | none => exact hfound.choose hget hstale fun m hm => by simp [hbest] at hm
        | some current =>
          dsimp only
          split_ifs with hbetter
          · refine hfound.choose hget hstale fun m hm => ?_
            exact Option.some.inj (hbest.symm.trans hm) ▸ hbetter
          · refine hfound.pass fun _ c hc _ => ?_
            obtain rfl := honly c hc
            exact ⟨hstale, fun _ => ⟨current, hbest, hbetter⟩⟩
      · rw [if_pos hwithin]
        refine hfound.pass fun _ c hc _ => ?_
        obtain rfl := honly c hc
        exact ⟨hstale, fun hin => absurd hin hwithin⟩
    · rw [if_pos hlive]
      refine hfound.pass fun _ c hc hc' => ?_
      obtain rfl := honly c hc
      exact absurd hc' hlive

theorem scan_complete (s : State W) (taker : Order) (excluded : List ℕ) :
    ∀ (ids seen : List ℕ) (found : Found), found.Complete s taker excluded seen →
      (ids.foldl (s.scanCandidate taker excluded) found).Complete s taker excluded (seen ++ ids) := by
  intro ids
  induction ids with
  | nil =>
    intro seen found hfound
    rwa [List.append_nil]
  | cons id ids ih =>
    intro seen found hfound
    have hrest := ih (seen ++ [id]) _ (hfound.scanCandidate id)
    rwa [List.append_assoc, List.singleton_append] at hrest

end Scan

theorem Pass.found_sound (p : Pass W) :
    p.found.Sound p.state p.taker p.excluded (p.state.book p.place) :=
  scan_sound p.state p.taker p.excluded _

theorem Pass.found_complete (p : Pass W) :
    p.found.Complete p.state p.taker p.excluded (p.state.book p.place) :=
  scan_complete p.state p.taker p.excluded _ [] {}
    ⟨fun _ hi => by simp at hi, fun _ => by simp⟩

/-! ## Pruning -/

def Order.lapsed (o : Order) : Order := { o with status := .Expired }

theorem pruneExpired_get {s : State W} (hs : Indexed s) (id id' : ℕ) :
    (s.pruneExpired id).orders.get id' =
      if id' = id then (s.orders.get id').map Order.lapsed else s.orders.get id' := by
  unfold State.pruneExpired
  cases hget : s.orders.get id with
  | none =>
    split_ifs with heq
    · rw [heq, hget]
      rfl
    · rfl
  | some order =>
    obtain ⟨hid, -⟩ := hs.orderId id order hget
    change (s.orders.set order.orderId order.lapsed).get id' = _
    rw [hid, Store.get_set]
    split_ifs with heq
    · rw [heq, hget]
      rfl
    · rfl

theorem prune_get : ∀ (ids : List ℕ) {s : State W}, Indexed s → ∀ id,
    (ids.foldl State.pruneExpired s).orders.get id =
      if id ∈ ids then (s.orders.get id).map Order.lapsed else s.orders.get id := by
  intro ids
  induction ids with
  | nil =>
    intro s _ id
    simp
  | cons i ids ih =>
    intro s hs id
    rw [List.foldl_cons, ih ((pruneExpired_cases hs i).1.indexed hs), pruneExpired_get hs]
    have htwice : Order.lapsed ∘ Order.lapsed = Order.lapsed := rfl
    by_cases hi : id = i
    · simp [hi, Option.map_map, htwice]
    · simp [hi]

namespace Pass

variable {p : Pass W}

theorem pruned_get (hs : Indexed p.state) (id : ℕ) :
    p.pruned.orders.get id =
      if id ∈ p.found.expired then (p.state.orders.get id).map Order.lapsed
      else p.state.orders.get id :=
  prune_get _ hs id

theorem pruned_trims (hs : Indexed p.state) : Trims p.state p.pruned := (prune_trims _ hs).1

theorem pruned_indexed (hs : Indexed p.state) : Indexed p.pruned := (pruned_trims hs).indexed hs

theorem pruned_get_live (hs : Indexed p.state) {id : ℕ} {o : Order}
    (hget : p.pruned.orders.get id = some o) (hlive : o.status.Live) :
    p.state.orders.get id = some o ∧ id ∉ p.found.expired := by
  rw [pruned_get hs] at hget
  split_ifs at hget with hexpired
  · obtain ⟨o', -, rfl⟩ := Option.map_eq_some_iff.1 hget
    have hdead : ¬ OrderStatus.Expired.Live := by decide
    exact absurd hlive hdead
  · exact ⟨hget, hexpired⟩

theorem pruned_get_fresh (hs : Indexed p.state) {id : ℕ} {o : Order}
    (hget : p.state.orders.get id = some o) (hfresh : ¬ o.Stale p.state.now) :
    p.pruned.orders.get id = some o := by
  rw [pruned_get hs, if_neg, hget]
  intro hexpired
  obtain ⟨-, -, o', hget', -, hstale⟩ := (p.found_complete.expired id).1 hexpired
  exact hfresh (Option.some.inj (hget'.symm.trans hget) ▸ hstale)

/-- No order on the other side is expired, other than those that are excluded. -/
def Clean (p : Pass W) : Prop :=
  ∀ id ∈ p.state.book p.place, id ∉ p.excluded → ∀ o, p.state.orders.get id = some o →
    o.status.Live → ¬ o.Stale p.state.now

theorem Clean.pruned (h : p.Clean) : p.pruned = p.state := by
  have hnone : p.found.expired = [] := by
    refine List.eq_nil_iff_forall_not_mem.2 fun id hid => ?_
    obtain ⟨hbook, hexcluded, o, hget, hlive, hstale⟩ := (p.found_complete.expired id).1 hid
    exact h id hbook hexcluded o hget hlive hstale
  unfold Pass.pruned
  rw [hnone]
  rfl

theorem clean_of_pruned (hs : Indexed p.state) {p' : Pass W} (hplace : p'.place = p.place)
    (hnow : p'.state.now = p.state.now) (hexcluded : p.excluded ⊆ p'.excluded)
    (hindexed : Indexed p'.state)
    (hlive : ∀ id o, p'.state.orders.get id = some o → o.status.Live → o.Stale p.state.now →
      p.pruned.orders.get id = some o) : p'.Clean := by
  intro id hbook hout o hget ho hstale
  rw [hnow] at hstale
  obtain ⟨hget', hkept⟩ := pruned_get_live hs (hlive id o hget ho hstale) ho
  rw [hplace, hindexed.byPlace.mem_iff] at hbook
  obtain ⟨o', ho', hplace', hresting⟩ := hbook
  obtain rfl := Option.some.inj (hget.symm.trans ho')
  have hbefore : id ∈ p.state.book p.place :=
    (hs.byPlace.mem_iff _ _).2 ⟨o, hget', hplace', hresting⟩
  exact hkept ((p.found_complete.expired id).2
    ⟨hbefore, fun hin => hout (hexcluded hin), o, hget', ho, hstale⟩)

end Pass

/-- An order that a taker can trade with: it rests on the other side of its book, its time is not over,
its price is within the limit, and it is somebody else's. -/
structure State.Counterparty (s : State W) (taker maker : Order) : Prop where
  stored : s.orders.get maker.orderId = some maker
  booked : maker.orderId ∈ s.book (taker.side.opposite, bookKey taker.invoiceId taker.kind)
  fresh : ¬ maker.Stale s.now
  within : taker.side.Within taker.price maker.price
  other : maker.owner ≠ taker.owner

/-- The counterparties of a taker, best first. -/
def State.ranked (s : State W) (taker : Order) : List Order :=
  (((s.book (taker.side.opposite, bookKey taker.invoiceId taker.kind)).filterMap
    s.orders.get).filter fun maker => ¬ maker.Stale s.now ∧
      taker.side.Within taker.price maker.price ∧ maker.owner ≠ taker.owner).insertionSort
    fun a b => ¬ b.Better a taker.side

section Ranked

variable {s : State W} {taker maker : Order}

theorem counterparty_iff (hs : Indexed s) :
    s.Counterparty taker maker ↔ s.orders.get maker.orderId = some maker ∧
      maker.place = (taker.side.opposite, bookKey taker.invoiceId taker.kind) ∧
      maker.resting = true ∧ ¬ maker.Stale s.now ∧ taker.side.Within taker.price maker.price ∧
      maker.owner ≠ taker.owner := by
  constructor
  · intro h
    obtain ⟨o, hget, hplace, hresting⟩ := (hs.byPlace.mem_iff _ _).1 h.booked
    obtain rfl := Option.some.inj (h.stored.symm.trans hget)
    exact ⟨hget, hplace, hresting, h.fresh, h.within, h.other⟩
  · rintro ⟨hget, hplace, hresting, hfresh, hwithin, hother⟩
    exact ⟨hget, (hs.byPlace.mem_iff _ _).2 ⟨maker, hget, hplace, hresting⟩, hfresh, hwithin, hother⟩

theorem mem_ranked (hs : Indexed s) : maker ∈ s.ranked taker ↔ s.Counterparty taker maker := by
  unfold State.ranked
  rw [List.mem_insertionSort, List.mem_filter, List.mem_filterMap, decide_eq_true_eq]
  constructor
  · rintro ⟨⟨id, hid, hget⟩, hfresh, hwithin, hother⟩
    obtain ⟨rfl, -⟩ := hs.orderId id maker hget
    exact ⟨hget, hid, hfresh, hwithin, hother⟩
  · intro h
    exact ⟨⟨maker.orderId, h.booked, h.stored⟩, h.fresh, h.within, h.other⟩

theorem pairwise_ranked (hs : Indexed s) :
    (s.ranked taker).Pairwise fun a b => a.Better b taker.side := by
  have htotal : Std.Total fun a b : Order => ¬ b.Better a taker.side := by
    refine ⟨fun a b => ?_⟩
    by_contra hboth
    obtain ⟨hba, hab⟩ := not_or.1 hboth
    exact (not_not.1 hba).asymm (not_not.1 hab)
  have htrans : IsTrans Order fun a b => ¬ b.Better a taker.side :=
    ⟨fun _ _ _ => Order.not_better_trans⟩
  have hsorted : (s.ranked taker).Pairwise fun a b => ¬ b.Better a taker.side :=
    List.pairwise_insertionSort _ _
  have hnodup : (s.ranked taker).Nodup := by
    refine (List.perm_insertionSort _ _).nodup_iff.2 (List.Nodup.filter _ ?_)
    refine List.Nodup.filterMap (fun id id' o hid hid' => ?_) (hs.byPlace.nodup _)
    exact (hs.orderId id o hid).1.symm.trans (hs.orderId id' o hid').1
  refine (hsorted.and hnodup).imp_of_mem fun {a b} ha hb h => ?_
  refine Order.better_of_not (fun hid => h.2 ?_) h.1
  have hstored := ((mem_ranked hs).1 ha).stored
  rw [hid, ((mem_ranked hs).1 hb).stored] at hstored
  exact (Option.some.inj hstored).symm

end Ranked

/-! ## The loop as a sweep -/

/-- The pass goes through a ranked list: these are the counterparties that are left. -/
structure Pass.Tracks (p : Pass W) (ranked : List Order) : Prop where
  indexed : Indexed p.state
  sorted : ranked.Pairwise fun a b => a.Better b p.taker.side
  mem : ∀ maker, maker ∈ ranked ↔ p.state.Counterparty p.taker maker
  own : ∀ id ∈ p.excluded, ∃ o, p.state.orders.get id = some o ∧ o.owner = p.taker.owner

theorem tracks_start {s : State W} (hs : Indexed s) (taker : Order) :
    Pass.Tracks { state := s, taker := taker } (s.ranked taker) where
  indexed := hs
  sorted := pairwise_ranked hs
  mem _ := mem_ranked hs
  own _ hid := by simp at hid

namespace Pass.Tracks

variable {p : Pass W} {ranked : List Order} {maker : Order}

theorem eq_nil (h : p.Tracks ranked) (hbest : p.found.best = none) : ranked = [] := by
  refine List.eq_nil_iff_forall_not_mem.2 fun c hc => ?_
  have hcounter := (h.mem c).1 hc
  have hout : c.orderId ∉ p.excluded := by
    intro hin
    obtain ⟨o, hget, hown⟩ := h.own _ hin
    exact hcounter.other (Option.some.inj (hcounter.stored.symm.trans hget) ▸ hown)
  have hresting := ((counterparty_iff h.indexed).1 hcounter).2.2.1
  obtain ⟨m, hm, -⟩ := p.found_complete.best _ hcounter.booked hout c hcounter.stored
    ((Order.resting_iff c).1 hresting).1 hcounter.fresh hcounter.within
  simp [hbest] at hm

theorem found_stored (h : p.Tracks ranked) (hbest : p.found.best = some maker) :
    p.state.orders.get maker.orderId = some maker ∧ maker.orderId ∈ p.state.book p.place ∧
      maker.status.Live ∧ ¬ maker.Stale p.state.now ∧
      p.taker.side.Within p.taker.price maker.price := by
  obtain ⟨id, hid, -, hget, hlive, hfresh, hwithin⟩ := p.found_sound.best maker hbest
  obtain ⟨rfl, -⟩ := h.indexed.orderId id maker hget
  exact ⟨hget, hid, hlive, hfresh, hwithin⟩

theorem eq_cons (h : p.Tracks ranked) (hbest : p.found.best = some maker)
    (hother : maker.owner ≠ p.taker.owner) : ∃ rest, ranked = maker :: rest := by
  obtain ⟨hget, hid, hlive, hfresh, hwithin⟩ := h.found_stored hbest
  have hmem : maker ∈ ranked := (h.mem maker).2 ⟨hget, hid, hfresh, hwithin, hother⟩
  cases ranked with
  | nil => simp at hmem
  | cons first rest =>
    refine ⟨rest, ?_⟩
    rcases List.mem_cons.1 hmem with rfl | hrest
    · rfl
    · -- the first is better than the best one
      have hbetter := (List.pairwise_cons.1 h.sorted).1 maker hrest
      have hfirst := (h.mem first).1 List.mem_cons_self
      have hout : first.orderId ∉ p.excluded := by
        intro hin
        obtain ⟨o, ho, hown⟩ := h.own _ hin
        exact hfirst.other (Option.some.inj (hfirst.stored.symm.trans ho) ▸ hown)
      have hresting := ((counterparty_iff h.indexed).1 hfirst).2.2.1
      obtain ⟨m, hm, hworse⟩ := p.found_complete.best _ hfirst.booked hout first hfirst.stored
        ((Order.resting_iff first).1 hresting).1 hfirst.fresh hfirst.within
      obtain rfl := Option.some.inj (hbest.symm.trans hm)
      exact absurd hbetter hworse

theorem counterparty_pruned (h : p.Tracks ranked) (taker : Order) :
    p.pruned.Counterparty taker maker ↔ p.state.Counterparty taker maker := by
  have hpruned := Pass.pruned_indexed h.indexed
  rw [counterparty_iff hpruned, counterparty_iff h.indexed, pruned_now]
  constructor
  · rintro ⟨hget, hplace, hresting, hrest⟩
    exact ⟨(Pass.pruned_get_live h.indexed hget ((Order.resting_iff _).1 hresting).1).1, hplace,
      hresting, hrest⟩
  · rintro ⟨hget, hplace, hresting, hfresh, hrest⟩
    exact ⟨Pass.pruned_get_fresh h.indexed hget hfresh, hplace, hresting, hfresh, hrest⟩

theorem own_pruned (h : p.Tracks ranked) :
    ∀ id ∈ p.excluded, ∃ o, p.pruned.orders.get id = some o ∧ o.owner = p.taker.owner := by
  intro id hid
  obtain ⟨o, hget, hown⟩ := h.own id hid
  rw [Pass.pruned_get h.indexed]
  split_ifs
  · exact ⟨o.lapsed, by rw [hget]; rfl, hown⟩
  · exact ⟨o, hget, hown⟩

theorem prune (h : p.Tracks ranked) (matchesMade : ℕ) :
    Pass.Tracks { p with state := p.pruned, matchesMade := matchesMade } ranked where
  indexed := Pass.pruned_indexed h.indexed
  sorted := h.sorted
  mem maker := (h.mem maker).trans (h.counterparty_pruned p.taker).symm
  own := h.own_pruned

theorem exclude (h : p.Tracks ranked) (hbest : p.found.best = some maker)
    (hown : maker.owner = p.taker.owner) :
    Pass.Tracks { p with state := p.pruned, excluded := p.excluded ++ [maker.orderId] } ranked ∧
      Pass.Clean { p with state := p.pruned, excluded := p.excluded ++ [maker.orderId] } := by
  obtain ⟨hget, -, -, hfresh, -⟩ := h.found_stored hbest
  have hindexed := Pass.pruned_indexed h.indexed
  refine ⟨⟨hindexed, h.sorted, (h.prune p.matchesMade).mem, fun id hid => ?_⟩, ?_⟩
  · rcases List.mem_append.1 hid with hid | hid
    · exact h.own_pruned id hid
    · rw [List.mem_singleton.1 hid]
      exact ⟨maker, Pass.pruned_get_fresh h.indexed hget hfresh, hown⟩
  · exact Pass.clean_of_pruned h.indexed rfl (pruned_now p) (List.subset_append_left _ _) hindexed
      fun _ _ ho _ _ => ho

end Pass.Tracks

theorem fillMaker_orders (s : State W) (maker : Order) :
    (s.fillMaker maker).orders = s.orders.set maker.orderId maker := by
  unfold State.fillMaker
  split_ifs <;> rfl

theorem fillMaker_world (s : State W) (maker : Order) (world : W) :
    { s.fillMaker maker with world := world } = { s with world := world }.fillMaker maker := by
  unfold State.fillMaker
  split_ifs <;> rfl

theorem fillMaker_keeps (s : State W) (maker : Order) :
    (s.fillMaker maker).world = s.world ∧ (s.fillMaker maker).poolContract = s.poolContract ∧
      (s.fillMaker maker).reentrancyGuard = s.reentrancyGuard ∧ (s.fillMaker maker).now = s.now := by
  unfold State.fillMaker
  split_ifs <;> exact ⟨rfl, rfl, rfl, rfl⟩

theorem Order.filled_all (maker : Order) :
    maker.filled maker.remaining = { maker with remaining := 0, status := .Filled } := by
  unfold Order.filled
  simp

section FillStep

variable {p : Pass W} {rest : List Order} {maker : Order}

theorem fill_indexed (hs : Indexed p.state) (hget : p.state.orders.get maker.orderId = some maker)
    (hlive : maker.status.Live) (hfresh : ¬ maker.Stale p.state.now) (fillQty : ℕ) (world : W) :
    Indexed (p.fill maker fillQty world).state := by
  have hsame : SameRecords p.pruned { p.pruned with world := world } :=
    ⟨rfl, rfl, rfl, rfl, rfl, rfl, rfl, rfl⟩
  have hget' : ({ p.pruned with world := world } : State W).orders.get maker.orderId = some maker :=
    Pass.pruned_get_fresh hs hget hfresh
  exact (fillMaker_trim hget' hlive fillQty).indexed (hsame.indexed (Pass.pruned_indexed hs))

theorem Pass.Tracks.fill (h : p.Tracks (maker :: rest)) (hbest : p.found.best = some maker)
    (world : W) :
    (p.fill maker maker.remaining world).Tracks rest ∧
      (p.fill maker maker.remaining world).Clean := by
  obtain ⟨hget, -, hlive, hfresh, -⟩ := h.found_stored hbest
  have hindexed := fill_indexed h.indexed hget hlive hfresh maker.remaining world
  have hpruned := Pass.pruned_indexed h.indexed
  obtain ⟨hbetter, hsorted⟩ := List.pairwise_cons.1 h.sorted
  have horders (id : ℕ) : (p.fill maker maker.remaining world).state.orders.get id =
      if id = maker.orderId then some (maker.filled maker.remaining)
      else p.pruned.orders.get id := by
    unfold Pass.fill
    rw [fillMaker_orders]
    exact Store.get_set _ _ _ _
  have hnow : (p.fill maker maker.remaining world).state.now = p.state.now :=
    (fillMaker_keeps _ _).2.2.2.trans (pruned_now p)
  have hdead : (maker.filled maker.remaining).resting = false := by
    rw [Order.filled_all]
    rfl
  refine ⟨⟨hindexed, hsorted, fun c => ?_, fun id hid => ?_⟩, ?_⟩
  · rw [counterparty_iff hindexed, horders, hnow]
    have hold := (h.mem c).trans (h.counterparty_pruned p.taker).symm
    rw [counterparty_iff hpruned, pruned_now] at hold
    constructor
    · intro hc
      have hne : c.orderId ≠ maker.orderId := by
        intro heq
        have hstored := ((h.mem c).1 (List.mem_cons_of_mem _ hc)).stored
        rw [heq, hget] at hstored
        obtain rfl := Option.some.inj hstored
        exact (hbetter maker hc).asymm (hbetter maker hc)
      rw [if_neg hne]
      exact hold.1 (List.mem_cons_of_mem _ hc)
    · rintro ⟨hc, hplace, hresting, hrest⟩
      split_ifs at hc with heq
      · rw [← Option.some.inj hc, hdead] at hresting
        cases hresting
      · rcases List.mem_cons.1 (hold.2 ⟨hc, hplace, hresting, hrest⟩) with rfl | hmem
        · exact absurd rfl heq
        · exact hmem
  · obtain ⟨o, ho, hown⟩ := h.own_pruned id hid
    rw [horders]
    split_ifs with heq
    · rw [heq] at ho
      obtain rfl := Option.some.inj ((Pass.pruned_get_fresh h.indexed hget hfresh).symm.trans ho)
      exact ⟨_, rfl, hown⟩
    · exact ⟨o, ho, hown⟩
  · refine Pass.clean_of_pruned h.indexed rfl hnow (List.Subset.refl _) hindexed
      fun id o ho hlive' _ => ?_
    rw [horders] at ho
    split_ifs at ho with heq
    · obtain rfl := Option.some.inj ho
      rw [Order.filled_all] at hlive'
      have hfilled : ¬ OrderStatus.Filled.Live := by decide
      exact absurd hlive' hfilled
    · exact ho

end FillStep

/-! ## The whole loop -/

def State.fillTurn (s : State W) (fill : Fill) : State W := s.fillMaker (fill.who.filled fill.amount)

def Pass.swept (h : Host W) (p : Pass W) (ranked : List Order) : Swept W Order ℤ :=
  sweep Order.remaining (tryFill h p.state.poolContract p.taker) (maxMatchesPerCall - p.matchesMade)
    p.state.world p.taker.remaining ranked

def Pass.Open (p : Pass W) : Prop := 0 < p.taker.remaining ∧ p.matchesMade < maxMatchesPerCall

instance (p : Pass W) : Decidable p.Open := inferInstanceAs (Decidable (_ ∧ _))

/-- The state in which the fills of the rest of a pass are made. -/
def Pass.base (p : Pass W) : State W := if p.Open then p.pruned else p.state

theorem Pass.Clean.base {p : Pass W} (h : p.Clean) : p.base = p.state := by
  unfold Pass.base
  split_ifs
  · exact h.pruned
  · rfl

/-- The loop does what the sweep says. -/
structure Pass.Ends (p : Pass W) (ranked : List Order) (swept : Swept W Order ℤ) (p' : Pass W) :
    Prop where
  state : p'.state = swept.turns.foldl State.fillTurn { p.base with world := swept.state }
  taker : p'.taker = { p.taker with remaining := swept.left }
  matchesMade : p'.matchesMade = p.matchesMade + swept.attempts
  /-- What is left of the list is what is left on the book. -/
  tracks : 0 < swept.left → p'.Tracks (ranked.drop swept.turns.length)

theorem foldl_fillTurn_world (fills : List Fill) (s : State W) (fill : Fill) (world : W) :
    fills.foldl State.fillTurn { s.fillTurn fill with world := world } =
      (fill :: fills).foldl State.fillTurn { s with world := world } := by
  rw [List.foldl_cons]
  unfold State.fillTurn
  rw [fillMaker_world]

section Loop

variable {h : Host W} {p : Pass W} {ranked rest : List Order} {maker : Order}

theorem swept_of_not_open (hopen : ¬ p.Open) :
    p.swept h ranked = { state := p.state.world, left := p.taker.remaining } := by
  unfold Pass.swept
  refine sweep_of_done ?_
  unfold Pass.Open at hopen
  omega

theorem ends_of_not_open (htracks : p.Tracks ranked) (hopen : ¬ p.Open) :
    p.Ends ranked (p.swept h ranked) p := by
  rw [swept_of_not_open hopen]
  refine ⟨?_, rfl, rfl, fun _ => htracks⟩
  simp only [List.foldl_nil, Pass.base, if_neg hopen]

theorem ends_of_pruned (attempts : ℕ) (htracks : p.Tracks ranked) (hopen : p.Open) :
    p.Ends ranked { attempts := attempts, state := p.state.world, left := p.taker.remaining }
      { p with state := p.pruned, matchesMade := p.matchesMade + attempts } := by
  refine ⟨?_, rfl, rfl, fun _ => htracks.prune _⟩
  simp only [List.foldl_nil, Pass.base, if_pos hopen, ← pruned_world p]

theorem swept_of_failed (hopen : p.Open)
    (hfailed : tryFill h p.state.poolContract p.taker p.state.world maker
      (min p.taker.remaining maker.remaining) = none) :
    p.swept h (maker :: rest) =
      { attempts := 1, state := p.state.world, left := p.taker.remaining } := by
  unfold Pass.Open at hopen
  exact sweep_of_failed (by omega) (by omega) hfailed

theorem swept_of_filled (hopen : p.Open) {totalPrice : ℤ} {world : W}
    (hfilled : tryFill h p.state.poolContract p.taker p.state.world maker
      (min p.taker.remaining maker.remaining) = some (totalPrice, world)) :
    p.swept h (maker :: rest) =
      { (p.fill maker (min p.taker.remaining maker.remaining) world).swept h rest with
        turns := ⟨maker, min p.taker.remaining maker.remaining, totalPrice⟩ ::
          ((p.fill maker (min p.taker.remaining maker.remaining) world).swept h rest).turns
        attempts :=
          ((p.fill maker (min p.taker.remaining maker.remaining) world).swept h rest).attempts + 1 } := by
  have hkeeps := fillMaker_keeps { p.pruned with world := world }
    (maker.filled (min p.taker.remaining maker.remaining))
  have hworld : (p.fill maker (min p.taker.remaining maker.remaining) world).state.world = world :=
    hkeeps.1
  have hpool : (p.fill maker (min p.taker.remaining maker.remaining) world).state.poolContract =
      p.state.poolContract := hkeeps.2.1.trans (pruned_poolContract p)
  have hturns : maxMatchesPerCall -
      (p.fill maker (min p.taker.remaining maker.remaining) world).matchesMade =
        maxMatchesPerCall - p.matchesMade - 1 := by
    unfold Pass.fill
    simp only
    omega
  unfold Pass.Open at hopen
  unfold Pass.swept
  rw [sweep_of_served (by omega) (by omega) hfilled, hworld, hpool, hturns]
  rfl

theorem Pass.Ends.fill {p' : Pass W} {fillQty : ℕ} {totalPrice : ℤ} {world : W}
    {swept : Swept W Order ℤ} (hopen : p.Open)
    (hbase : (p.fill maker fillQty world).base = (p.fill maker fillQty world).state)
    (hends : (p.fill maker fillQty world).Ends rest swept p') :
    p.Ends (maker :: rest)
      { swept with
        turns := ⟨maker, fillQty, totalPrice⟩ :: swept.turns
        attempts := swept.attempts + 1 } p' := by
  refine ⟨?_, hends.taker, ?_, hends.tracks⟩
  · rw [hends.state, hbase]
    unfold Pass.base
    rw [if_pos hopen, ← foldl_fillTurn_world]
    unfold Pass.fill State.fillTurn
    simp only [fillMaker_world]
  · rw [hends.matchesMade]
    unfold Pass.fill
    simp only
    omega

theorem ends_of_exhausted (totalPrice : ℤ) (world : W) (hopen : p.Open)
    (hless : p.taker.remaining ≤ maker.remaining) :
    p.Ends (maker :: rest)
      { ({ state := (p.fill maker (min p.taker.remaining maker.remaining) world).state.world,
           left := (p.fill maker (min p.taker.remaining maker.remaining) world).taker.remaining } :
            Swept W Order ℤ) with
        turns := [⟨maker, min p.taker.remaining maker.remaining, totalPrice⟩]
        attempts := 0 + 1 }
      (p.fill maker (min p.taker.remaining maker.remaining) world) := by
  refine ⟨?_, rfl, rfl, fun hleft => ?_⟩
  · unfold Pass.base
    rw [if_pos hopen]
    have hworld : (p.fill maker (min p.taker.remaining maker.remaining) world).state.world = world :=
      (fillMaker_keeps _ _).1
    simp only [hworld]
    rfl
  · simp only [Pass.fill] at hleft
    omega

theorem roundFill_of_none (hbest : p.found.best = none) : roundFill h p = none := by
  unfold roundFill
  rw [hbest]
  rfl

theorem roundFill_of_own (hbest : p.found.best = some maker)
    (hown : maker.owner = p.taker.owner) : roundFill h p = none := by
  unfold roundFill
  rw [hbest]
  exact if_pos hown

theorem roundFill_of_other (hbest : p.found.best = some maker)
    (hother : maker.owner ≠ p.taker.owner) :
    roundFill h p = (tryFill h p.state.poolContract p.taker p.state.world maker
      (min p.taker.remaining maker.remaining)).map
        fun x => ⟨maker, min p.taker.remaining maker.remaining, x.1⟩ := by
  unfold roundFill
  rw [hbest, pruned_poolContract, pruned_world]
  dsimp only [Option.bind_eq_bind, Option.bind_some]
  rw [if_neg hother]
  cases tryFill h p.state.poolContract p.taker p.state.world maker
    (min p.taker.remaining maker.remaining) <;> rfl

theorem matchLoop_of_not_open (hopen : ¬ p.Open) (fuel : ℕ) :
    matchLoop h fuel p = .ok p ∧ matchFillsLoop h fuel p = [] := by
  cases fuel with
  | zero => exact ⟨rfl, rfl⟩
  | succ fuel => exact ⟨if_neg hopen, if_neg hopen⟩

theorem matchLoop_of_last {p₁ : Pass W} (hopen : p.Open) (hround : matchRound h p = .ok (p₁, false))
    (fuel : ℕ) :
    matchLoop h (fuel + 1) p = .ok p₁ ∧
      matchFillsLoop h (fuel + 1) p = (roundFill h p).toList := by
  unfold Pass.Open at hopen
  rw [matchLoop, matchFillsLoop, if_pos hopen, if_pos hopen, hround]
  exact ⟨rfl, List.append_nil _⟩

theorem matchLoop_of_more {p₁ : Pass W} (hopen : p.Open) (hround : matchRound h p = .ok (p₁, true))
    (fuel : ℕ) :
    matchLoop h (fuel + 1) p = matchLoop h fuel p₁ ∧
      matchFillsLoop h (fuel + 1) p = (roundFill h p).toList ++ matchFillsLoop h fuel p₁ := by
  unfold Pass.Open at hopen
  rw [matchLoop, matchFillsLoop, if_pos hopen, if_pos hopen, hround]
  exact ⟨rfl, rfl⟩

theorem weight_lt_of_round {p₁ : Pass W} (hs : Indexed p.state) (hopen : p.Open)
    (hround : matchRound h p = .ok (p₁, true)) : p₁.weight < p.weight := by
  obtain ⟨hgoes, huses⟩ := matchRound_eq_ok hs hround
  exact Pass.weight_lt hgoes (huses rfl) hopen.2

end Loop

/-- The loop of `match_order` is a sweep over the counterparties: this is the invariant of its
rounds, by induction on the rounds that the pass can still take. -/
theorem matchLoop_swept (h : Host W) :
    ∀ (fuel : ℕ) {p : Pass W} {ranked : List Order}, p.Tracks ranked →
      p.state.reentrancyGuard = false → p.weight ≤ fuel →
      ∃ p', matchLoop h fuel p = .ok p' ∧ matchFillsLoop h fuel p = (p.swept h ranked).turns ∧
        p.Ends ranked (p.swept h ranked) p' := by
  intro fuel
  induction fuel with
  | zero =>
    intro p ranked htracks _ hweight
    have hopen : ¬ p.Open := by
      unfold Pass.weight at hweight
      unfold Pass.Open
      omega
    refine ⟨p, rfl, ?_, ends_of_not_open htracks hopen⟩
    rw [swept_of_not_open hopen]
    rfl
  | succ fuel ih =>
    intro p ranked htracks hguard hweight
    by_cases hopen : p.Open
    · cases hbest : p.found.best with
      | none =>
        obtain rfl := htracks.eq_nil hbest
        obtain ⟨hloop, hfills⟩ :=
          matchLoop_of_last hopen (matchRound_of_none (h := h) hbest) fuel
        rw [roundFill_of_none hbest] at hfills
        exact ⟨_, hloop, hfills, ends_of_pruned 0 htracks hopen⟩
      | some maker =>
        by_cases hown : maker.owner = p.taker.owner
        · have hround := matchRound_of_own (h := h) hbest hown
          obtain ⟨htracks₁, hclean⟩ := htracks.exclude hbest hown
          have hless := weight_lt_of_round htracks.indexed hopen hround
          obtain ⟨p', hloop', hfills', hends⟩ :=
            ih htracks₁ ((pruned_reentrancyGuard p).trans hguard) (by omega)
          obtain ⟨hloop, hfills⟩ := matchLoop_of_more hopen hround fuel
          rw [roundFill_of_own hbest hown] at hfills
          have hswept : Pass.swept h
              { p with state := p.pruned, excluded := p.excluded ++ [maker.orderId] } ranked =
                p.swept h ranked := by
            unfold Pass.swept
            simp only [pruned_poolContract, pruned_world]
          rw [hswept] at hfills' hends
          refine ⟨p', hloop.trans hloop', hfills.trans hfills',
            ⟨?_, hends.taker, hends.matchesMade, hends.tracks⟩⟩
          rw [hends.state, hclean.base]
          unfold Pass.base
          rw [if_pos hopen]
        · obtain ⟨rest, rfl⟩ := htracks.eq_cons hbest hown
          have hround := matchRound_of_free (h := h) hbest hown hguard
          have hevent := roundFill_of_other (h := h) hbest hown
          rw [pruned_poolContract, pruned_world] at hround
          cases hfill : tryFill h p.state.poolContract p.taker p.state.world maker
              (min p.taker.remaining maker.remaining) with
          | none =>
            rw [hfill] at hround hevent
            obtain ⟨hloop, hfills⟩ := matchLoop_of_last hopen hround fuel
            rw [hevent] at hfills
            rw [swept_of_failed hopen hfill]
            exact ⟨_, hloop, hfills, ends_of_pruned 1 htracks hopen⟩
          | some x =>
            obtain ⟨totalPrice, world⟩ := x
            rw [hfill] at hround hevent
            replace hround : matchRound h p =
              .ok (p.fill maker (min p.taker.remaining maker.remaining) world, true) := hround
            obtain ⟨hloop, hfills⟩ := matchLoop_of_more hopen hround fuel
            rw [hevent] at hfills
            rw [swept_of_filled hopen hfill]
            have hless := weight_lt_of_round htracks.indexed hopen hround
            have hguard₁ : (p.fill maker (min p.taker.remaining maker.remaining)
                world).state.reentrancyGuard = false :=
              (fillMaker_keeps _ _).2.2.1.trans ((pruned_reentrancyGuard p).trans hguard)
            by_cases hfull : maker.remaining ≤ p.taker.remaining
            · have hmin : min p.taker.remaining maker.remaining = maker.remaining :=
                min_eq_right hfull
              rw [hmin] at hloop hfills hless hguard₁ ⊢
              obtain ⟨htracks₁, hclean⟩ := htracks.fill hbest world
              obtain ⟨p', hloop', hfills', hends⟩ := ih htracks₁ hguard₁ (by omega)
              rw [hfills'] at hfills
              exact ⟨p', hloop.trans hloop', hfills, hends.fill hopen hclean.base⟩
            · -- the taker has nothing left
              have hclosed :
                  ¬ (p.fill maker (min p.taker.remaining maker.remaining) world).Open := by
                unfold Pass.Open Pass.fill
                simp only
                omega
              obtain ⟨hloop', hfills'⟩ := matchLoop_of_not_open (h := h) hclosed fuel
              rw [swept_of_not_open hclosed]
              rw [hfills'] at hfills
              exact ⟨_, hloop.trans hloop', hfills,
                ends_of_exhausted totalPrice world hopen (not_le.1 hfull).le⟩
    · obtain ⟨hloop, hfills⟩ := matchLoop_of_not_open (h := h) hopen (fuel + 1)
      refine ⟨p, hloop, ?_, ends_of_not_open htracks hopen⟩
      rw [hfills, swept_of_not_open hopen]

/-- The sweep that `match_order` is. -/
def State.swept (h : Host W) (s : State W) (taker : Order) : Swept W Order ℤ :=
  sweep Order.remaining (tryFill h s.poolContract taker) maxMatchesPerCall s.world taker.remaining
    (s.ranked taker)

theorem matchOrder_swept (h : Host W) {s : State W} (hs : Indexed s)
    (hguard : s.reentrancyGuard = false) (taker : Order) :
    ∃ p', matchLoop h (s.matchFuel taker) { state := s, taker := taker } = .ok p' ∧
      matchOrder h s taker = .ok (p'.state, p'.taker) ∧
      matchFills h s taker = (s.swept h taker).turns ∧
      Pass.Ends { state := s, taker := taker } (s.ranked taker) (s.swept h taker) p' := by
  have hweight : Pass.weight { state := s, taker := taker } ≤ s.matchFuel taker := by
    simp [Pass.weight, Pass.place, State.matchFuel]
  obtain ⟨p', hloop, hfills, hends⟩ :=
    matchLoop_swept h (s.matchFuel taker) (tracks_start hs taker) hguard hweight
  refine ⟨p', hloop, ?_, hfills, hends⟩
  unfold matchOrder
  rw [hloop]
  rfl

section Records

variable {s : State W} {fills : List Fill}

theorem foldl_fillTurn_keeps : ∀ (fills : List Fill) (s : State W),
    (fills.foldl State.fillTurn s).world = s.world ∧
      (fills.foldl State.fillTurn s).poolContract = s.poolContract ∧
      (fills.foldl State.fillTurn s).reentrancyGuard = s.reentrancyGuard ∧
      (fills.foldl State.fillTurn s).now = s.now := by
  intro fills
  induction fills with
  | nil =>
    intro s
    exact ⟨rfl, rfl, rfl, rfl⟩
  | cons fill fills ih =>
    intro s
    obtain ⟨hworld, hpool, hguard, hnow⟩ := fillMaker_keeps s (fill.who.filled fill.amount)
    obtain ⟨hworlds, hpools, hguards, hnows⟩ := ih (s.fillTurn fill)
    exact ⟨hworlds.trans hworld, hpools.trans hpool, hguards.trans hguard, hnows.trans hnow⟩

theorem fillTurn_get (s : State W) (fill : Fill) (id : ℕ) :
    (s.fillTurn fill).orders.get id =
      if id = fill.who.orderId then some (fill.who.filled fill.amount) else s.orders.get id := by
  unfold State.fillTurn
  rw [fillMaker_orders, Store.get_set]
  rfl

theorem foldl_fillTurn_get_of_forall {id : ℕ} :
    ∀ (fills : List Fill) (s : State W), (∀ fill ∈ fills, fill.who.orderId ≠ id) →
      (fills.foldl State.fillTurn s).orders.get id = s.orders.get id := by
  intro fills
  induction fills with
  | nil =>
    intro s _
    rfl
  | cons fill fills ih =>
    intro s hne
    obtain ⟨hfirst, hrest⟩ := List.forall_mem_cons.1 hne
    rw [List.foldl_cons, ih _ hrest, fillTurn_get, if_neg hfirst.symm]

theorem foldl_fillTurn_get_of_mem :
    ∀ {fills : List Fill} (s : State W), (fills.map fun fill => fill.who.orderId).Nodup →
      ∀ fill ∈ fills, (fills.foldl State.fillTurn s).orders.get fill.who.orderId =
        some (fill.who.filled fill.amount) := by
  intro fills
  induction fills with
  | nil =>
    intro s _ fill hfill
    simp at hfill
  | cons first fills ih =>
    intro s hnodup fill hfill
    rw [List.map_cons, List.nodup_cons] at hnodup
    rw [List.foldl_cons]
    rcases List.mem_cons.1 hfill with rfl | hfill
    · have hnot : ∀ other ∈ fills, other.who.orderId ≠ fill.who.orderId := by
        intro other hother heq
        exact hnodup.1 (heq ▸ List.mem_map_of_mem hother)
      rw [foldl_fillTurn_get_of_forall _ _ hnot, fillTurn_get, if_pos rfl]
    · exact ih _ hnodup.2 fill hfill

end Records

/-! ## The guard -/

/-- Between two calls the indexes are right and the guard is free. -/
structure Ready (s : State W) : Prop where
  indexed : Indexed s
  guard : s.reentrancyGuard = false

theorem ready_initial (now : ℕ) (world : W) (admin poolContract : Address) :
    Ready (initializeMarket now world admin poolContract) :=
  ⟨indexed_initial now world admin poolContract, rfl⟩

theorem matchOrder_guard {h : Host W} {s s' : State W} {taker taker' : Order} (hs : Indexed s)
    (hguard : s.reentrancyGuard = false) (hx : matchOrder h s taker = .ok (s', taker')) :
    s'.reentrancyGuard = false := by
  obtain ⟨p', -, hmatch, -, hends⟩ := matchOrder_swept h hs hguard taker
  obtain ⟨rfl, -⟩ := Prod.mk.inj (Except.ok.inj (hmatch.symm.trans hx))
  rw [hends.state, (foldl_fillTurn_keeps _ _).2.2.1]
  unfold Pass.base
  split_ifs
  · exact (pruned_reentrancyGuard _).trans hguard
  · exact hguard

/-- What `place_order` checks of a request, with the record of the invoice. -/
structure Accepts (h : Host W) (s : State W) (owner : Address) (request : PlaceOrderRequest)
    (record : Pool.FundedInvoice) : Prop where
  amount : request.amountOrBps ≠ 0
  price : 0 < request.price
  expiry : ¬ (request.expiresAt ≠ 0 ∧ request.expiresAt ≤ s.now)
  room : (s.book (request.side, bookKey request.invoiceId request.kind)).length <
    maxOrdersPerBookSide
  funded : h.fundedInvoice s.world s.poolContract request.invoiceId = some record
  held : request.side = .Ask →
    s.checkHolding h record owner request.invoiceId request.kind request.amountOrBps = .ok ()
  numbered : s.orderCounter + 1 < 2 ^ 64

/-- The state in which a new order is matched. -/
def State.numbered (s : State W) : State W := { s with orderCounter := s.orderCounter + 1 }

/-- The order that a request makes of an invoice. -/
def State.incoming (s : State W) (owner : Address) (request : PlaceOrderRequest)
    (record : Pool.FundedInvoice) : Order :=
  s.newOrder (s.orderCounter + 1) owner record.token request

section Placing

variable {h : Host W} {s : State W} {owner : Address} {request : PlaceOrderRequest}
  {record : Pool.FundedInvoice}

theorem placeOrderBody_of_accepts (haccepts : Accepts h s owner request record) :
    placeOrderBody h s owner request =
      (matchOrder h s.numbered (s.incoming owner request record)).map fun x =>
        (x.1.restOrder x.2.placed, s.orderCounter + 1) := by
  have hid : fitU 64 (s.orderCounter + 1) = some (s.orderCounter + 1) := if_pos haccepts.numbered
  unfold placeOrderBody
  rw [(require_eq_ok _ _ ()).2 haccepts.amount, ok_bind, (require_eq_ok _ _ ()).2 haccepts.price,
    ok_bind, (require_eq_ok _ _ ()).2 haccepts.expiry, ok_bind,
    (require_eq_ok _ _ ()).2 haccepts.room, ok_bind, (okOr_eq_ok _ _ _).2 haccepts.funded, ok_bind,
    (okOr_eq_ok _ _ _).2 hid]
  split_ifs with hside
  · rw [haccepts.held hside]
    rfl
  · rfl

theorem accepts_of_ok {x : State W × ℕ} (hx : placeOrderBody h s owner request = .ok x) :
    ∃ record, Accepts h s owner request record := by
  simp only [placeOrderBody, bind_eq_ok, exists_unit, require_eq_ok, okOr_eq_ok] at hx
  obtain ⟨hamount, hprice, hexpiry, hroom, record, hfunded, hx⟩ := hx
  refine ⟨record, hamount, hprice, hexpiry, hroom, hfunded, ?_, ?_⟩
  · intro hside
    rw [if_pos hside] at hx
    simp only [bind_eq_ok, exists_unit] at hx
    exact hx.1
  · split_ifs at hx with hside
    · simp only [bind_eq_ok, okOr_eq_ok, fitU_eq_some] at hx
      obtain ⟨_, -, _, ⟨-, hlt⟩, -⟩ := hx
      exact hlt
    · simp only [bind_eq_ok, okOr_eq_ok, fitU_eq_some] at hx
      obtain ⟨_, ⟨-, hlt⟩, -⟩ := hx
      exact hlt

theorem placeOrderBody_matched {x : State W × ℕ} (hx : placeOrderBody h s owner request = .ok x) :
    ∃ record matched taker, Accepts h s owner request record ∧
      matchOrder h s.numbered (s.incoming owner request record) = .ok (matched, taker) ∧
        x = (matched.restOrder taker.placed, s.orderCounter + 1) := by
  obtain ⟨record, haccepts⟩ := accepts_of_ok hx
  rw [placeOrderBody_of_accepts haccepts, map_eq_ok] at hx
  obtain ⟨⟨matched, taker⟩, hmatch, rfl⟩ := hx
  exact ⟨record, matched, taker, haccepts, hmatch, rfl⟩

end Placing

theorem restOrder_guard (s : State W) (o : Order) :
    (s.restOrder o).reentrancyGuard = s.reentrancyGuard := by
  unfold State.restOrder
  split_ifs <;> rfl

/-- The state in which `place_order` matches. -/
def State.locked (s : State W) : State W := { s with reentrancyGuard := true }

def Call.places : Call W → Bool
  | .placeOrder _ _ | .matchOrder _ _ => true
  | _ => false

inductive OrderStep (h : Host W) (s : State W) : Call W → State W → Prop
  | kept {call : Call W} {s' : State W} (hcall : call.places = false) (horders : s'.orders = s.orders)
      (hcounter : s'.orderCounter = s.orderCounter)
      (hguard : s.reentrancyGuard = false → s'.reentrancyGuard = false) : OrderStep h s call s'
  | closed {call : Call W} {id : ℕ} {order : Order} {status : OrderStatus} (hcall : call.places = false)
      (hget : s.orders.get id = some order) :
      OrderStep h s call
        ((s.saveOrder { order with status := status }).removeFromBook { order with status := status })
  | placed {owner : Address} {request : PlaceOrderRequest} {x : State W × ℕ}
      (hbody : placeOrderBody h s.locked owner request = .ok x) :
      OrderStep h s (.placeOrder owner request) x.1.nonReentrantEnd
  | matched {owner : Address} {request : PlaceOrderRequest} {x : State W × ℕ}
      (hbody : placeOrderBody h s owner request = .ok x) :
      OrderStep h s (.matchOrder owner request) x.1

theorem exec_orderStep {h : Host W} {s s' : State W} {tx : Tx W} (hx : exec h s tx = .ok s') :
    OrderStep h s tx.call s' := by
  obtain ⟨signers, call⟩ := tx
  cases call with
  | listPosition seller invoiceId kind amountOrBps price =>
    simp only [exec, listPosition, map_eq_ok, bind_eq_ok, pure_eq_ok] at hx
    obtain ⟨_, ⟨_, -, _, -, _, -, _, -, _, -, _, -, _, -, _, -, rfl⟩, rfl⟩ := hx
    exact .kept rfl rfl rfl id
  | cancelListing seller listingId =>
    simp only [exec, cancelListing, bind_eq_ok, pure_eq_ok] at hx
    obtain ⟨_, -, _, -, _, -, _, -, _, -, rfl⟩ := hx
    exact .kept rfl rfl rfl id
  | buyListing buyer listingId =>
    simp only [exec, buyListing, bind_eq_ok, nonReentrantStart_eq_ok, pure_eq_ok] at hx
    obtain ⟨_, -, _, -, _, ⟨-, rfl⟩, _, -, _, -, _, -, _, -, rfl⟩ := hx
    exact .kept rfl rfl rfl fun _ => rfl
  | placeOrder owner request =>
    simp only [exec, placeOrder, map_eq_ok, bind_eq_ok, nonReentrantStart_eq_ok, pure_eq_ok] at hx
    obtain ⟨_, ⟨_, -, _, -, _, ⟨-, rfl⟩, _, hbody, rfl⟩, rfl⟩ := hx
    exact .placed hbody
  | matchOrder owner request =>
    simp only [exec, placeOrderUnguarded, map_eq_ok, bind_eq_ok] at hx
    obtain ⟨_, ⟨_, -, _, -, hbody⟩, rfl⟩ := hx
    exact .matched hbody
  | cancelOrder owner orderId =>
    simp only [exec, cancelOrder, bind_eq_ok, okOr_eq_ok, pure_eq_ok] at hx
    obtain ⟨_, -, _, -, _, hget, _, -, _, -, rfl⟩ := hx
    exact .closed rfl hget
  | expireOrder orderId =>
    simp only [exec, expireOrder, bind_eq_ok, okOr_eq_ok, pure_eq_ok] at hx
    obtain ⟨_, -, _, hget, _, -, _, -, rfl⟩ := hx
    exact .closed rfl hget
  | pause admin | unpause admin =>
    simp only [exec, pause, unpause, setPaused, bind_eq_ok, pure_eq_ok] at hx
    obtain ⟨_, -, _, -, rfl⟩ := hx
    exact .kept rfl rfl rfl id
  | advance now =>
    simp only [exec, advance, bind_eq_ok, pure_eq_ok] at hx
    obtain ⟨_, -, rfl⟩ := hx
    exact .kept rfl rfl rfl id
  | elsewhere world =>
    obtain rfl := Except.ok.inj hx
    exact .kept rfl rfl rfl id

theorem Ready.step {h : Host W} {s s' : State W} {tx : Tx W} (hs : Ready s)
    (hx : exec h s tx = .ok s') : Ready s' := by
  have hindexed := (exec_effect hs.indexed hx).indexed hs.indexed
  have hstep := exec_orderStep hx
  generalize tx.call = call at hstep
  refine ⟨hindexed, ?_⟩
  clear hx hindexed
  cases hstep with
  | kept hcall horders hcounter hguard => exact hguard hs.guard
  | closed hcall hget => exact hs.guard
  | placed hbody => rfl
  | matched hbody =>
    obtain ⟨record, matched, taker, -, hmatch, rfl⟩ := placeOrderBody_matched hbody
    exact (restOrder_guard _ _).trans (matchOrder_guard hs.indexed.number hs.guard hmatch)

theorem ready_of_reaches {h : Host W} {ok : State W → Tx W → Prop} {s₀ s : State W} (h₀ : Ready s₀)
    (hrun : Reaches (exec h) ok s₀ s) : Ready s :=
  hrun.invariant h₀ fun _ _ _ hs _ hx => hs.step hx

end Astera.Market
