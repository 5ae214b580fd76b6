import Astera.Market.Ranking

/-!
# Priority and completeness of matching

An order is matched against the best price first and the oldest order of that price.  The key of a
book saturates; `KeepsApart` is when none of another book is reached.  The loop ends with the first
counterparty that it cannot trade with, whoever comes after it.
-/

namespace Astera.Market

open Fallible Machine Greedy Index Transition

variable {W : Type}
variable {fill : Fill} {fills : List Fill} {o o' : Order} {p' : Pass W} {id : ℕ}

/-! ## What matching does to an order -/

def filledBy (fills : List Fill) (id : ℕ) : ℕ :=
  ((fills.filter fun fill => fill.who.orderId = id).map Turn.amount).sum

theorem filledBy_of_forall (h : ∀ fill ∈ fills, fill.who.orderId ≠ id) : filledBy fills id = 0 := by
  unfold filledBy
  rw [List.filter_eq_nil_iff.2 fun fill hfill => by simpa using h fill hfill]
  rfl

theorem filledBy_of_mem :
    ∀ {fills : List Fill}, (fills.map fun fill => fill.who.orderId).Nodup → ∀ fill ∈ fills,
      filledBy fills fill.who.orderId = fill.amount := by
  intro fills
  induction fills with
  | nil =>
    intro _ fill hfill
    simp at hfill
  | cons first fills ih =>
    intro hnodup fill hfill
    rw [List.map_cons, List.nodup_cons] at hnodup
    rcases List.mem_cons.1 hfill with rfl | hfill
    · have hnone : filledBy fills fill.who.orderId = 0 :=
        filledBy_of_forall fun other hother heq => hnodup.1 (heq ▸ List.mem_map_of_mem hother)
      unfold filledBy at hnone ⊢
      rw [List.filter_cons_of_pos (by simp), List.map_cons, List.sum_cons, hnone, Nat.add_zero]
    · have hne : first.who.orderId ≠ fill.who.orderId := fun heq =>
        hnodup.1 (heq ▸ List.mem_map_of_mem hfill)
      have hrest := ih hnodup.2 fill hfill
      unfold filledBy at hrest ⊢
      rw [List.filter_cons_of_neg (by simpa using hne), hrest]

inductive AfterMatch (s : State W) (taker : Order) (fills : List Fill) (id : ℕ) (o : Order) :
    Order → Prop
  | filled {fill : Fill} (hfill : fill ∈ fills) (hwho : fill.who = o) :
      AfterMatch s taker fills id o (o.filled fill.amount)
  | lapsed (hnone : ∀ fill ∈ fills, fill.who.orderId ≠ id) (hopen : 0 < taker.remaining)
      (hbook : id ∈ s.book (taker.side.opposite, bookKey taker.invoiceId taker.kind))
      (hlive : o.status.Live) (hstale : o.Stale s.now) : AfterMatch s taker fills id o o.lapsed
  | same (hnone : ∀ fill ∈ fills, fill.who.orderId ≠ id)
      (hkept : 0 < taker.remaining →
        id ∈ s.book (taker.side.opposite, bookKey taker.invoiceId taker.kind) → o.status.Live →
          ¬ o.Stale s.now) : AfterMatch s taker fills id o o

section Matching

variable {h : Host W} {s : State W} {taker : Order}

theorem swept_serves (h : Host W) (s : State W) (taker : Order) :
    Serves Order.remaining (tryFill h s.poolContract taker) maxMatchesPerCall s.world taker.remaining
      (s.ranked taker) (s.swept h taker) :=
  sweep_serves _ _ _ _

theorem counterparty_of_fill (hs : Indexed s) (hfill : fill ∈ (s.swept h taker).turns) :
    s.Counterparty taker fill.who :=
  (mem_ranked hs).1 ((swept_serves h s taker).who.subset (List.mem_map_of_mem hfill))

theorem pairwise_fills (hs : Indexed s) :
    ((s.swept h taker).turns.map Turn.who).Pairwise fun a b => a.Better b taker.side :=
  (pairwise_ranked hs).sublist (swept_serves h s taker).who.sublist

theorem nodup_fills (hs : Indexed s) :
    ((s.swept h taker).turns.map fun fill => fill.who.orderId).Nodup := by
  have hfills : ((s.swept h taker).turns.map Turn.who).Pairwise fun a b => a.Better b taker.side :=
    pairwise_fills hs
  have hpairwise := List.pairwise_map.1 hfills
  refine List.pairwise_map.2 (hpairwise.imp_of_mem fun {a b} ha hb hbetter hid => ?_)
  have hstored := (counterparty_of_fill hs ha).stored
  rw [hid, (counterparty_of_fill hs hb).stored] at hstored
  rw [Option.some.inj hstored] at hbetter
  exact hbetter.asymm hbetter

theorem match_get (hs : Indexed s)
    (hends : Pass.Ends { state := s, taker := taker } (s.ranked taker) (s.swept h taker) p')
    (hget : s.orders.get id = some o) :
    ∃ o', p'.state.orders.get id = some o' ∧
      AfterMatch s taker (s.swept h taker).turns id o o' := by
  rw [hends.state]
  by_cases hmaker : ∃ fill ∈ (s.swept h taker).turns, fill.who.orderId = id
  · obtain ⟨fill, hfill, rfl⟩ := hmaker
    have hwho : fill.who = o :=
      Option.some.inj ((counterparty_of_fill hs hfill).stored.symm.trans hget)
    refine ⟨fill.who.filled fill.amount, foldl_fillTurn_get_of_mem _ (nodup_fills hs) fill hfill, ?_⟩
    rw [hwho]
    exact .filled hfill hwho
  · have hnone : ∀ fill ∈ (s.swept h taker).turns, fill.who.orderId ≠ id :=
      fun fill hfill heq => hmaker ⟨fill, hfill, heq⟩
    rw [foldl_fillTurn_get_of_forall _ _ hnone]
    let p : Pass W := { state := s, taker := taker }
    have hexpired := p.found_complete.expired id
    by_cases hopen : p.Open
    · have hbase : p.base = p.pruned := if_pos hopen
      change ∃ o', p.base.orders.get id = some o' ∧ _
      rw [hbase, Pass.pruned_get hs]
      split_ifs with hin
      · obtain ⟨hbook, -, o', hget', hlive, hstale⟩ := hexpired.1 hin
        obtain rfl := Option.some.inj (hget'.symm.trans hget)
        exact ⟨o'.lapsed, by rw [hget']; rfl, .lapsed hnone hopen.1 hbook hlive hstale⟩
      · refine ⟨o, hget, .same hnone fun _ hbook hlive hstale => hin (hexpired.2 ?_)⟩
        exact ⟨hbook, by simp [p], o, hget, hlive, hstale⟩
    · have hbase : p.base = s := if_neg hopen
      change ∃ o', p.base.orders.get id = some o' ∧ _
      rw [hbase]
      refine ⟨o, hget, .same hnone fun hpos => ?_⟩
      have hturns : 0 < maxMatchesPerCall := by decide
      exact absurd ⟨hpos, hturns⟩ hopen

theorem AfterMatch.same_terms (hafter : AfterMatch s taker fills id o o') :
    o' = { o with remaining := o'.remaining, status := o'.status } := by
  cases hafter <;> rfl

theorem AfterMatch.remaining (hafter : AfterMatch s taker fills id o o')
    (hnodup : (fills.map fun fill => fill.who.orderId).Nodup)
    (hle : ∀ fill ∈ fills, fill.amount ≤ fill.who.remaining) (hid : o.orderId = id) :
    o.remaining = o'.remaining + filledBy fills id := by
  cases hafter with
  | @filled fill hfill hwho =>
    subst hwho
    have := hle fill hfill
    rw [← hid, filledBy_of_mem hnodup fill hfill]
    unfold Order.filled
    simp only
    omega
  | lapsed hnone => rw [filledBy_of_forall hnone]; rfl
  | same hnone => rw [filledBy_of_forall hnone]; rfl

theorem AfterMatch.resting_iff (hafter : AfterMatch s taker fills id o o')
    (hresting : o.resting = true) :
    ¬ o'.resting = true ↔ o'.status = .Filled ∨ o'.status = .Expired := by
  rw [Order.resting_iff] at hresting ⊢
  cases hafter with
  | @filled fill hfill hwho =>
    unfold Order.filled
    simp only [OrderStatus.Live]
    split_ifs with hzero
    · simp [hzero]
    · simp only [or_true, or_false, true_and, iff_false, not_not]
      exact Nat.pos_of_ne_zero hzero
  | lapsed => simp [Order.lapsed, OrderStatus.Live]
  | same =>
    obtain ⟨hlive, hpos⟩ := hresting
    rcases hlive with hopen | hpartly
    · simp [hopen, hpos, OrderStatus.Live]
    · simp [hpartly, hpos, OrderStatus.Live]

theorem fillTotalPrice_of_turns {pool : Address} {world world' : W} :
    ∀ {fills : List Fill}, Turns (tryFill h pool taker) world fills world' →
      ∀ fill ∈ fills, fillTotalPrice fill.who.price fill.amount = some fill.result := by
  intro fills hturns
  induction hturns with
  | nil => simp
  | cons hhead _ ih =>
    refine List.forall_mem_cons.2 ⟨?_, ih⟩
    unfold tryFill at hhead
    obtain ⟨total, htotal, hrest⟩ := Option.bind_eq_some_iff.1 hhead
    obtain ⟨world, -, hsome⟩ := Option.bind_eq_some_iff.1 hrest
    obtain ⟨rfl, -⟩ := Prod.mk.inj (Option.some.inj hsome)
    exact htotal

structure Matches (s : State W) (taker : Order) (fills : List Fill) (s' : State W) (taker' : Order) :
    Prop where
  trimmed : Trimmed s s'
  takes : taker' = { taker with remaining := taker'.remaining } ∧
    taker.remaining = taker'.remaining + (fills.map Turn.amount).sum
  orders : ∀ id o, s.orders.get id = some o → ∃ o', s'.orders.get id = some o' ∧
    o' = { o with remaining := o'.remaining, status := o'.status } ∧
    o.remaining = o'.remaining + filledBy fills id
  makers : ∀ fill ∈ fills, s.Counterparty taker fill.who
  price : ∀ fill ∈ fills, fillTotalPrice fill.who.price fill.amount = some fill.result

theorem matches_of_ends (hs : Indexed s) (hmatch : matchOrder h s taker = .ok (p'.state, p'.taker))
    (hends : Pass.Ends { state := s, taker := taker } (s.ranked taker) (s.swept h taker) p') :
    Matches s taker (s.swept h taker).turns p'.state p'.taker := by
  have hserves := swept_serves h s taker
  refine ⟨(matchOrder_eq_ok hs hmatch).1.trimmed, ⟨?_, ?_⟩, fun id o hget => ?_,
    fun fill hfill => counterparty_of_fill hs hfill, fillTotalPrice_of_turns hserves.state⟩
  · rw [hends.taker]
  · rw [hends.taker]
    have := hserves.sum
    simp only
    omega
  · obtain ⟨o', hget', hturn⟩ := match_get hs hends hget
    exact ⟨o', hget', hturn.same_terms,
      hturn.remaining (nodup_fills hs) hserves.le (hs.orderId id o hget).1⟩

end Matching

/-! ## Fairness -/

def Order.SameBook (taker o : Order) : Prop := o.invoiceId = taker.invoiceId ∧ o.kind = taker.kind

/-- A matching of a taker that is fair and takes from the orders what it trades. -/
structure Fair (h : Host W) (s : State W) (taker : Order) (fills : List Fill) (s' : State W)
    (taker' : Order) : Prop where
  /-- The pool settled the fills one after the other, each at the price of its maker. -/
  settled : Turns (tryFill h s.poolContract taker) s.world fills s'.world
  price : ∀ fill ∈ fills, fillTotalPrice fill.who.price fill.amount = some fill.result
  makers : ∀ fill ∈ fills, s.Counterparty taker fill.who ∧ taker.SameBook fill.who
  ordered : (fills.map Turn.who).Pairwise fun a b => a.Better b taker.side
  /-- Whoever is better than a maker is filled before it, and completely. -/
  first : ∀ fill ∈ fills, ∀ maker, s.Counterparty taker maker → maker.Better fill.who taker.side →
    ∃ earlier ∈ fills, earlier.who = maker ∧ earlier.amount = maker.remaining
  count : fills.length ≤ maxMatchesPerCall
  quantity : ∀ before fill after, fills = before ++ fill :: after → 0 < fill.amount ∧
    fill.amount ≤ fill.who.remaining ∧
    fill.amount ≤ taker.remaining - (before.map Turn.amount).sum
  takes : taker' = { taker with remaining := taker'.remaining } ∧
    taker.remaining = taker'.remaining + (fills.map Turn.amount).sum
  orders : ∀ id o, s.orders.get id = some o → ∃ o', s'.orders.get id = some o' ∧
    o' = { o with remaining := o'.remaining, status := o'.status } ∧
    o.remaining = o'.remaining + filledBy fills id
  /-- So all that an order was ever filled accounts for its original quantity. -/
  originals : ∀ history : ℕ → ℕ,
    (∀ id o, s.orders.get id = some o → o.amountOrBps = o.remaining + history id) →
      ∀ id o, s'.orders.get id = some o →
        o.amountOrBps = o.remaining + (history id + filledBy fills id)
  leaves : ∀ id ∈ s.book (taker.side.opposite, bookKey taker.invoiceId taker.kind),
    id ∉ s'.book (taker.side.opposite, bookKey taker.invoiceId taker.kind) ↔
      ∃ o, s'.orders.get id = some o ∧ (o.status = .Filled ∨ o.status = .Expired)
  untouched : ∀ id o, s.orders.get id = some o → ¬ taker.SameBook o →
    s'.orders.get id = some o ∧ ∀ place, id ∈ s'.book place ↔ id ∈ s.book place

/-- No order of another book is reached: none that is expired rests under the taker's key, and none is
so far up in the ranking that it is filled. -/
structure State.KeepsApart (h : Host W) (s : State W) (taker : Order) : Prop where
  expired : 0 < taker.remaining →
    ∀ id ∈ s.book (taker.side.opposite, bookKey taker.invoiceId taker.kind),
      ∀ o, s.orders.get id = some o → o.Stale s.now → taker.SameBook o
  reached : ∀ before maker after world, s.ranked taker = before ++ maker :: after →
    ServedUpTo Order.remaining (tryFill h s.poolContract taker) maxMatchesPerCall s.world
      taker.remaining before world →
    (tryFill h s.poolContract taker world maker
      (min (taker.remaining - (before.map Order.remaining).sum) maker.remaining)).isSome →
    taker.SameBook maker

section Fairness

variable {h : Host W} {s : State W} {taker : Order}

theorem first_of_fill (hs : Indexed s) (hfill : fill ∈ (s.swept h taker).turns) {maker : Order}
    (hmaker : s.Counterparty taker maker) (hbetter : maker.Better fill.who taker.side) :
    ∃ earlier ∈ (s.swept h taker).turns, earlier.who = maker ∧
      earlier.amount = maker.remaining := by
  have hserves := swept_serves h s taker
  obtain ⟨before, after, hsplit⟩ := List.append_of_mem hfill
  obtain ⟨rest, hranked⟩ := hserves.who
  rw [hsplit, List.map_append, List.map_cons, List.append_assoc, List.cons_append] at hranked
  have hpairwise : (s.ranked taker).Pairwise fun a b => a.Better b taker.side := pairwise_ranked hs
  rw [← hranked, List.pairwise_append, List.pairwise_cons] at hpairwise
  have hmem := (mem_ranked hs).2 hmaker
  rw [← hranked, List.mem_append] at hmem
  rcases hmem with hbefore | hafter
  · obtain ⟨earlier, hearlier, rfl⟩ := List.mem_map.1 hbefore
    exact ⟨earlier, hsplit ▸ List.mem_append_left _ hearlier, rfl,
      hserves.full before fill after hsplit earlier hearlier⟩
  · -- what comes later is not better
    rcases List.mem_cons.1 hafter with rfl | hlater
    · exact absurd hbetter fun hself => hself.asymm hself
    · exact absurd hbetter (hpairwise.2.1.1 maker hlater).asymm

theorem quantity_of_fill (hs : Indexed s) {before after : List Fill}
    (hsplit : (s.swept h taker).turns = before ++ fill :: after) :
    0 < fill.amount ∧ fill.amount ≤ fill.who.remaining ∧
      fill.amount ≤ taker.remaining - (before.map Turn.amount).sum := by
  have hserves := swept_serves h s taker
  have hmem : fill ∈ (s.swept h taker).turns := hsplit ▸ List.mem_append_right _ List.mem_cons_self
  have hpositive : ∀ maker ∈ s.ranked taker, 0 < maker.remaining := by
    intro maker hmaker
    have hresting := ((counterparty_iff hs).1 ((mem_ranked hs).1 hmaker)).2.2.1
    exact ((Order.resting_iff maker).1 hresting).2
  have hsum := hserves.sum
  rw [hsplit, List.map_append, List.sum_append, List.map_cons, List.sum_cons] at hsum
  exact ⟨hserves.pos hpositive fill hmem, hserves.le fill hmem, by omega⟩

theorem KeepsApart.get (happart : s.KeepsApart h taker) (hget : s.orders.get id = some o)
    (hother : ¬ taker.SameBook o) (hafter : AfterMatch s taker (s.swept h taker).turns id o o') :
    o' = o := by
  cases hafter with
  | @filled fill hfill hwho =>
    obtain ⟨before, after, w₁, w₂, hsplit, hreach, hamount, hresult⟩ := servedUpTo_of_mem_turns hfill
    rw [hamount] at hresult
    refine absurd ?_ hother
    rw [← hwho]
    exact happart.reached before fill.who after w₁ hsplit hreach (by rw [hresult]; rfl)
  | lapsed hnone hopen hbook hlive hstale =>
    exact absurd (happart.expired hopen id hbook o hget hstale) hother
  | same => rfl

theorem fair_of_keepsApart (hs : Indexed s) (happart : s.KeepsApart h taker)
    (hmatch : matchOrder h s taker = .ok (p'.state, p'.taker))
    (hends : Pass.Ends { state := s, taker := taker } (s.ranked taker) (s.swept h taker) p') :
    Fair h s taker (s.swept h taker).turns p'.state p'.taker := by
  have hserves := swept_serves h s taker
  have hmatches := matches_of_ends hs hmatch hends
  have hindexed := (matchOrder_eq_ok hs hmatch).1.indexed hs
  have hworld : p'.state.world = (s.swept h taker).state := by
    rw [hends.state]
    exact (foldl_fillTurn_keeps _ _).1
  have hturns : Turns (tryFill h s.poolContract taker) s.world (s.swept h taker).turns
      p'.state.world := hworld ▸ hserves.state
  refine ⟨hturns, hmatches.price, fun fill hfill => ?_, pairwise_fills hs,
    fun fill hfill maker hmaker hbetter => first_of_fill hs hfill hmaker hbetter,
    hserves.length.trans hserves.attempts, fun before fill after hsplit => quantity_of_fill hs hsplit,
    hmatches.takes, hmatches.orders, fun history haccounts id o' hget' => ?_, fun id hid => ?_,
    fun id o hget hother => ?_⟩
  · obtain ⟨before, after, w₁, w₂, hsplit, hreach, hamount, hresult⟩ := servedUpTo_of_mem_turns hfill
    rw [hamount] at hresult
    exact ⟨counterparty_of_fill hs hfill,
      happart.reached before fill.who after w₁ hsplit hreach (by rw [hresult]; rfl)⟩
  · cases hget : s.orders.get id with
    | none =>
      rw [hmatches.trimmed.fresh id hget] at hget'
      cases hget'
    | some o =>
      obtain ⟨o₁, hget₁, hterms, hremaining⟩ := hmatches.orders id o hget
      obtain rfl := Option.some.inj (hget₁.symm.trans hget')
      have hamount : o₁.amountOrBps = o.amountOrBps := by rw [hterms]
      have := haccounts id o hget
      omega
  · rw [hs.byPlace.mem_iff] at hid
    obtain ⟨o, hget, hplace, hresting⟩ := hid
    obtain ⟨o', hget', hturn⟩ := match_get hs hends hget
    have hplace' : o'.place = o.place := by rw [hturn.same_terms]; rfl
    rw [hindexed.byPlace.mem_iff]
    constructor
    · intro hout
      refine ⟨o', hget', (hturn.resting_iff hresting).1 fun hrest => hout ?_⟩
      exact ⟨o', hget', hplace'.trans hplace, hrest⟩
    · rintro ⟨o₁, hget₁, hdone⟩ ⟨o₂, hget₂, -, hrest⟩
      obtain rfl := Option.some.inj (hget'.symm.trans hget₁)
      obtain rfl := Option.some.inj (hget'.symm.trans hget₂)
      exact (hturn.resting_iff hresting).2 hdone hrest
  · obtain ⟨o', hget', hturn⟩ := match_get hs hends hget
    obtain rfl := KeepsApart.get happart hget hother hturn
    refine ⟨hget', fun place => ?_⟩
    rw [hindexed.byPlace.mem_iff, hs.byPlace.mem_iff, hget, hget']

theorem keepsApart_of_fair (hs : Indexed s)
    (hends : Pass.Ends { state := s, taker := taker } (s.ranked taker) (s.swept h taker) p')
    (hfair : Fair h s taker (s.swept h taker).turns p'.state p'.taker) : s.KeepsApart h taker := by
  constructor
  · intro hopen id hbook o hget hstale
    by_contra hother
    obtain ⟨v, hv, -, hresting⟩ := (hs.byPlace.mem_iff _ _).1 hbook
    obtain rfl := Option.some.inj (hget.symm.trans hv)
    have hlive := ((Order.resting_iff _).1 hresting).1
    obtain ⟨o', hget', hturn⟩ := match_get hs hends hget
    have hsame : o' = o :=
      Option.some.inj (hget'.symm.trans (hfair.untouched id o hget hother).1)
    cases hturn with
    | filled hfill hwho =>
      exact (counterparty_of_fill hs hfill).fresh (hwho ▸ hstale)
    | lapsed =>
      have hdead : ¬ o.lapsed.status.Live := by simp [Order.lapsed, OrderStatus.Live]
      rw [hsame] at hdead
      exact hdead hlive
    | same hnone hkept => exact hkept hopen hbook hlive hstale
  · intro before maker after world hsplit hreach hserved
    obtain ⟨⟨total, world'⟩, hfilled⟩ := Option.isSome_iff_exists.1 hserved
    obtain ⟨fill, hfill, rfl⟩ : ∃ fill ∈ (s.swept h taker).turns, fill.who = maker := by
      unfold State.swept
      rw [hsplit]
      exact mem_turns_of_servedUpTo hreach hfilled
    exact (hfair.makers fill hfill).2

/-- Matching is fair exactly when no order of another book is reached. -/
theorem matching_fair_iff (h : Host W) (s : State W) (hs : Indexed s)
    (hguard : s.reentrancyGuard = false) (taker : Order) :
    (∃ s' taker', matchOrder h s taker = .ok (s', taker') ∧
      Fair h s taker (matchFills h s taker) s' taker') ↔ s.KeepsApart h taker := by
  obtain ⟨p', -, hmatch, hfills, hends⟩ := matchOrder_swept h hs hguard taker
  rw [hfills]
  constructor
  · rintro ⟨s', taker', hmatch', hfair⟩
    obtain ⟨rfl, rfl⟩ := Prod.mk.inj (Except.ok.inj (hmatch.symm.trans hmatch'))
    exact keepsApart_of_fair hs hends hfair
  · intro happart
    exact ⟨p'.state, p'.taker, hmatch, fair_of_keepsApart hs happart hmatch hends⟩

end Fairness

theorem bookKey_inj {invoiceId invoiceId' : ℕ} {kind kind' : ListingKind}
    (hkey : bookKey invoiceId kind < 2 ^ 64 - 1)
    (heq : bookKey invoiceId' kind' = bookKey invoiceId kind) :
    invoiceId' = invoiceId ∧ kind' = kind := by
  unfold bookKey at hkey heq
  cases kind with
  | CoFunding =>
    cases kind' with
    | CoFunding => simp only at hkey heq; exact ⟨by omega, rfl⟩
    | SingleFunded => simp only at hkey heq; omega
  | SingleFunded =>
    cases kind' with
    | CoFunding => simp only at hkey heq; omega
    | SingleFunded => simp only at hkey heq; exact ⟨by omega, rfl⟩

theorem keepsApart_of_key {h : Host W} {s : State W} {taker : Order} (hs : Indexed s)
    (hkey : bookKey taker.invoiceId taker.kind < 2 ^ 64 - 1) : s.KeepsApart h taker := by
  have hsame {o : Order}
      (hplace : o.place = (taker.side.opposite, bookKey taker.invoiceId taker.kind)) :
      taker.SameBook o := bookKey_inj hkey (congrArg Prod.snd hplace)
  refine ⟨fun _ id hbook o hget _ => ?_, fun before maker after _ hsplit _ _ => ?_⟩
  · obtain ⟨o', hget', hplace, -⟩ := (hs.byPlace.mem_iff _ _).1 hbook
    obtain rfl := Option.some.inj (hget.symm.trans hget')
    exact hsame hplace
  · have hmem : maker ∈ s.ranked taker := hsplit ▸ List.mem_append_right _ List.mem_cons_self
    exact hsame ((counterparty_iff hs).1 ((mem_ranked hs).1 hmem)).2.1

/-- Account 5 asks for one token a unit for ten units of a position in an invoice. -/
def askFor (invoiceId : ℕ) : Tx Unit :=
  ⟨[5], .placeOrder 5 ⟨invoiceId, .SingleFunded, .Ask, 10, priceScale, 0⟩⟩

/-- The bid of account 6 for a position in an invoice, at up to two tokens a unit. -/
def bidFor (invoiceId : ℕ) : Order :=
  { orderId := 2, invoiceId := invoiceId, owner := 6, token := 2, kind := .SingleFunded, side := .Bid,
    price := 2 * priceScale, amountOrBps := 15, remaining := 15, createdAt := 1000, expiresAt := 0,
    status := .Open }

theorem matching_fair_of_ask :
    ∃ s, exec sampleHost sampleStart (askFor 9) = .ok s ∧
      (matchFills sampleHost s (bidFor 9)).map Turn.amount = [10] ∧
      ∃ s' taker', matchOrder sampleHost s (bidFor 9) = .ok (s', taker') ∧
        Fair sampleHost s (bidFor 9) (matchFills sampleHost s (bidFor 9)) s' taker' := by
  obtain ⟨s, hs, hp⟩ := exists_of_check (x := exec sampleHost sampleStart (askFor 9))
    (p := fun s => decide ((matchFills sampleHost s (bidFor 9)).map Turn.amount = [10]))
    (by decide)
  have hready : Ready s := (ready_initial 1000 () 1 3).step hs
  have hkey : bookKey (bidFor 9).invoiceId (bidFor 9).kind < 2 ^ 64 - 1 := by decide
  exact ⟨s, hs, of_decide_eq_true hp,
    (matching_fair_iff sampleHost s hready.indexed hready.guard (bidFor 9)).2
      (keepsApart_of_key hready.indexed hkey)⟩

/-- The invoices with the numbers 2^63 and 2^63 + 1 share a book, and a bid for the one is filled with
an ask for the other. -/
theorem foreign_order_filled :
    ∃ s, exec sampleHost sampleStart (askFor (2 ^ 63)) = .ok s ∧ Indexed s ∧
      s.reentrancyGuard = false ∧
      ¬ ∃ s' taker', matchOrder sampleHost s (bidFor (2 ^ 63 + 1)) = .ok (s', taker') ∧
        Fair sampleHost s (bidFor (2 ^ 63 + 1))
          (matchFills sampleHost s (bidFor (2 ^ 63 + 1))) s' taker' := by
  obtain ⟨s, hs, hp⟩ := exists_of_check (x := exec sampleHost sampleStart (askFor (2 ^ 63)))
    (p := fun s => decide ((matchFills sampleHost s (bidFor (2 ^ 63 + 1))).map
      (fun fill => fill.who.invoiceId) = [2 ^ 63])) (by decide)
  have hready : Ready s := (ready_initial 1000 () 1 3).step hs
  refine ⟨s, hs, hready.indexed, hready.guard, ?_⟩
  rintro ⟨s', taker', -, hfair⟩
  have hmem : 2 ^ 63 ∈ (matchFills sampleHost s (bidFor (2 ^ 63 + 1))).map
      fun fill => fill.who.invoiceId := by
    rw [of_decide_eq_true hp]
    exact List.mem_cons_self
  obtain ⟨fill, hfill, hid⟩ := List.mem_map.1 hmem
  have hsame : fill.who.invoiceId = 2 ^ 63 + 1 := (hfair.makers fill hfill).2.1
  omega

/-! ## Completeness -/

/-- What a taker with so much left could trade with an order. -/
def State.Fillable (h : Host W) (s : State W) (taker : Order) (left : ℕ) (maker : Order) : Prop :=
  (tryFill h s.poolContract taker s.world maker (min left maker.remaining)).isSome

instance (h : Host W) (s : State W) (taker : Order) (left : ℕ) (maker : Order) :
    Decidable (s.Fillable h taker left maker) :=
  inferInstanceAs (Decidable (_ = true))

/-- The pool's answer depends on the fill alone. -/
def Host.Stateless (h : Host W) : Prop :=
  ∀ world world' pool settlement,
    (h.settleListing world pool settlement).isSome = (h.settleListing world' pool settlement).isSome

/-- A counterparty that cannot be filled is reached before the last of the attempts, while somebody
behind it could be filled with what is left. -/
def State.Blocked (h : Host W) (s : State W) (taker : Order) : Prop :=
  ∃ before blocker after world, s.ranked taker = before ++ blocker :: after ∧
    ServedUpTo Order.remaining (tryFill h s.poolContract taker) (maxMatchesPerCall - 1) s.world
      taker.remaining before world ∧
    ¬ s.Fillable h taker (taker.remaining - (before.map Order.remaining).sum) blocker ∧
    ∃ maker ∈ after, s.Fillable h taker (taker.remaining - (before.map Order.remaining).sum) maker

section Completeness

variable {h : Host W} {s : State W} {taker : Order}

theorem tryFill_isSome (hstateless : h.Stateless) (pool : Address) (world world' : W)
    (maker : Order) (fillQty : ℕ) :
    (tryFill h pool taker world maker fillQty).isSome =
      (tryFill h pool taker world' maker fillQty).isSome := by
  have hmap (total : ℤ) (x : Option W) :
      (x >>= fun world => (return (total, world) : Option (ℤ × W))).isSome = x.isSome := by
    cases x <;> rfl
  unfold tryFill
  cases fillTotalPrice maker.price fillQty with
  | none => rfl
  | some total => exact (hmap total _).trans ((hstateless _ _ _ _).trans (hmap total _).symm)

theorem fillable_after (hstateless : h.Stateless)
    (hends : Pass.Ends { state := s, taker := taker } (s.ranked taker) (s.swept h taker) p')
    (left : ℕ) (maker : Order) :
    p'.state.Fillable h p'.taker left maker ↔ s.Fillable h taker left maker := by
  have hpool : p'.state.poolContract = s.poolContract := by
    rw [hends.state, (foldl_fillTurn_keeps _ _).2.1]
    unfold Pass.base
    split_ifs
    · exact pruned_poolContract _
    · rfl
  unfold State.Fillable
  rw [hpool, hends.taker, tryFill_isSome hstateless _ p'.state.world s.world]
  rfl

theorem left_eq (hleft : 0 < (s.swept h taker).left) :
    taker.remaining - (((s.swept h taker).turns.map Turn.who).map Order.remaining).sum =
      (s.swept h taker).left := by
  have hserves := swept_serves h s taker
  have hfull : ((s.swept h taker).turns.map Turn.who).map Order.remaining =
      (s.swept h taker).turns.map Turn.amount := by
    rw [List.map_map]
    exact List.map_congr_left fun fill hfill => (hserves.left hleft fill hfill).symm
  have hsum := hserves.sum
  rw [hfull]
  omega

theorem not_complete_of_blocked (hstateless : h.Stateless)
    (hends : Pass.Ends { state := s, taker := taker } (s.ranked taker) (s.swept h taker) p')
    (hblocked : s.Blocked h taker) :
    p'.matchesMade < maxMatchesPerCall ∧ 0 < p'.taker.remaining ∧
      ∃ maker, p'.state.Counterparty p'.taker maker ∧
        p'.state.Fillable h p'.taker p'.taker.remaining maker := by
  obtain ⟨before, blocker, after, world, hsplit, hreach, hnot, maker, hmaker, hyes⟩ := hblocked
  have hturns := hreach.turns
  have hsupply := hreach.supply
  have hreach' : ServedUpTo Order.remaining (tryFill h s.poolContract taker) maxMatchesPerCall s.world
      taker.remaining before world := ⟨by omega, hsupply, hreach.state⟩
  have hfailed : tryFill h s.poolContract taker world blocker
      (min (taker.remaining - (before.map Order.remaining).sum) blocker.remaining) = none := by
    unfold State.Fillable at hnot
    rw [tryFill_isSome hstateless _ s.world world] at hnot
    exact Option.not_isSome_iff_eq_none.1 hnot
  obtain ⟨turns, hwho, hsweep⟩ : ∃ turns : List Fill, turns.map Turn.who = before ∧
      s.swept h taker =
        { turns := turns
          attempts := before.length + 1
          state := world
          left := taker.remaining - (before.map Order.remaining).sum } := by
    unfold State.swept
    rw [hsplit]
    obtain ⟨turns, hwho, hsweep⟩ := @sweep_append _ _ _ _ _ _ (blocker :: after) _ _ _ _ hreach'
    rw [sweep_of_failed (by omega) (by omega) hfailed, List.append_nil] at hsweep
    exact ⟨turns, hwho, hsweep⟩
  have hmatches := hends.matchesMade
  have htaker := hends.taker
  have htracks := hends.tracks
  rw [hsweep] at hmatches htaker htracks
  simp only at hmatches htaker htracks
  have hdrop : (s.ranked taker).drop turns.length = blocker :: after := by
    have hlen : turns.length = before.length := by rw [← hwho, List.length_map]
    rw [hsplit, hlen, List.drop_left]
  have hleft : p'.taker.remaining = taker.remaining - (before.map Order.remaining).sum := by
    rw [htaker]
  refine ⟨by omega, by omega, maker, ?_, ?_⟩
  · refine ((htracks (by omega)).mem maker).1 ?_
    rw [hdrop]
    exact List.mem_cons_of_mem _ hmaker
  · rw [hleft]
    exact (fillable_after hstateless hends _ maker).2 hyes

/-- The loop leaves nobody behind who could be filled exactly when it is not blocked. -/
theorem matching_complete_iff (h : Host W) (hstateless : h.Stateless) (s : State W) (hs : Indexed s)
    (hguard : s.reentrancyGuard = false) (taker : Order) :
    (∃ p', matchLoop h (s.matchFuel taker) { state := s, taker := taker } = .ok p' ∧
      (p'.matchesMade < maxMatchesPerCall → 0 < p'.taker.remaining →
        ∀ maker, p'.state.Counterparty p'.taker maker →
          ¬ p'.state.Fillable h p'.taker p'.taker.remaining maker)) ↔ ¬ s.Blocked h taker := by
  obtain ⟨p', hloop, -, -, hends⟩ := matchOrder_swept h hs hguard taker
  have hattempts : p'.matchesMade = (s.swept h taker).attempts :=
    hends.matchesMade.trans (Nat.zero_add _)
  have hleft : p'.taker.remaining = (s.swept h taker).left := by rw [hends.taker]
  constructor
  · rintro ⟨p'', hloop', hcomplete⟩ hblocked
    obtain rfl := Except.ok.inj (hloop.symm.trans hloop')
    obtain ⟨hmatches, hpos, maker, hcounter, hyes⟩ :=
      not_complete_of_blocked hstateless hends hblocked
    exact hcomplete hmatches hpos maker hcounter hyes
  · intro hfree
    refine ⟨p', hloop, fun hmatches hpos maker hcounter hyes => ?_⟩
    rw [hattempts] at hmatches
    rw [hleft] at hpos hyes
    have hmem := ((hends.tracks hpos).mem maker).2 hcounter
    rw [fillable_after hstateless hends] at hyes
    rcases sweep_end hpos hmatches with hall | ⟨blocker, after, hsplit, hreach, hfailed⟩
    · -- nobody is left
      have hall' : s.ranked taker = (s.swept h taker).turns.map Turn.who := hall.symm
      rw [hall', ← List.length_map Turn.who, List.drop_length] at hmem
      simp at hmem
    · have hsplit' : s.ranked taker =
          (s.swept h taker).turns.map Turn.who ++ blocker :: after := hsplit
      rw [hsplit', ← List.length_map Turn.who, List.drop_left] at hmem
      have hnot : ¬ s.Fillable h taker (s.swept h taker).left blocker := by
        unfold State.Fillable
        rw [tryFill_isSome hstateless _ s.world (s.swept h taker).state]
        exact Option.not_isSome_iff_eq_none.2 hfailed
      rcases List.mem_cons.1 hmem with rfl | hafter
      · exact hnot hyes
      · refine hfree ⟨_, blocker, after, _, hsplit', hreach, ?_, maker, hafter, ?_⟩
        · exact left_eq hpos ▸ hnot
        · exact left_eq hpos ▸ hyes

end Completeness

theorem matching_complete_of_ask :
    ∃ s, exec sampleHost sampleStart (askFor 9) = .ok s ∧
      ∃ p', matchLoop sampleHost (s.matchFuel (bidFor 9)) { state := s, taker := bidFor 9 } = .ok p' ∧
        (p'.matchesMade < maxMatchesPerCall → 0 < p'.taker.remaining →
          ∀ maker, p'.state.Counterparty p'.taker maker →
            ¬ p'.state.Fillable sampleHost p'.taker p'.taker.remaining maker) := by
  obtain ⟨s, hs, hp⟩ := exists_of_check (x := exec sampleHost sampleStart (askFor 9))
    (p := fun s => decide ((s.ranked (bidFor 9)).length = 1)) (by decide)
  have hready : Ready s := (ready_initial 1000 () 1 3).step hs
  refine ⟨s, hs, (matching_complete_iff sampleHost (fun _ _ _ _ => rfl) s hready.indexed hready.guard
    (bidFor 9)).2 ?_⟩
  rintro ⟨before, blocker, after, world, hsplit, -, -, maker, hmaker, -⟩
  have hlen := of_decide_eq_true hp
  rw [hsplit, List.length_append, List.length_cons] at hlen
  have := List.length_pos_of_mem hmaker
  omega

/-- Every investor has 100 deployed, and the pool settles nothing that account 7 sells. -/
def refusingHost : Host Unit :=
  { sampleHost with
    investorPosition := fun _ _ _ _ => (0, 100)
    settleListing := fun _ _ x => if x.seller = 7 then none else some () }

/-- An ask of account 7, and one of account 5 at twice the price. -/
def twoAsks : List (Tx Unit) :=
  [⟨[7], .placeOrder 7 ⟨9, .SingleFunded, .Ask, 10, priceScale, 0⟩⟩,
    ⟨[5], .placeOrder 5 ⟨9, .SingleFunded, .Ask, 10, 2 * priceScale, 0⟩⟩]

/-- The best ask is not settled, and the bid does not meet the one behind it. -/
theorem ask_behind_refused :
    ∃ s, twoAsks.foldlM (exec refusingHost) sampleStart = .ok s ∧ refusingHost.Stateless ∧
      Indexed s ∧ s.reentrancyGuard = false ∧
      ¬ ∃ p', matchLoop refusingHost (s.matchFuel (bidFor 9)) { state := s, taker := bidFor 9 } =
          .ok p' ∧
        (p'.matchesMade < maxMatchesPerCall → 0 < p'.taker.remaining →
          ∀ maker, p'.state.Counterparty p'.taker maker →
            ¬ p'.state.Fillable refusingHost p'.taker p'.taker.remaining maker) := by
  obtain ⟨s, hs, hp⟩ := exists_of_check (x := twoAsks.foldlM (exec refusingHost) sampleStart)
    (p := fun s => check
      (matchLoop refusingHost (s.matchFuel (bidFor 9)) { state := s, taker := bidFor 9 }) fun p' =>
        decide (∃ maker ∈ p'.state.orders.get 2,
          (p'.matchesMade < maxMatchesPerCall ∧ 0 < p'.taker.remaining) ∧
          (p'.state.orders.get maker.orderId = some maker ∧
            maker.orderId ∈ p'.state.book
              (p'.taker.side.opposite, bookKey p'.taker.invoiceId p'.taker.kind) ∧
            ¬ maker.Stale p'.state.now ∧ p'.taker.side.Within p'.taker.price maker.price ∧
            maker.owner ≠ p'.taker.owner) ∧
          p'.state.Fillable refusingHost p'.taker p'.taker.remaining maker)) (by decide)
  have hready : Ready s := ready_of_reaches (ready_initial 1000 () 1 3)
    (reaches_of_along .refl (along_of_forall (fun _ _ => trivial) _ _) hs)
  refine ⟨s, hs, fun _ _ _ _ => rfl, hready.indexed, hready.guard, ?_⟩
  rintro ⟨p', hloop, hcomplete⟩
  obtain ⟨p'', hloop', hp⟩ := exists_of_check hp
  obtain rfl := Except.ok.inj (hloop.symm.trans hloop')
  obtain ⟨maker, -, ⟨hmatches, hpos⟩, ⟨hstored, hbooked, hfresh, hwithin, hother⟩, hfillable⟩ :=
    of_decide_eq_true hp
  exact hcomplete hmatches hpos maker ⟨hstored, hbooked, hfresh, hwithin, hother⟩ hfillable

end Astera.Market
