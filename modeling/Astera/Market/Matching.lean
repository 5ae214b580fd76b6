import Astera.Market.Books

/-!
# Matching

Every round of the loop of `match_order` trims orders of the opposite side and takes from the taker,
and uses up an order to exclude or a match, so that the bound on the rounds never ends the loop.
-/

namespace Astera.Market

open Fallible Machine

variable {W : Type}

section Scan

variable {s : State W} {taker : Order} {excluded ids : List ℕ}

/-- What the scan finds is there: the best candidate can be matched, and the expired orders are
expired. -/
structure Found.Sound (s : State W) (taker : Order) (excluded ids : List ℕ) (found : Found) :
    Prop where
  best : ∀ maker, found.best = some maker → ∃ id ∈ ids, id ∉ excluded ∧
    s.orders.get id = some maker ∧ maker.status.Live ∧ ¬ maker.Stale s.now ∧
    taker.side.Within taker.price maker.price
  expired : ∀ id ∈ found.expired, ∃ order, s.orders.get id = some order ∧ order.Stale s.now

theorem Found.Sound.scanCandidate {found : Found} (hfound : found.Sound s taker excluded ids) {id : ℕ}
    (hid : id ∈ ids) : (s.scanCandidate taker excluded found id).Sound s taker excluded ids := by
  unfold State.scanCandidate
  split_ifs with hexcluded
  · exact hfound
  · split
    · exact hfound
    · rename_i candidate hget
      split_ifs with hlive hstale hwithin
      · refine ⟨hfound.best, fun i hi => ?_⟩
        rcases List.mem_append.1 hi with hi | hi
        · exact hfound.expired i hi
        · rw [List.mem_singleton.1 hi]
          exact ⟨candidate, hget, hstale⟩
      · have hsound : Found.Sound s taker excluded ids { found with best := some candidate } := by
          refine ⟨fun maker hmaker => ?_, hfound.expired⟩
          obtain rfl := Option.some.inj hmaker
          exact ⟨id, hid, hexcluded, hget, hlive, hstale, hwithin⟩
        split
        · exact hsound
        · split_ifs
          · exact hsound
          · exact hfound
      · exact hfound
      · exact hfound

theorem scan_sound (s : State W) (taker : Order) (excluded ids : List ℕ) :
    (ids.foldl (s.scanCandidate taker excluded) {}).Sound s taker excluded ids := by
  apply List.foldlRecOn
  · exact ⟨fun _ h => by simp at h, fun _ h => by simp at h⟩
  · intro found hfound id hid
    exact hfound.scanCandidate hid

end Scan

section Prune

variable {s : State W}

theorem pruneExpired_cases (hs : Indexed s) (id : ℕ) :
    Trim s (s.pruneExpired id) ∧
      ∀ id', id' ≠ id → (s.pruneExpired id).orders.get id' = s.orders.get id' := by
  unfold State.pruneExpired
  split
  · exact ⟨.idle ⟨rfl, rfl, rfl, rfl, rfl, rfl, rfl, rfl⟩, fun _ _ => rfl⟩
  · rename_i order hget
    obtain ⟨hid, -⟩ := hs.orderId id order hget
    subst hid
    refine ⟨.closed order.remaining hget (by decide), fun id' hne => ?_⟩
    exact Store.get_set_of_ne _ _ hne

theorem prune_trims : ∀ (ids : List ℕ) {s : State W}, Indexed s →
    Trims s (ids.foldl State.pruneExpired s) ∧
      ∀ id, id ∉ ids → (ids.foldl State.pruneExpired s).orders.get id = s.orders.get id := by
  intro ids
  induction ids with
  | nil =>
    intro s _
    exact ⟨.refl, fun _ _ => rfl⟩
  | cons i ids ih =>
    intro s hs
    obtain ⟨htrim, hother⟩ := pruneExpired_cases hs i
    obtain ⟨htrims, hrest⟩ := ih (htrim.indexed hs)
    refine ⟨.head htrim htrims, fun id hid => ?_⟩
    rw [List.mem_cons, not_or] at hid
    rw [List.foldl_cons, hrest id hid.2, hother id hid.1]

end Prune

section Fill

variable {h : Host W} {s s' : State W}

theorem settleFill_eq_ok {settlement : Pool.ListingSettlement} {settled : Bool}
    (hx : s.settleFill h settlement = .ok (s', settled)) : SameRecords s s' := by
  simp only [State.settleFill, State.nonReentrantStart, bind_eq_ok, exists_unit, require_eq_ok,
    pure_eq_ok] at hx
  obtain ⟨_, ⟨-, rfl⟩, hx⟩ := hx
  split at hx
  · rw [pure_eq_ok, Prod.mk.injEq] at hx
    rw [← hx.1]
    exact ⟨rfl, rfl, rfl, rfl, rfl, rfl, rfl, rfl⟩
  · rw [pure_eq_ok, Prod.mk.injEq] at hx
    rw [← hx.1]
    exact ⟨rfl, rfl, rfl, rfl, rfl, rfl, rfl, rfl⟩

theorem fillMaker_trim {maker : Order} (hget : s.orders.get maker.orderId = some maker)
    (hlive : maker.status.Live) (fillQty : ℕ) : Trim s (s.fillMaker (maker.filled fillQty)) := by
  unfold State.fillMaker Order.filled
  dsimp only
  split_ifs with hrest
  · exact .closed (maker.remaining - fillQty) hget (by decide)
  · exact .reduced hget hlive (by decide) (Nat.pos_of_ne_zero hrest) (Nat.sub_le _ _)

end Fill

/-! ## A round -/

/-- Where the pass looks for counterparties. -/
def Pass.place (p : Pass W) : Place :=
  (p.taker.side.opposite, bookKey p.taker.invoiceId p.taker.kind)

/-- What a part of the loop does: trims, and a smaller remainder of the taker. -/
structure Pass.Goes (p p' : Pass W) : Prop where
  trims : Trims p.state p'.state
  taker : ∃ remaining ≤ p.taker.remaining, p'.taker = { p.taker with remaining := remaining }

theorem Pass.Goes.refl (p : Pass W) : p.Goes p := ⟨.refl, p.taker.remaining, le_rfl, rfl⟩

theorem Pass.Goes.trans {p₁ p₂ p₃ : Pass W} (h : p₁.Goes p₂) (h' : p₂.Goes p₃) : p₁.Goes p₃ := by
  obtain ⟨r, hr, htaker⟩ := h.taker
  obtain ⟨r', hr', htaker'⟩ := h'.taker
  refine ⟨h.trims.trans h'.trims, r', ?_, ?_⟩
  · rw [htaker] at hr'
    exact hr'.trans hr
  · rw [htaker', htaker]

theorem Pass.Goes.place {p p' : Pass W} (h : p.Goes p') : p'.place = p.place := by
  obtain ⟨r, -, htaker⟩ := h.taker
  unfold Pass.place
  rw [htaker]

/-- The orders that the pass may still look at, and the matches it may still make. -/
def Pass.weight (p : Pass W) : ℕ :=
  ((p.state.book p.place).filter fun id => id ∉ p.excluded).length +
    (maxMatchesPerCall - p.matchesMade)

/-- A round that goes on excludes an order of the book or counts a match. -/
def Pass.Uses (p p' : Pass W) : Prop :=
  (∃ id ∈ p.state.book p.place, id ∉ p.excluded ∧ p'.excluded = p.excluded ++ [id] ∧
      p'.matchesMade = p.matchesMade) ∨
    p'.excluded = p.excluded ∧ p'.matchesMade = p.matchesMade + 1

theorem matchRound_eq_ok {h : Host W} {p p' : Pass W} {more : Bool} (hs : Indexed p.state)
    (hx : matchRound h p = .ok (p', more)) : p.Goes p' ∧ (more = true → p.Uses p') := by
  unfold matchRound at hx
  have hsound := scan_sound p.state p.taker p.excluded (p.state.book p.place)
  dsimp only [Pass.place] at hsound hx
  revert hsound hx
  generalize List.foldl (p.state.scanCandidate p.taker p.excluded) _ _ = found
  intro hx hsound
  obtain ⟨hprune, hother⟩ := prune_trims found.expired hs
  split at hx
  · rw [pure_eq_ok, Prod.mk.injEq] at hx
    obtain ⟨rfl, rfl⟩ := hx
    exact ⟨⟨hprune, p.taker.remaining, le_rfl, rfl⟩, nofun⟩
  · rename_i maker hbest
    obtain ⟨id, hid, hexcluded, hget, hlive, hfresh, -⟩ := hsound.best maker hbest
    obtain ⟨rfl, -⟩ := hs.orderId id maker hget
    split_ifs at hx with hself
    · rw [pure_eq_ok, Prod.mk.injEq] at hx
      obtain ⟨rfl, rfl⟩ := hx
      exact ⟨⟨hprune, p.taker.remaining, le_rfl, rfl⟩,
        fun _ => .inl ⟨maker.orderId, hid, hexcluded, rfl, rfl⟩⟩
    · split at hx
      · rw [pure_eq_ok, Prod.mk.injEq] at hx
        obtain ⟨rfl, rfl⟩ := hx
        exact ⟨⟨hprune, p.taker.remaining, le_rfl, rfl⟩, nofun⟩
      · rw [bind_eq_ok] at hx
        obtain ⟨⟨s', settled⟩, hsettle, hx⟩ := hx
        have hsame := settleFill_eq_ok hsettle
        cases settled with
        | false =>
          simp only [Bool.false_eq_true, if_false, pure_eq_ok, Prod.mk.injEq] at hx
          obtain ⟨rfl, rfl⟩ := hx
          exact ⟨⟨hprune.tail (.idle hsame), p.taker.remaining, le_rfl, rfl⟩, nofun⟩
        | true =>
          simp only [if_true, pure_eq_ok, Prod.mk.injEq] at hx
          obtain ⟨rfl, rfl⟩ := hx
          -- The maker is not expired, so pruning left it alone.
          have hkept : maker.orderId ∉ found.expired := by
            intro hmem
            obtain ⟨order, horder, hstale⟩ := hsound.expired _ hmem
            rw [hget] at horder
            exact hfresh (Option.some.inj horder ▸ hstale)
          have hget' : s'.orders.get maker.orderId = some maker := by
            rw [hsame.orders, hother _ hkept, hget]
          refine ⟨⟨(hprune.tail (.idle hsame)).tail (fillMaker_trim hget' hlive _), _,
            Nat.sub_le _ _, rfl⟩, fun _ => .inr ⟨rfl, rfl⟩⟩

theorem Pass.weight_lt {p p' : Pass W} (hgoes : p.Goes p') (huses : p.Uses p')
    (hmatches : p.matchesMade < maxMatchesPerCall) : p'.weight < p.weight := by
  have hbook : (p'.state.book p.place).Sublist (p.state.book p.place) :=
    hgoes.trims.trimmed.book p.place
  unfold Pass.weight
  rw [hgoes.place]
  rcases huses with ⟨id, hid, hexcluded, hnew, hsame⟩ | ⟨hsame, hcount⟩
  · have hless : ((p'.state.book p.place).filter fun i => i ∉ p'.excluded).length <
        ((p.state.book p.place).filter fun i => i ∉ p.excluded).length := by
      have hsub : ((p'.state.book p.place).filter fun i => i ∉ p'.excluded).Sublist
          (((p.state.book p.place).filter fun i => i ∉ p.excluded).filter fun i => i ≠ id) := by
        rw [List.filter_filter, hnew]
        have hcond : (fun i => decide (i ∉ p.excluded ++ [id])) =
            fun i => decide (i ≠ id) && decide (i ∉ p.excluded) := by
          funext i
          simp only [List.mem_append, List.mem_singleton, not_or, Bool.decide_and]
          exact Bool.and_comm _ _
        rw [hcond]
        exact hbook.filter _
      refine hsub.length_le.trans_lt ?_
      apply List.length_filter_lt_length_iff_exists.2
      exact ⟨id, List.mem_filter.2 ⟨hid, by simpa using hexcluded⟩, by simp⟩
    omega
  · have hle := (hbook.filter fun i => decide (i ∉ p.excluded)).length_le
    rw [hsame, hcount]
    omega

theorem matchLoop_goes {h : Host W} : ∀ (fuel : ℕ) {p p' : Pass W}, Indexed p.state →
    matchLoop h fuel p = .ok p' → p.Goes p' := by
  intro fuel
  induction fuel with
  | zero =>
    intro p p' _ hx
    obtain rfl := Except.ok.inj hx
    exact .refl p
  | succ fuel ih =>
    intro p p' hs hx
    unfold matchLoop at hx
    split_ifs at hx with hopen
    · rw [bind_eq_ok] at hx
      obtain ⟨⟨p₁, more⟩, hround, hx⟩ := hx
      obtain ⟨hgoes, -⟩ := matchRound_eq_ok hs hround
      cases more with
      | false =>
        simp only [Bool.false_eq_true, if_false, pure_eq_ok] at hx
        exact hx ▸ hgoes
      | true => exact hgoes.trans (ih (hgoes.trims.indexed hs) hx)
    · obtain rfl := Except.ok.inj hx
      exact .refl p

theorem matchOrder_eq_ok {h : Host W} {s s' : State W} {taker taker' : Order} (hs : Indexed s)
    (hx : matchOrder h s taker = .ok (s', taker')) :
    Trims s s' ∧ ∃ remaining ≤ taker.remaining, taker' = { taker with remaining := remaining } := by
  simp only [matchOrder, bind_eq_ok, pure_eq_ok, Prod.mk.injEq] at hx
  obtain ⟨p, hloop, rfl, rfl⟩ := hx
  have hgoes := matchLoop_goes _ hs hloop
  exact ⟨hgoes.trims, hgoes.taker⟩

end Astera.Market
