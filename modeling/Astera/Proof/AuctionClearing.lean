import Astera.Auction.Clearing

/-!
# What a clearing owes the bids

A clearing funds the best eligible bids, as many as the liquidity reaches; the result does not
depend on their order.  All winners get the discount of the last one, whose limit may be higher than
that of a winner with a better score.
-/

namespace Astera.Auction

open Machine

variable {creditScores : Store Address ℕ} {bids : List InvoiceBid} {availableLiquidity : ℤ}

theorem outranks_of_not {a b : InvoiceBid} (hid : a.invoiceId ≠ b.invoiceId)
    (h : ¬ Outranks creditScores b a) : Outranks creditScores a b := by
  have hid' : (scored creditScores a).invoiceId ≠ (scored creditScores b).invoiceId := hid
  unfold Outranks Scored.IsBetter at h ⊢
  omega

instance : Std.Total fun a b => ¬ Outranks creditScores b a where
  total a b := by
    by_contra hboth
    obtain ⟨hba, hab⟩ := not_or.1 hboth
    exact Std.Asymm.asymm (r := Scored.IsBetter) _ _ (not_not.1 hba) (not_not.1 hab)

instance : IsTrans InvoiceBid fun a b => ¬ Outranks creditScores b a where
  trans _ _ _ := IsTrans.trans (r := fun a b : Scored => ¬ b.IsBetter a) _ _ _

theorem pairwise_ranking :
    (ranking creditScores bids).Pairwise fun a b => ¬ Outranks creditScores b a :=
  List.pairwise_insertionSort _ _

theorem eq_of_invoiceId (hids : (bids.map InvoiceBid.invoiceId).Nodup) {a b : InvoiceBid}
    (ha : a ∈ bids) (hb : b ∈ bids) (hid : a.invoiceId = b.invoiceId) : a = b :=
  List.inj_on_of_nodup_map hids ha hb hid

theorem pairwise_outranks (hids : (bids.map InvoiceBid.invoiceId).Nodup) :
    (ranking creditScores bids).Pairwise (Outranks creditScores) := by
  have hnodup : (ranking creditScores bids).Nodup :=
    (perm_ranking creditScores bids).nodup_iff.2 (hids.of_map _ |>.filter _)
  refine (pairwise_ranking.and hnodup).imp_of_mem fun {a b} ha hb h => ?_
  refine outranks_of_not (fun hid => h.2 ?_) h.1
  exact eq_of_invoiceId hids (mem_ranking.1 ha).1 (mem_ranking.1 hb).1 hid

theorem ranking_of_perm {bids' : List InvoiceBid} (hids : (bids.map InvoiceBid.invoiceId).Nodup)
    (hperm : bids'.Perm bids) : ranking creditScores bids' = ranking creditScores bids := by
  have hids' : (bids'.map InvoiceBid.invoiceId).Nodup := (hperm.map _).nodup_iff.2 hids
  refine List.Perm.eq_of_pairwise ?_ (pairwise_outranks hids') (pairwise_outranks hids) ?_
  · intro a b _ _ hab hba
    exact absurd hba (Std.Asymm.asymm (r := Scored.IsBetter) _ _ hab)
  · exact (perm_ranking _ _).trans ((hperm.filter _).trans (perm_ranking _ _).symm)

theorem clearAuction_of_perm {bids' : List InvoiceBid}
    (hids : (bids.map InvoiceBid.invoiceId).Nodup) (hperm : bids'.Perm bids) :
    clearAuction bids' availableLiquidity creditScores =
      clearAuction bids availableLiquidity creditScores := by
  have hempty : bids' = [] ↔ bids = [] := by
    rw [← List.length_eq_zero_iff, ← List.length_eq_zero_iff, hperm.length_eq]
  unfold clearAuction
  simp only [sorted_eq, ranking_of_perm hids hperm, hempty]

/-! ## Allocation of the liquidity -/

/-- A clearing that gives `allocations` to `winners`. -/
structure Cleared (creditScores : Store Address ℕ) (bids : List InvoiceBid)
    (availableLiquidity : ℤ) (winners : List InvoiceBid) (allocations : List Allocation) : Prop where
  eligible : ∀ winner ∈ winners, winner ∈ bids ∧ Eligible creditScores winner
  descending : winners.Pairwise (Outranks creditScores)
  ahead : ∀ winner ∈ winners, ∀ bid ∈ bids, Eligible creditScores bid → bid ∉ winners →
    Outranks creditScores winner bid
  amounts : List.Forall₂ (fun allocation winner => allocation.invoiceId = winner.invoiceId ∧
    0 < allocation.allocatedAmount ∧ allocation.allocatedAmount ≤ winner.principal) allocations winners
  full : (allocations.map Allocation.allocatedAmount).dropLast =
    (winners.map InvoiceBid.principal).dropLast
  total : (allocations.map Allocation.allocatedAmount).sum = min availableLiquidity
    ((bids.filter fun bid => Eligible creditScores bid).map InvoiceBid.principal).sum

theorem forall₂_of_map {α β : Type} {f : α → ℕ} {g : β → ℕ} {v : α → ℤ} {w : β → ℤ}
    {R : ℤ → ℤ → Prop} :
    ∀ {l : List α} {m : List β}, l.map f = m.map g → List.Forall₂ R (l.map v) (m.map w) →
      List.Forall₂ (fun a b => f a = g b ∧ R (v a) (w b)) l m := by
  intro l
  induction l with
  | nil =>
    intro m hmap _
    rw [List.map_eq_nil_iff.1 hmap.symm]
    exact .nil
  | cons a l ih =>
    intro m hmap hrel
    cases m with
    | nil => cases hmap
    | cons b m =>
      obtain ⟨hhead, htail⟩ := List.cons.inj hmap
      cases hrel with
      | cons hR hrest => exact .cons ⟨hhead, hR⟩ (ih htail hrest)

/-- Bids for different invoices are ranked and funded one after the other until the liquidity is used
up, whatever the order they are given in. -/
theorem clearing_allocates (creditScores : Store Address ℕ) (bids : List InvoiceBid)
    (availableLiquidity : ℤ) (hrange : InI128 availableLiquidity)
    (hpos : ∀ bid ∈ bids, 0 < bid.principal) (hids : (bids.map InvoiceBid.invoiceId).Nodup)
    (hliquidity : 0 < availableLiquidity) :
    (∃ winners, Cleared creditScores bids availableLiquidity winners
        (clearAuction bids availableLiquidity creditScores)) ∧
      ∀ bids', bids'.Perm bids → clearAuction bids' availableLiquidity creditScores =
        clearAuction bids availableLiquidity creditScores := by
  refine ⟨⟨funded creditScores bids availableLiquidity, ?_⟩,
    fun bids' hperm => clearAuction_of_perm hids hperm⟩
  have hamounts := clearAuction_amounts creditScores hrange hpos
  have hfunded := (clearAuction_funded bids availableLiquidity creditScores).1
  have hprincipal : ∀ p ∈ (ranking creditScores bids).map InvoiceBid.principal, 0 < p := by
    intro p hp
    obtain ⟨bid, hbid, rfl⟩ := List.mem_map.1 hp
    exact hpos bid (mem_ranking.1 hbid).1
  have htake : (funded creditScores bids availableLiquidity).map InvoiceBid.principal =
      ((ranking creditScores bids).map InvoiceBid.principal).take
        (Greedy.serve availableLiquidity
          ((ranking creditScores bids).map InvoiceBid.principal)).length := by
    unfold funded
    rw [List.map_take, reach_eq_length_serve hrange hprincipal]
  have hsplit : ranking creditScores bids = funded creditScores bids availableLiquidity ++
      (ranking creditScores bids).drop
        (reach availableLiquidity ((ranking creditScores bids).map InvoiceBid.principal)) :=
    (List.take_append_drop _ _).symm
  have hpairwise : (ranking creditScores bids).Pairwise (Outranks creditScores) :=
    pairwise_outranks hids
  rw [hsplit, List.pairwise_append] at hpairwise
  refine ⟨?_, hpairwise.1, ?_, ?_, ?_, ?_⟩
  · intro winner hwinner
    exact mem_ranking.1 (List.mem_of_mem_take hwinner)
  · intro winner hwinner bid hbid heligible hnot
    have hmem := mem_ranking.2 ⟨hbid, heligible⟩
    rw [hsplit, List.mem_append] at hmem
    exact hpairwise.2.2 winner hwinner bid (hmem.resolve_left hnot)
  · refine forall₂_of_map (R := fun amount principal => 0 < amount ∧ amount ≤ principal) hfunded ?_
    rw [hamounts, htake]
    exact Greedy.serve_bounds hprincipal
  · rw [hamounts, htake]
    exact Greedy.serve_full hprincipal
  · rw [hamounts, Greedy.sum_serve hprincipal hliquidity.le]
    exact congrArg (min availableLiquidity) ((perm_ranking creditScores bids).map _).sum_eq

/-- Two bidders with credit scores. -/
def sampleScores : Store Address ℕ := ((∅ : Store Address ℕ).set 7 800).set 8 100

/-- A bid of each of them, the second with the higher limit. -/
def rankedBids : List InvoiceBid := [⟨1, 8, 1000, 500, 0⟩, ⟨2, 7, 1000, 400, 0⟩]

theorem clearing_allocates_partial :
    ∃ winners, Cleared sampleScores rankedBids 1500 winners
      (clearAuction rankedBids 1500 sampleScores) :=
  (clearing_allocates sampleScores rankedBids 1500 (by decide) (by decide) (by decide)
    (by decide)).1

theorem compositeScore_lt {discount discount' creditScore : ℕ} (hdiscount' : discount' < 2 ^ 32)
    (hcredit : creditScore < 2 ^ 32) (hlt : discount < discount') :
    compositeScore discount creditScore < compositeScore discount' creditScore := by
  have hweight : saturatingMulU 128 creditScore creditScoreMultiplier = creditScore * 10 := by
    unfold saturatingMulU creditScoreMultiplier
    omega
  have hbound (d : ℕ) (hd : d < 2 ^ 32) : creditScore * 10 * d ≤ 2 ^ 36 * 2 ^ 32 :=
    Nat.mul_le_mul (by omega) hd.le
  have hmono : creditScore * 10 * discount ≤ creditScore * 10 * discount' :=
    Nat.mul_le_mul_left _ hlt.le
  have hhigh := hbound discount' hdiscount'
  unfold compositeScore
  rw [hweight]
  unfold saturatingMulU saturatingAddU
  simp only
  generalize creditScore * 10 * discount = low at *
  generalize creditScore * 10 * discount' = high at *
  omega

/-- The clearing discount keeps to the limits of the funded invoices exactly when no bid for one of
them has a lower limit than the last bid that the liquidity reaches. -/
theorem winners_within_limits_iff (bids : List InvoiceBid) (availableLiquidity : ℤ)
    (creditScores : Store Address ℕ) :
    (∀ allocation ∈ clearAuction bids availableLiquidity creditScores, ∀ bid ∈ bids,
        bid.invoiceId = allocation.invoiceId →
          allocation.clearingDiscountBps ≤ bid.maxDiscountBps) ↔
      ∀ marginal ∈ (funded creditScores bids availableLiquidity).getLast?,
        ∀ winner ∈ funded creditScores bids availableLiquidity, ∀ bid ∈ bids,
          bid.invoiceId = winner.invoiceId → marginal.maxDiscountBps ≤ bid.maxDiscountBps := by
  obtain ⟨hids, hdiscount⟩ := clearAuction_funded bids availableLiquidity creditScores
  constructor
  · intro h marginal hmarginal winner hwinner bid hbid hid
    obtain ⟨allocation, hmem, heq⟩ := List.mem_map.1
      (hids ▸ List.mem_map_of_mem (f := InvoiceBid.invoiceId) hwinner)
    have hclearing := hdiscount allocation hmem
    rw [Option.mem_def.1 hmarginal, Option.map_some] at hclearing
    exact Option.some.inj hclearing ▸ h allocation hmem bid hbid (hid.trans heq.symm)
  · intro h allocation hmem bid hbid hid
    obtain ⟨winner, hwinner, heq⟩ := List.mem_map.1
      (hids ▸ List.mem_map_of_mem (f := Allocation.invoiceId) hmem)
    obtain ⟨marginal, hmarginal, hclearing⟩ := Option.map_eq_some_iff.1 (hdiscount allocation hmem).symm
    exact hclearing ▸ h marginal hmarginal winner hwinner bid hbid (hid.trans heq.symm)

/-- Where all bidders have one credit score, the last bid that is funded has the lowest limit. -/
theorem marginal_le_of_equal_scores {creditScore : ℕ} (hcredit : creditScore < 2 ^ 32)
    (hscore : ∀ bid ∈ bids, creditScoreOf creditScores bid = creditScore)
    (hrange : ∀ bid ∈ bids, bid.maxDiscountBps < 2 ^ 32) {marginal winner : InvoiceBid}
    (hmarginal : marginal ∈ (funded creditScores bids availableLiquidity).getLast?)
    (hwinner : winner ∈ funded creditScores bids availableLiquidity) :
    marginal.maxDiscountBps ≤ winner.maxDiscountBps := by
  obtain ⟨above, hsplit⟩ := List.getLast?_eq_some_iff.1 (Option.mem_def.1 hmarginal)
  have hpairwise : (funded creditScores bids availableLiquidity).Pairwise
      fun a b => ¬ Outranks creditScores b a := pairwise_ranking.sublist (List.take_sublist _ _)
  rw [hsplit, List.mem_append, List.mem_singleton] at hwinner
  rcases hwinner with habove | rfl
  · have hmem (bid : InvoiceBid) (hbid : bid ∈ above ++ [marginal]) : bid ∈ bids :=
      (mem_ranking.1 (List.mem_of_mem_take (hsplit ▸ hbid))).1
    have hwinner := hmem winner (List.mem_append_left _ habove)
    have hlast := hmem marginal (List.mem_append_right _ List.mem_cons_self)
    rw [hsplit, List.pairwise_append] at hpairwise
    by_contra hlt
    have hscores := compositeScore_lt (hrange marginal hlast) hcredit (not_le.1 hlt)
    refine hpairwise.2.2 winner habove marginal List.mem_cons_self (.inl ?_)
    simpa only [scored, hscore _ hwinner, hscore _ hlast] using hscores
  · exact le_rfl

theorem marginal_le_of_equal_scores_ranked :
    (⟨2, 7, 1000, 400, 0⟩ : InvoiceBid).maxDiscountBps ≤
      (⟨1, 8, 1000, 500, 0⟩ : InvoiceBid).maxDiscountBps :=
  marginal_le_of_equal_scores (show 0 < 2 ^ 32 by decide)
    (show ∀ bid ∈ rankedBids, creditScoreOf ∅ bid = 0 by decide) (by decide)
    (show _ ∈ (funded ∅ rankedBids 1500).getLast? by decide) (by decide)

/-- Two invoices are funded in full; the one with the better credit score offered 400 basis points
and gets the other one's 500. -/
theorem winner_above_limit :
    ¬ ∀ allocation ∈ clearAuction rankedBids 2000 sampleScores, ∀ bid ∈ rankedBids,
      bid.invoiceId = allocation.invoiceId →
        allocation.clearingDiscountBps ≤ bid.maxDiscountBps := by
  decide

end Astera.Auction
