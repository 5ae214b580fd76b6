import Astera.Auction.Types
import Astera.Lib.Greedy

/-!
# Clearing of a bid auction

Eligible bids are scored, sorted by a selection sort and funded greedily, and all funded bids get
the discount of the last one.  The second half says the same of the bids themselves: their ranking,
and how far down the ranking the liquidity reaches.
-/

namespace Astera.Auction

open Machine

def creditScoreMultiplier : ℕ := 10

structure InvoiceBid where
  invoiceId : ℕ
  sme : Address
  principal : ℤ
  maxDiscountBps : ℕ
  minPriorityScore : ℕ
  deriving DecidableEq, Repr

structure Allocation where
  invoiceId : ℕ
  allocatedAmount : ℤ
  clearingDiscountBps : ℕ
  deriving DecidableEq, Repr

def compositeScore (maxDiscountBps creditScore : ℕ) : ℕ :=
  let scoreWeight :=
    saturatingMulU 128 (saturatingMulU 128 creditScore creditScoreMultiplier) maxDiscountBps / 10000
  saturatingAddU 128 maxDiscountBps scoreWeight

/-- An entry of the list that is ranked. -/
structure Scored where
  score : ℕ
  maxDiscountBps : ℕ
  invoiceId : ℕ
  principal : ℤ
  sme : Address
  deriving DecidableEq, Repr

/-- The credit score of a bidder, zero if there is none. -/
def creditScoreOf (creditScores : Store Address ℕ) (bid : InvoiceBid) : ℕ :=
  (creditScores.get bid.sme).getD 0

def scored (creditScores : Store Address ℕ) (bid : InvoiceBid) : Scored where
  score := compositeScore bid.maxDiscountBps (creditScoreOf creditScores bid)
  maxDiscountBps := bid.maxDiscountBps
  invoiceId := bid.invoiceId
  principal := bid.principal
  sme := bid.sme

def scoreBid (creditScores : Store Address ℕ) (bid : InvoiceBid) : Option Scored :=
  if creditScoreOf creditScores bid < bid.minPriorityScore then none
  else some (scored creditScores bid)

def Scored.IsBetter (current best : Scored) : Prop :=
  best.score < current.score ∨ current.score = best.score ∧ current.invoiceId < best.invoiceId

instance (current best : Scored) : Decidable (current.IsBetter best) :=
  inferInstanceAs (Decidable (_ ∨ _))

/-- The variables of the loop that funds the sorted bids. -/
structure Funding where
  result : List Allocation := []
  remaining : ℤ
  lowestFundedDiscount : ℕ := 0
  hasAllocations : Bool := false
  deriving DecidableEq, Repr

/-- The body of that loop: what is left goes to the bid, up to its principal. -/
def Funding.fund (f : Funding) (bid : Scored) : Funding :=
  let allocated := if bid.principal ≤ f.remaining then bid.principal else f.remaining
  { result := f.result ++ [⟨bid.invoiceId, allocated, 0⟩]
    remaining := saturatingSub f.remaining allocated
    lowestFundedDiscount := bid.maxDiscountBps
    hasAllocations := true }

/-- The loop that funds the sorted bids. -/
def Funding.allocate (f : Funding) : List Scored → Funding
  | [] => f
  | bid :: rest => if f.remaining ≤ 0 then f else (f.fund bid).allocate rest

def clearAuction (bids : List InvoiceBid) (availableLiquidity : ℤ)
    (creditScores : Store Address ℕ) : List Allocation :=
  if availableLiquidity ≤ 0 ∨ bids = [] then []
  else
    let scored := bids.filterMap (scoreBid creditScores)
    let sorted := Greedy.selectionSort Scored.IsBetter scored.length scored
    let funding := Funding.allocate { remaining := availableLiquidity } sorted
    if !funding.hasAllocations then funding.result
    else
      funding.result.map fun allocation =>
        { allocation with clearingDiscountBps := funding.lowestFundedDiscount }

def simulateClearing (bids : List InvoiceBid) (availableLiquidity : ℤ)
    (creditScores : Store Address ℕ) : List Allocation :=
  clearAuction bids availableLiquidity creditScores

/-! ## The ranking of the bids -/

/-- A bid whose bidder's credit score meets its minimum. -/
def Eligible (creditScores : Store Address ℕ) (bid : InvoiceBid) : Prop :=
  bid.minPriorityScore ≤ creditScoreOf creditScores bid

instance (creditScores : Store Address ℕ) (bid : InvoiceBid) :
    Decidable (Eligible creditScores bid) :=
  inferInstanceAs (Decidable (_ ≤ _))

/-- A bid comes before another: by its composite score, then by its invoice. -/
def Outranks (creditScores : Store Address ℕ) (a b : InvoiceBid) : Prop :=
  (scored creditScores a).IsBetter (scored creditScores b)

instance (creditScores : Store Address ℕ) (a b : InvoiceBid) :
    Decidable (Outranks creditScores a b) :=
  inferInstanceAs (Decidable (Scored.IsBetter _ _))

instance : Std.Asymm Scored.IsBetter where
  asymm a b hab hba := by
    unfold Scored.IsBetter at hab hba
    omega

instance : IsTrans Scored fun a b => ¬ b.IsBetter a where
  trans a b c hab hbc := by
    unfold Scored.IsBetter at hab hbc ⊢
    omega

/-- The eligible bids, best first. -/
def ranking (creditScores : Store Address ℕ) (bids : List InvoiceBid) : List InvoiceBid :=
  (bids.filter fun bid => Eligible creditScores bid).insertionSort
    fun a b => ¬ Outranks creditScores b a

theorem scored_eq (creditScores : Store Address ℕ) (bids : List InvoiceBid) :
    bids.filterMap (scoreBid creditScores) =
      (bids.filter fun bid => Eligible creditScores bid).map (scored creditScores) := by
  induction bids with
  | nil => rfl
  | cons bid bids ih =>
    by_cases hskip : creditScoreOf creditScores bid < bid.minPriorityScore
    · have hnot : ¬ Eligible creditScores bid := not_le.2 hskip
      rw [List.filterMap_cons, List.filter_cons_of_neg (by simpa using hnot), ih]
      simp only [scoreBid, if_pos hskip]
    · have heligible : Eligible creditScores bid := not_lt.1 hskip
      rw [List.filterMap_cons, List.filter_cons_of_pos (by simpa using heligible), ih]
      simp only [scoreBid, if_neg hskip, List.map_cons]

theorem sorted_eq (creditScores : Store Address ℕ) (bids : List InvoiceBid) :
    Greedy.selectionSort Scored.IsBetter (bids.filterMap (scoreBid creditScores)).length
        (bids.filterMap (scoreBid creditScores)) =
      (ranking creditScores bids).map (scored creditScores) := by
  rw [Greedy.selectionSort_eq _ _ rfl, scored_eq]
  unfold ranking
  exact (List.map_insertionSort (fun a b => ¬ Outranks creditScores b a)
    (fun a b => ¬ Scored.IsBetter b a) (scored creditScores) _ fun _ _ _ _ => Iff.rfl).symm

theorem perm_ranking (creditScores : Store Address ℕ) (bids : List InvoiceBid) :
    (ranking creditScores bids).Perm (bids.filter fun bid => Eligible creditScores bid) :=
  List.perm_insertionSort _ _

theorem mem_ranking {creditScores : Store Address ℕ} {bids : List InvoiceBid} {bid : InvoiceBid} :
    bid ∈ ranking creditScores bids ↔ bid ∈ bids ∧ Eligible creditScores bid := by
  rw [(perm_ranking creditScores bids).mem_iff, List.mem_filter, decide_eq_true_eq]

/-! ## How far the liquidity reaches -/

/-- The number of principals that are funded in order as long as liquidity is left. -/
def reach : ℤ → List ℤ → ℕ
  | _, [] => 0
  | liquidity, principal :: principals =>
    if liquidity ≤ 0 then 0 else reach (saturatingSub liquidity principal) principals + 1

/-- The bids that are funded: the ranking as far as the liquidity reaches. -/
def funded (creditScores : Store Address ℕ) (bids : List InvoiceBid) (availableLiquidity : ℤ) :
    List InvoiceBid :=
  (ranking creditScores bids).take
    (reach availableLiquidity ((ranking creditScores bids).map InvoiceBid.principal))

theorem reach_of_nonpos {liquidity : ℤ} (h : liquidity ≤ 0) (principals : List ℤ) :
    reach liquidity principals = 0 := by
  cases principals with
  | nil => rfl
  | cons principal principals => rw [reach, if_pos h]

theorem reach_cons {liquidity : ℤ} (h : 0 < liquidity) (principal : ℤ) (principals : List ℤ) :
    reach liquidity (principal :: principals) =
      reach (saturatingSub liquidity principal) principals + 1 := by
  rw [reach, if_neg h.not_ge]

namespace Funding

theorem allocate_of_nonpos {f : Funding} (h : f.remaining ≤ 0) (sorted : List Scored) :
    f.allocate sorted = f := by
  cases sorted with
  | nil => rfl
  | cons bid rest => rw [allocate, if_pos h]

theorem allocate_cons {f : Funding} (h : 0 < f.remaining) (bid : Scored) (rest : List Scored) :
    f.allocate (bid :: rest) = (f.fund bid).allocate rest := by
  rw [allocate, if_neg h.not_ge]

theorem reach_fund (f : Funding) (bid : Scored) (principals : List ℤ) :
    reach (f.fund bid).remaining principals =
      reach (saturatingSub f.remaining bid.principal) principals := by
  by_cases hle : bid.principal ≤ f.remaining
  · simp only [fund, if_pos hle]
  · have hself : (f.fund bid).remaining ≤ 0 := by
      simp only [fund, if_neg hle, saturatingSub]
      omega
    have hmore : saturatingSub f.remaining bid.principal ≤ 0 := by
      unfold saturatingSub
      omega
    rw [reach_of_nonpos hself, reach_of_nonpos hmore]

theorem remaining_fund {f : Funding} {bid : Scored} (hrange : InI128 f.remaining)
    (hleft : 0 < f.remaining) (hprincipal : 0 < bid.principal) :
    (f.fund bid).remaining = f.remaining - min bid.principal f.remaining := by
  unfold fund
  simp only
  rw [← min_def, saturatingSub_eq]
  unfold InI128 at *
  omega

theorem allocate_funded (sorted : List Scored) :
    ∀ f : Funding,
      (f.allocate sorted).result.map Allocation.invoiceId =
          f.result.map Allocation.invoiceId ++
            (sorted.take (reach f.remaining (sorted.map Scored.principal))).map Scored.invoiceId ∧
        (f.allocate sorted).lowestFundedDiscount =
          ((sorted.take (reach f.remaining (sorted.map Scored.principal))).getLast?.map
            Scored.maxDiscountBps).getD f.lowestFundedDiscount ∧
        (f.allocate sorted).hasAllocations =
          (f.hasAllocations ||
            !(sorted.take (reach f.remaining (sorted.map Scored.principal))).isEmpty) := by
  induction sorted with
  | nil =>
    intro f
    exact ⟨(List.append_nil _).symm, rfl, (Bool.or_false _).symm⟩
  | cons bid rest ih =>
    intro f
    by_cases hzero : f.remaining ≤ 0
    · rw [allocate_of_nonpos hzero, reach_of_nonpos hzero]
      exact ⟨(List.append_nil _).symm, rfl, (Bool.or_false _).symm⟩
    · obtain ⟨hids, hlowest, hhas⟩ := ih (f.fund bid)
      rw [reach_fund] at hids hlowest hhas
      rw [allocate_cons (not_le.1 hzero), List.map_cons, reach_cons (not_le.1 hzero),
        List.take_succ_cons]
      refine ⟨?_, ?_, ?_⟩
      · rw [hids]
        simp [fund]
      · rw [hlowest, List.getLast?_cons]
        cases (rest.take (reach (saturatingSub f.remaining bid.principal)
          (rest.map Scored.principal))).getLast? with
        | none => rfl
        | some marginal => rfl
      · rw [hhas]
        simp [fund]

theorem allocate_amounts (sorted : List Scored) :
    ∀ f : Funding, InI128 f.remaining → (∀ bid ∈ sorted, 0 < bid.principal) →
      (f.allocate sorted).result.map Allocation.allocatedAmount =
        f.result.map Allocation.allocatedAmount ++
          Greedy.serve f.remaining (sorted.map Scored.principal) := by
  induction sorted with
  | nil =>
    intro f _ _
    exact (List.append_nil _).symm
  | cons bid rest ih =>
    intro f hrange hpos
    by_cases hzero : f.remaining ≤ 0
    · rw [allocate_of_nonpos hzero, Greedy.serve_of_nonpos hzero, List.append_nil]
    · have hprincipal := hpos bid List.mem_cons_self
      have hleft := remaining_fund hrange (not_le.1 hzero) hprincipal
      have hrange' : InI128 (f.fund bid).remaining := by
        unfold InI128 at *
        omega
      rw [allocate_cons (not_le.1 hzero), List.map_cons, Greedy.serve_cons (not_le.1 hzero),
        ih _ hrange' fun other hother => hpos other (List.mem_cons_of_mem _ hother), hleft]
      simp [fund, min_def]

end Funding

theorem reach_eq_length_serve :
    ∀ {principals : List ℤ} {liquidity : ℤ}, InI128 liquidity →
      (∀ principal ∈ principals, 0 < principal) →
      reach liquidity principals = (Greedy.serve liquidity principals).length := by
  intro principals
  induction principals with
  | nil =>
    intro liquidity _ _
    rfl
  | cons principal principals ih =>
    intro liquidity hrange hpos
    have hprincipal := hpos principal List.mem_cons_self
    have hrest : ∀ p ∈ principals, 0 < p := fun p hp => hpos p (List.mem_cons_of_mem _ hp)
    by_cases hzero : liquidity ≤ 0
    · rw [reach_of_nonpos hzero, Greedy.serve_of_nonpos hzero]
      rfl
    · rw [reach_cons (not_le.1 hzero), Greedy.serve_cons (not_le.1 hzero), List.length_cons]
      by_cases hle : principal ≤ liquidity
      · have hleft : InI128 (liquidity - principal) := by
          unfold InI128 at *
          omega
        rw [min_eq_left hle, saturatingSub_eq _ _ hleft, ih hleft hrest]
      · have hmore : saturatingSub liquidity principal ≤ 0 := by
          unfold saturatingSub
          omega
        rw [reach_of_nonpos hmore, min_eq_right (not_le.1 hle).le, sub_self,
          Greedy.serve_of_nonpos le_rfl]
        rfl

theorem clearAuction_funded (bids : List InvoiceBid) (availableLiquidity : ℤ)
    (creditScores : Store Address ℕ) :
    (clearAuction bids availableLiquidity creditScores).map Allocation.invoiceId =
        (funded creditScores bids availableLiquidity).map InvoiceBid.invoiceId ∧
      ∀ allocation ∈ clearAuction bids availableLiquidity creditScores,
        some allocation.clearingDiscountBps =
          (funded creditScores bids availableLiquidity).getLast?.map InvoiceBid.maxDiscountBps := by
  unfold clearAuction
  by_cases hnone : availableLiquidity ≤ 0 ∨ bids = []
  · have hfunded : funded creditScores bids availableLiquidity = [] := by
      unfold funded
      rcases hnone with hzero | rfl
      · rw [reach_of_nonpos hzero, List.take_zero]
      · rfl
    rw [if_pos hnone, hfunded]
    exact ⟨rfl, by simp⟩
  · rw [if_neg hnone]
    simp only [sorted_eq]
    obtain ⟨hids, hlowest, hhas⟩ := Funding.allocate_funded ((ranking creditScores bids).map
      (scored creditScores)) { remaining := availableLiquidity }
    have htake : ((ranking creditScores bids).map (scored creditScores)).take
        (reach availableLiquidity
          (((ranking creditScores bids).map (scored creditScores)).map Scored.principal)) =
        (funded creditScores bids availableLiquidity).map (scored creditScores) := by
      unfold funded
      rw [List.map_map, List.map_take]
      rfl
    rw [htake] at hids hlowest hhas
    have hids' : ((Funding.allocate { remaining := availableLiquidity }
          ((ranking creditScores bids).map (scored creditScores))).result.map
            Allocation.invoiceId) =
        (funded creditScores bids availableLiquidity).map InvoiceBid.invoiceId := by
      rw [hids, List.map_map]
      rfl
    cases hlast : (funded creditScores bids availableLiquidity).getLast? with
    | none =>
      have hempty := List.getLast?_eq_none_iff.1 hlast
      rw [hempty] at hids' hhas
      rw [hhas]
      refine ⟨by simpa [hempty] using hids', ?_⟩
      have hresult := List.map_eq_nil_iff.1 hids'
      simp [hresult]
    | some marginal =>
      have hne : funded creditScores bids availableLiquidity ≠ [] := by
        rintro hempty
        rw [hempty] at hlast
        cases hlast
      have hsome : (Funding.allocate { remaining := availableLiquidity }
          ((ranking creditScores bids).map (scored creditScores))).hasAllocations = true := by
        rw [hhas]
        simp [hne]
      rw [List.getLast?_map, hlast] at hlowest
      rw [hsome]
      refine ⟨?_, ?_⟩
      · simpa [List.map_map, Function.comp_def] using hids'
      · intro allocation hmem
        obtain ⟨before, -, rfl⟩ := List.mem_map.1 (by simpa using hmem)
        simp only [hlowest]
        rfl

theorem clearAuction_amounts {bids : List InvoiceBid} {availableLiquidity : ℤ}
    (creditScores : Store Address ℕ) (hrange : InI128 availableLiquidity)
    (hpos : ∀ bid ∈ bids, 0 < bid.principal) :
    (clearAuction bids availableLiquidity creditScores).map Allocation.allocatedAmount =
      Greedy.serve availableLiquidity ((ranking creditScores bids).map InvoiceBid.principal) := by
  unfold clearAuction
  by_cases hnone : availableLiquidity ≤ 0 ∨ bids = []
  · rw [if_pos hnone]
    rcases hnone with hzero | rfl
    · rw [Greedy.serve_of_nonpos hzero]
      rfl
    · rfl
  · rw [if_neg hnone]
    simp only [sorted_eq]
    have hamounts := Funding.allocate_amounts ((ranking creditScores bids).map (scored creditScores))
      { remaining := availableLiquidity } hrange (by
        intro entry hentry
        obtain ⟨bid, hbid, rfl⟩ := List.mem_map.1 hentry
        exact hpos bid (mem_ranking.1 hbid).1)
    rw [List.map_map] at hamounts
    split_ifs
    · exact hamounts
    · rw [List.map_map]
      exact hamounts

end Astera.Auction
