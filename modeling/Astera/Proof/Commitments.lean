import Astera.Market.Steps

/-!
# Commitments on the secondary market

What is free of a position is found by a scan that is bounded by two caps.  The book lists an order
exactly while it rests, so the scan finds what a scan of everything would find, and no owner offers
more than the position that the pool reported at the last offer.
-/

namespace Astera.Market

open Fallible Machine Index Transition

variable {W : Type}
variable {h : Host W} {seen : Seen} {s s' : State W}

/-- The order can still trade and has something left. -/
def State.Rests (s : State W) (id : ℕ) : Prop :=
  ∃ order, s.orders.get id = some order ∧ order.status.Live ∧ 0 < order.remaining

/-- The id stands on a single side of a single book, once. -/
def State.OnceOnBook (s : State W) (id : ℕ) : Prop :=
  ∃ place, (s.book place).count id = 1 ∧ ∀ place', place' ≠ place → id ∉ s.book place'

section Book

variable {s : State W} {id : ℕ}

theorem onceOnBook_of_mem (hs : Indexed s) {place : Place} (hmem : id ∈ s.book place) :
    s.OnceOnBook id := by
  refine ⟨place, List.count_eq_one_of_mem (hs.byPlace.nodup place) hmem, fun place' hne hmem' => ?_⟩
  obtain ⟨order, hget, rfl⟩ := hs.byPlace.stored place id hmem
  exact hs.byPlace.toIsIndex.notMem_of_ne hget hne hmem'

theorem onceOnBook_iff_rests (hs : Indexed s) : s.OnceOnBook id ↔ s.Rests id := by
  constructor
  · rintro ⟨place, hcount, -⟩
    have hmem : id ∈ s.book place := List.count_pos_iff.1 (by omega)
    obtain ⟨order, hget, -, hresting⟩ := (hs.byPlace.mem_iff place id).1 hmem
    exact ⟨order, hget, order.resting_iff.1 hresting⟩
  · rintro ⟨order, hget, hlive⟩
    have hmem : id ∈ s.book order.place :=
      (hs.byPlace.mem_iff _ _).2 ⟨order, hget, rfl, order.resting_iff.2 hlive⟩
    exact onceOnBook_of_mem hs hmem

end Book

section Scans

variable (s : State W) (invoiceId : ℕ) (owner : Address) (kind : ListingKind) (owned : ℕ)

/-- The scan over every listing and every order that was ever created. -/
def State.fullHistoryCapacity : Option ℕ :=
  s.capacityOver (List.range' 1 s.listingCounter) (List.range' 1 s.orderCounter) invoiceId owner kind
    owned

/-- The scan over the listings and the orders that the owner ever created. -/
def State.lifetimeCapacity : Option ℕ :=
  s.capacityOver (s.listingIdsSeller owner) (s.orderIdsOwner owner) invoiceId owner kind owned

end Scans

section Complete

variable {s : State W} {invoiceId : ℕ} {owner : Address} {kind : ListingKind} {owned : ℕ}

theorem fullHistoryCapacity_eq (hs : Indexed s) :
    s.fullHistoryCapacity invoiceId owner kind owned =
      capacityOf (s.committed invoiceId owner kind).toNat owned := by
  apply capacityOver_of_complete
  · apply Store.sum_part_eq_total List.nodup_range'
    intro id listing hget _
    obtain ⟨-, hpos, hle⟩ := hs.listingId id listing hget
    exact List.mem_range'_1.2 ⟨hpos, by omega⟩
  · apply Store.sum_part_eq_total List.nodup_range'
    intro id order hget _
    obtain ⟨-, hpos, hle⟩ := hs.orderId id order hget
    exact List.mem_range'_1.2 ⟨hpos, by omega⟩

theorem lifetimeCapacity_eq (hs : Indexed s) :
    s.lifetimeCapacity invoiceId owner kind owned =
      capacityOf (s.committed invoiceId owner kind).toNat owned := by
  apply capacityOver_of_complete
  · apply hs.bySeller.sum_eq_total
    intro id listing _ hne
    exact ⟨rfl, (Listing.committed_ne_zero (Nat.cast_ne_zero.1 hne)).2.1⟩
  · apply hs.byOwner.sum_eq_total
    intro id order _ hne
    exact ⟨rfl, (Order.committed_ne_zero (Nat.cast_ne_zero.1 hne)).2.1⟩

end Complete

/-! ## The last offer -/

/-- The position that the pool reported at the last offer of an owner on an invoice and kind. -/
abbrev Seen := Address → ℕ → ListingKind → ℤ

def Seen.report (seen : Seen) (owner : Address) (invoiceId : ℕ) (kind : ListingKind) (position : ℤ) :
    Seen :=
  fun owner' invoiceId' kind' =>
    if owner' = owner ∧ invoiceId' = invoiceId ∧ kind' = kind then position
    else seen owner' invoiceId' kind'

/-- An offer reports the position. -/
def noteSeen (h : Host W) (s : State W) (tx : Tx W) (_ : State W) (seen : Seen) : Seen :=
  match tx.call.offer with
  | some (owner, invoiceId, kind) =>
    seen.report owner invoiceId kind (s.position h owner invoiceId kind)
  | none => seen

theorem noteSeen_of_none {tx : Tx W} (hcall : tx.call.offer = none) :
    noteSeen h s tx s' seen = seen := by
  unfold noteSeen
  rw [hcall]

/-- Nobody offers more than the last report. -/
def Covered (s : State W) (seen : Seen) : Prop :=
  ∀ invoiceId owner kind, s.committed invoiceId owner kind ≤ seen owner invoiceId kind

theorem Covered.report (hcovered : Covered s seen) {owner : Address} {invoiceId : ℕ}
    {kind : ListingKind} {position : ℤ}
    (hother : ∀ invoiceId' owner' kind', ¬ (owner' = owner ∧ invoiceId' = invoiceId ∧
      kind' = kind) → s'.committed invoiceId' owner' kind' ≤ s.committed invoiceId' owner' kind')
    (hoffer : s'.committed invoiceId owner kind ≤ position) :
    Covered s' (seen.report owner invoiceId kind position) := by
  intro invoiceId' owner' kind'
  unfold Seen.report
  split_ifs with hsame
  · obtain ⟨rfl, rfl, rfl⟩ := hsame
    exact hoffer
  · exact (hother invoiceId' owner' kind' hsame).trans (hcovered invoiceId' owner' kind')

theorem Covered.mono (hcovered : Covered s seen)
    (hle : ∀ invoiceId owner kind, s'.committed invoiceId owner kind ≤ s.committed invoiceId owner kind) :
    Covered s' seen :=
  fun invoiceId owner kind => (hle invoiceId owner kind).trans (hcovered invoiceId owner kind)

theorem covered_listed (hs : Indexed s) (hcovered : Covered s seen) {seller : Address}
    {invoiceId : ℕ} {kind : ListingKind} {amountOrBps : ℕ} {price : ℤ} {token : Address}
    (hheld : s.committed invoiceId seller kind + amountOrBps ≤ s.position h seller invoiceId kind) :
    Covered (s.addListing
      (s.newListing (s.listingCounter + 1) seller invoiceId token kind amountOrBps price))
      (seen.report seller invoiceId kind (s.position h seller invoiceId kind)) := by
  refine hcovered.report (fun invoiceId' owner' kind' hne => ?_) ?_
  · rw [addListing_committed hs rfl]
    have hzero : (s.newListing (s.listingCounter + 1) seller invoiceId token kind amountOrBps
        price).committed invoiceId' owner' kind' = 0 := by
      by_contra hpos
      obtain ⟨rfl, rfl, rfl, -⟩ := Listing.committed_ne_zero hpos
      exact hne ⟨rfl, rfl, rfl⟩
    omega
  · rw [addListing_committed hs rfl]
    have hnew : (s.newListing (s.listingCounter + 1) seller invoiceId token kind amountOrBps
        price).committed invoiceId seller kind = amountOrBps := by
      simp [Listing.committed, State.newListing]
    omega

theorem covered_placed {owner : Address} {request : PlaceOrderRequest} (hs : Indexed s)
    (hcovered : Covered s seen) (hplaced : Placed h s owner request s') :
    Covered s' (if request.side = .Ask then
      seen.report owner request.invoiceId request.kind
        (s.position h owner request.invoiceId request.kind) else seen) := by
  have hstep := hplaced.committed_le hs
  split_ifs with hside
  · refine hcovered.report (fun invoiceId' owner' kind' hne => ?_) ?_
    · rcases hstep invoiceId' owner' kind' with hle | ⟨-, rfl, rfl, rfl, -⟩
      · exact hle
      · exact absurd ⟨rfl, rfl, rfl⟩ hne
    · have hheld := hplaced.held hside
      rcases hstep request.invoiceId owner request.kind with hle | ⟨-, -, -, -, hle⟩
      · omega
      · omega
  · refine hcovered.mono fun invoiceId' owner' kind' => ?_
    rcases hstep invoiceId' owner' kind' with hle | ⟨hask, -⟩
    · exact hle
    · exact absurd hask hside

theorem covered_step {tx : Tx W} (hs : Indexed s) (hcovered : Covered s seen)
    (hx : exec h s tx = .ok s') :
    Covered s' (noteSeen h s tx s' seen) := by
  cases exec_effect hs hx with
  | idle hcall hsame =>
    rw [noteSeen_of_none hcall]
    exact hcovered.mono fun invoiceId owner kind => (hsame.committed invoiceId owner kind).le
  | listed hcall hheld hroom =>
    unfold noteSeen
    rw [hcall]
    exact covered_listed hs hcovered hheld
  | unlisted hcall hsame hget hclosed hsame' =>
    have hoffer : tx.call.offer = none := by
      rcases hcall with ⟨_, hcall⟩ | ⟨_, hcall⟩ <;> rw [hcall] <;> rfl
    rw [noteSeen_of_none hoffer]
    refine hcovered.mono fun invoiceId owner kind => ?_
    rw [hsame'.committed, ← hsame.committed]
    exact closeListing_committed_le hget hclosed invoiceId owner kind
  | @placed owner request s₁ s₂ _ hcall hsame hposition hplaced hsame' =>
    have hstart : Covered s₁ seen :=
      hcovered.mono fun invoiceId holder kind => (hsame.committed invoiceId holder kind).le
    have hend := covered_placed (hsame.indexed hs) hstart hplaced
    rw [hposition] at hend
    have hnote : noteSeen h s tx s' seen = if request.side = .Ask then
        seen.report owner request.invoiceId request.kind
          (s.position h owner request.invoiceId request.kind) else seen := by
      unfold noteSeen
      rcases hcall with hcall | hcall
      · rw [hcall, Call.offer]
        split_ifs <;> rfl
      · rw [hcall, Call.offer]
        split_ifs <;> rfl
    rw [hnote]
    exact hend.mono fun invoiceId holder kind => (hsame'.committed invoiceId holder kind).le
  | trimmed hcall htrim =>
    rw [noteSeen_of_none hcall]
    exact hcovered.mono htrim.committed_le

theorem indexed_of_reaches {now : ℕ} {world : W} {admin poolContract : Address} {x : State W × Seen}
    (hrun : Reaches (track (exec h) (noteSeen h)) (fun _ _ => True) (initializeMarket now world
      admin poolContract, fun _ _ _ => 0) x) :
    Indexed x.1 ∧ Covered x.1 x.2 := by
  apply hrun.invariant (P := fun x => Indexed x.1 ∧ Covered x.1 x.2)
  · refine ⟨indexed_initial now world admin poolContract, fun _ _ _ => ?_⟩
    simp [State.committed, State.listed, State.asked, initializeMarket]
  · rintro x tx y ⟨hs, hcovered⟩ - hstep
    rw [track_eq_ok] at hstep
    obtain ⟨hx, hnote⟩ := hstep
    rw [hnote]
    exact ⟨(exec_effect hs hx).indexed hs, covered_step hs hcovered hx⟩

/-- In every reachable state: an order id stands on one side of one book, once, exactly while the
order can trade and has something left; no side of a book is longer than the cap; the bounded scan of
the commitments returns what the scan of all listings and orders ever made returns; and nobody's open
listings and resting asks exceed the position that the pool reported at the last offer.  The invoice
ids are any `u64`. -/
theorem commitment_scan_exact {h : Host W} {now : ℕ} {world : W} {admin poolContract : Address}
    {x : State W × Seen}
    (hrun : Reaches (track (exec h) (noteSeen h)) (fun _ _ => True)
      (initializeMarket now world admin poolContract, fun _ _ _ => 0) x) :
    (∀ id, x.1.OnceOnBook id ↔ x.1.Rests id) ∧
    (∀ id place, id ∈ x.1.book place → x.1.OnceOnBook id) ∧
    (∀ place, (x.1.book place).length ≤ maxOrdersPerBookSide) ∧
    (∀ invoiceId owner kind owned,
      x.1.availableCommitmentCapacity invoiceId owner kind owned =
        x.1.fullHistoryCapacity invoiceId owner kind owned ∧
      x.1.availableCommitmentCapacity invoiceId owner kind owned =
        x.1.lifetimeCapacity invoiceId owner kind owned) ∧
    (∀ invoiceId owner kind, x.1.committed invoiceId owner kind ≤ x.2 owner invoiceId kind) := by
  obtain ⟨hs, hcovered⟩ := indexed_of_reaches hrun
  refine ⟨fun id => onceOnBook_iff_rests hs, fun id place => onceOnBook_of_mem hs, hs.depth, ?_,
    hcovered⟩
  intro invoiceId owner kind owned
  rw [availableCommitmentCapacity_eq hs, fullHistoryCapacity_eq hs, lifetimeCapacity_eq hs]
  exact ⟨rfl, rfl⟩

/-- Account 5 lists 40 of its 100 and asks for a price for 50 more, of which account 6 buys 20. -/
def sampleTrades : List (Tx Unit) :=
  [⟨[5], .listPosition 5 8 .SingleFunded 40 30⟩,
    ⟨[5], .placeOrder 5 ⟨8, .SingleFunded, .Ask, 50, 9000000, 0⟩⟩,
    ⟨[6], .matchOrder 6 ⟨8, .SingleFunded, .Bid, 20, 9500000, 0⟩⟩]

theorem commitment_scan_exact_traded :
    ∃ x : State Unit × Seen,
      Reaches (track (exec sampleHost) (noteSeen sampleHost)) (fun _ _ => True)
        (sampleStart, fun _ _ _ => 0) x ∧
      x.1.OnceOnBook 1 ∧ ¬ x.1.OnceOnBook 2 ∧ x.1.committed 8 5 .SingleFunded = 70 ∧
      x.2 5 8 .SingleFunded = 100 ∧
      x.1.fullHistoryCapacity 8 5 .SingleFunded 100 = some 30 := by
  obtain ⟨x, hx, hp⟩ := exists_of_check
    (x := sampleTrades.foldlM (track (exec sampleHost) (noteSeen sampleHost))
      (sampleStart, fun _ _ _ => 0))
    (p := fun x => decide ((∃ o ∈ x.1.orders.get 1, o.status.Live ∧ 0 < o.remaining) ∧
      (¬ ∃ o ∈ x.1.orders.get 2, o.status.Live ∧ 0 < o.remaining) ∧
      x.1.committed 8 5 .SingleFunded = 70 ∧ x.2 5 8 .SingleFunded = 100 ∧
      x.1.availableCommitmentCapacity 8 5 .SingleFunded 100 = some 30)) (by decide)
  obtain ⟨hask, hbid, hcommitted, hseen, hcapacity⟩ := of_decide_eq_true hp
  have hrun := reaches_of_along .refl (along_of_forall (fun _ _ => trivial) _ _) hx
  obtain ⟨honce, -, -, hscan, -⟩ := commitment_scan_exact hrun
  refine ⟨x, hrun, (honce 1).2 hask, fun hone => hbid ((honce 2).1 hone), hcommitted, hseen, ?_⟩
  rw [← (hscan 8 5 .SingleFunded 100).1]
  exact hcapacity

end Astera.Market
