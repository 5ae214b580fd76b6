import Astera.Market.Matching

/-!
# What a call does to the records

The scan of the commitments adds up what the listings and orders it visits commit, so that two scans
that miss nothing agree.  `Effect` lists what a successful call can do to the records.
-/

namespace Astera.Market

open Fallible Machine Index Transition

variable {W : Type}
variable {h : Host W} {owner : Address} {request : PlaceOrderRequest} {s s' : State W} {u : Unit}
  {id : ℕ}

/-! ## The scan of the commitments -/

/-- What is left of a position when a part of it is committed; nothing when the sum is no `u64` or
exceeds the position. -/
def capacityOf (committed owned : ℕ) : Option ℕ :=
  if committed < 2 ^ 64 ∧ committed ≤ owned then some (owned - committed) else none

theorem capacityOf_eq_some {committed owned available : ℕ} :
    capacityOf committed owned = some available ↔
      (committed < 2 ^ 64 ∧ committed ≤ owned) ∧ owned - committed = available := by
  unfold capacityOf
  split_ifs with h
  · rw [Option.some.injEq]
    exact ⟨fun heq => ⟨h, heq⟩, fun heq => heq.2⟩
  · exact ⟨nofun, fun heq => absurd heq.1 h⟩

theorem capacityOf_eq_none {committed : ℕ} (owned : ℕ) (h : ¬ committed < 2 ^ 64) :
    capacityOf committed owned = none := if_neg fun hand => h hand.1

section Scan

variable (s : State W) (invoiceId : ℕ) (owner : Address) (kind : ListingKind)

/-- What the listing under an id commits. -/
def State.listingPart (id : ℕ) : ℕ :=
  ((s.listings.get id).map (·.committed invoiceId owner kind)).getD 0

/-- What the order under an id commits. -/
def State.orderPart (id : ℕ) : ℕ :=
  ((s.orders.get id).map (·.committed invoiceId owner kind)).getD 0

theorem commitListing_eq (acc id : ℕ) (hacc : acc < 2 ^ 64) :
    s.commitListing invoiceId owner kind acc id =
      fitU 64 (acc + s.listingPart invoiceId owner kind id) := by
  have hsame : fitU 64 acc = some acc := if_pos hacc
  unfold State.commitListing State.listingPart
  cases s.listings.get id with
  | none => simp [hsame]
  | some listing =>
    dsimp only [Option.map_some, Option.getD_some]
    unfold Listing.committed
    split_ifs
    · rw [Nat.add_zero, hsame]
    · rfl

theorem commitOrder_eq (acc id : ℕ) (hacc : acc < 2 ^ 64) :
    s.commitOrder invoiceId owner kind acc id =
      fitU 64 (acc + s.orderPart invoiceId owner kind id) := by
  have hsame : fitU 64 acc = some acc := if_pos hacc
  unfold State.commitOrder State.orderPart
  cases s.orders.get id with
  | none => simp [hsame]
  | some order =>
    dsimp only [Option.map_some, Option.getD_some]
    unfold Order.committed
    split_ifs
    · rw [Nat.add_zero, hsame]
    · rfl

theorem capacityOver_eq (listingIds orderIds : List ℕ) (owned : ℕ) :
    s.capacityOver listingIds orderIds invoiceId owner kind owned =
      capacityOf ((listingIds.map (s.listingPart invoiceId owner kind)).sum +
        (orderIds.map (s.orderPart invoiceId owner kind)).sum) owned := by
  unfold State.capacityOver
  rw [foldlM_fitU (commitListing_eq s invoiceId owner kind) listingIds 0 (by norm_num), Nat.zero_add]
  generalize (listingIds.map (s.listingPart invoiceId owner kind)).sum = inListings
  by_cases hlistings : inListings < 2 ^ 64
  · have hfirst : fitU 64 inListings = some inListings := if_pos hlistings
    rw [hfirst, Option.bind_eq_bind, Option.bind_some,
      foldlM_fitU (commitOrder_eq s invoiceId owner kind) orderIds inListings hlistings]
    generalize (orderIds.map (s.orderPart invoiceId owner kind)).sum = inOrders
    by_cases hall : inListings + inOrders < 2 ^ 64
    · have hsecond : fitU 64 (inListings + inOrders) = some (inListings + inOrders) := if_pos hall
      rw [hsecond, Option.bind_some]
      simp only [capacityOf, hall, true_and]
      rfl
    · have hsecond : fitU 64 (inListings + inOrders) = none := if_neg hall
      rw [hsecond, capacityOf_eq_none owned hall]
      rfl
  · have hfirst : fitU 64 inListings = none := if_neg hlistings
    rw [hfirst, capacityOf_eq_none owned (by omega)]
    rfl

end Scan

section Capacity

variable {s : State W} {invoiceId : ℕ} {owner : Address} {kind : ListingKind}

theorem capacityOver_of_complete {listingIds orderIds : List ℕ} (owned : ℕ)
    (hlistings :
      (listingIds.map (s.listings.part fun _ l => (l.committed invoiceId owner kind : ℤ))).sum =
        s.listed invoiceId owner kind)
    (horders :
      (orderIds.map (s.orders.part fun _ o => (o.committed invoiceId owner kind : ℤ))).sum =
        s.asked invoiceId owner kind) :
    s.capacityOver listingIds orderIds invoiceId owner kind owned =
      capacityOf (s.committed invoiceId owner kind).toNat owned := by
  have hsum : s.committed invoiceId owner kind =
      (((listingIds.map (s.listingPart invoiceId owner kind)).sum +
        (orderIds.map (s.orderPart invoiceId owner kind)).sum : ℕ) : ℤ) := by
    rw [Nat.cast_add]
    unfold State.listingPart State.orderPart
    rw [Store.cast_sum_part, Store.cast_sum_part, hlistings, horders]
    rfl
  rw [capacityOver_eq, hsum, Int.toNat_natCast]

theorem availableCommitmentCapacity_eq (hs : Indexed s) (owned : ℕ) :
    s.availableCommitmentCapacity invoiceId owner kind owned =
      capacityOf (s.committed invoiceId owner kind).toNat owned := by
  apply capacityOver_of_complete
  · apply hs.byInvoice.sum_eq_total
    intro id listing _ hne
    exact ⟨rfl, (Listing.committed_ne_zero (Nat.cast_ne_zero.1 hne)).1⟩
  · apply hs.byPlace.toIsIndex.sum_eq_total
    intro id order _ hne
    obtain ⟨rfl, -, rfl, hside, hresting⟩ := Order.committed_ne_zero (Nat.cast_ne_zero.1 hne)
    exact ⟨hresting, by rw [Order.place, hside]⟩

theorem committed_nonneg (s : State W) : 0 ≤ s.committed invoiceId owner kind := by
  have hlisted : 0 ≤ s.listed invoiceId owner kind :=
    Store.total_nonneg fun _ _ _ => Int.natCast_nonneg _
  have hasked : 0 ≤ s.asked invoiceId owner kind :=
    Store.total_nonneg fun _ _ _ => Int.natCast_nonneg _
  unfold State.committed
  omega

end Capacity

/-- What the pool says that the owner holds: the basis points of a co-funding share, or the deployed
principal. -/
def State.position (s : State W) (h : Host W) (owner : Address) (invoiceId : ℕ)
    (kind : ListingKind) : ℤ :=
  match kind with
  | .CoFunding => h.coFundShare s.world s.poolContract invoiceId owner
  | .SingleFunded =>
    match h.fundedInvoice s.world s.poolContract invoiceId with
    | some record => (h.investorPosition s.world s.poolContract owner record.token).2
    | none => 0

theorem checkHolding_eq_ok {record : Pool.FundedInvoice} {invoiceId : ℕ} {kind : ListingKind}
    {amountOrBps : ℕ} (hs : Indexed s)
    (hrecord : h.fundedInvoice s.world s.poolContract invoiceId = some record)
    (hx : s.checkHolding h record owner invoiceId kind amountOrBps = .ok u) :
    s.committed invoiceId owner kind + amountOrBps ≤ s.position h owner invoiceId kind := by
  have hnn : 0 ≤ s.committed invoiceId owner kind := committed_nonneg s
  cases kind with
  | CoFunding =>
    simp only [State.checkHolding, availableCommitmentCapacity_eq hs, bind_eq_ok, okOr_eq_ok,
      capacityOf_eq_some, require_eq_ok] at hx
    obtain ⟨available, ⟨⟨-, hle⟩, havailable⟩, -, hamount⟩ := hx
    dsimp only [State.position]
    omega
  | SingleFunded =>
    simp only [State.checkHolding, availableCommitmentCapacity_eq hs, bind_eq_ok, exists_unit,
      okOr_eq_ok, capacityOf_eq_some, require_eq_ok] at hx
    obtain ⟨-, ⟨hdeployed, -⟩, available, ⟨⟨-, hle⟩, havailable⟩, hamount⟩ := hx
    have hlow := toU_le (w := 64) ((Int.natCast_nonneg amountOrBps).trans hdeployed)
    simp only [State.position, hrecord]
    omega

section Listings

variable {s : State W} {listing : Listing}

theorem listing_fresh (hs : Indexed s) (hid : listing.listingId = s.listingCounter + 1) :
    s.listings.get listing.listingId = none := by
  cases hget : s.listings.get listing.listingId with
  | none => rfl
  | some l =>
    have := hs.listingId _ _ hget
    omega

theorem addListing_indexed (hs : Indexed s) (hid : listing.listingId = s.listingCounter + 1) :
    Indexed (s.addListing listing) := by
  have hfresh := listing_fresh hs hid
  refine ⟨hs.byInvoice.join hfresh listing, hs.bySeller.join hfresh listing, hs.byOwner, hs.byPlace,
    hs.depth, ?_, hs.orderId⟩
  have hold : ∀ id l, s.listings.get id = some l →
      l.listingId = id ∧ 1 ≤ id ∧ id ≤ listing.listingId := by
    intro id l hget
    have := hs.listingId id l hget
    omega
  exact Store.forall_get_set hold ⟨rfl, by omega, le_rfl⟩

theorem addListing_committed (hs : Indexed s) (hid : listing.listingId = s.listingCounter + 1)
    (invoiceId : ℕ) (owner : Address) (kind : ListingKind) :
    (s.addListing listing).committed invoiceId owner kind =
      s.committed invoiceId owner kind + listing.committed invoiceId owner kind := by
  have hfresh := listing_fresh hs hid
  have hlisted : (s.addListing listing).listed invoiceId owner kind =
      s.listed invoiceId owner kind + listing.committed invoiceId owner kind := by
    unfold State.listed State.addListing
    dsimp only
    rw [Store.total_set, Store.part_of_get_none hfresh, sub_zero]
  unfold State.committed
  rw [hlisted]
  show _ + s.asked invoiceId owner kind = _
  ring

theorem closeListing_indexed {status : ListingStatus} (hs : Indexed s)
    (hget : s.listings.get id = some listing) : Indexed (s.closeListing id listing status) := by
  refine ⟨hs.byInvoice.rewrite hget rfl fun _ => rfl, hs.bySeller.rewrite hget rfl fun _ => rfl,
    hs.byOwner, hs.byPlace, hs.depth, ?_, hs.orderId⟩
  exact Store.forall_get_set hs.listingId (hs.listingId id listing hget)

theorem closeListing_committed_le {status : ListingStatus} (hget : s.listings.get id = some listing)
    (hclosed : status ≠ .Open) (invoiceId : ℕ) (owner : Address) (kind : ListingKind) :
    (s.closeListing id listing status).committed invoiceId owner kind ≤
      s.committed invoiceId owner kind := by
  have hzero : { listing with status := status }.committed invoiceId owner kind = 0 := by
    by_contra hne
    exact hclosed (Listing.committed_ne_zero hne).2.2.2
  have hlisted : (s.closeListing id listing status).listed invoiceId owner kind =
      s.listed invoiceId owner kind - listing.committed invoiceId owner kind := by
    unfold State.listed State.closeListing
    dsimp only
    rw [Store.total_set, Store.part_of_get hget, hzero]
    simp
  have hasked : (s.closeListing id listing status).asked invoiceId owner kind =
      s.asked invoiceId owner kind := rfl
  unfold State.committed
  rw [hlisted, hasked]
  omega

end Listings

/-! ## Placing an order -/

section Placing

variable {s s' : State W} {order : Order}

theorem restOrder_indexed (hs : Indexed s) (hfresh : s.orders.get order.orderId = none)
    (hid : 1 ≤ order.orderId ∧ order.orderId ≤ s.orderCounter)
    (hlive : 0 < order.remaining → order.status.Live)
    (hroom : (s.book order.place).length < maxOrdersPerBookSide) : Indexed (s.restOrder order) := by
  have horders : ∀ id o, (s.orders.set order.orderId order).get id = some o →
      o.orderId = id ∧ 1 ≤ id ∧ id ≤ s.orderCounter := Store.forall_get_set hs.orderId ⟨rfl, hid⟩
  unfold State.restOrder
  split_ifs with hpos
  · refine ⟨hs.byInvoice, hs.bySeller, hs.byOwner.join hfresh order,
      hs.byPlace.join hfresh (order.resting_iff.2 ⟨hlive hpos, hpos⟩), fun place => ?_, hs.listingId,
      horders⟩
    dsimp only [State.indexOrderForOwner, State.saveOrder, State.insertIntoBook]
    rw [Function.update_apply]
    split_ifs with hplace
    · rw [List.length_append, List.length_singleton]
      omega
    · exact hs.depth place
  · have hdead : order.resting = false := by simp [Order.resting, hpos]
    exact ⟨hs.byInvoice, hs.bySeller, hs.byOwner.join hfresh order, hs.byPlace.store hfresh hdead,
      hs.depth, hs.listingId, horders⟩

@[simp]
theorem restOrder_listings (s : State W) (order : Order) :
    (s.restOrder order).listings = s.listings := by
  unfold State.restOrder
  split_ifs <;> rfl

@[simp]
theorem restOrder_listingIdsInv (s : State W) (order : Order) :
    (s.restOrder order).listingIdsInv = s.listingIdsInv := by
  unfold State.restOrder
  split_ifs <;> rfl

theorem restOrder_orders (s : State W) (order : Order) :
    (s.restOrder order).orders = s.orders.set order.orderId order := by
  unfold State.restOrder
  split_ifs <;> rfl

theorem restOrder_committed (hfresh : s.orders.get order.orderId = none) (invoiceId : ℕ)
    (owner : Address) (kind : ListingKind) :
    (s.restOrder order).committed invoiceId owner kind =
      s.committed invoiceId owner kind + order.committed invoiceId owner kind := by
  unfold State.committed State.listed State.asked
  rw [restOrder_orders, restOrder_listings, Store.total_set, Store.part_of_get_none hfresh]
  ring

theorem order_fresh (hs : Indexed s) : s.orders.get (s.orderCounter + 1) = none := by
  cases hget : s.orders.get (s.orderCounter + 1) with
  | none => rfl
  | some o =>
    have := hs.orderId _ _ hget
    omega

theorem Indexed.number (hs : Indexed s) : Indexed { s with orderCounter := s.orderCounter + 1 } := by
  refine ⟨hs.byInvoice, hs.bySeller, hs.byOwner, hs.byPlace, hs.depth, hs.listingId, ?_⟩
  intro id o hget
  obtain ⟨hid, hpos, hle⟩ := hs.orderId id o hget
  exact ⟨hid, hpos, Nat.le_succ_of_le hle⟩

theorem Order.placed_live (o : Order) (hpos : 0 < o.placed.remaining) : o.placed.status.Live := by
  have hne : o.remaining ≠ 0 := Nat.pos_iff_ne_zero.1 hpos
  unfold Order.placed
  dsimp only
  rw [if_neg hne]
  split_ifs
  · exact .inl rfl
  · exact .inr rfl

/-- What the body of `place_order` does: the orders of the other side are trimmed, and the new order is
stored with what remains of it. -/
structure Placed (h : Host W) (s : State W) (owner : Address) (request : PlaceOrderRequest)
    (s' : State W) : Prop where
  room : (s.book (request.side, bookKey request.invoiceId request.kind)).length <
    maxOrdersPerBookSide
  held : request.side = .Ask →
    s.committed request.invoiceId owner request.kind + request.amountOrBps ≤
      s.position h owner request.invoiceId request.kind
  placed : ∃ (token : Address) (matched : State W) (remaining : ℕ),
    Trims { s with orderCounter := s.orderCounter + 1 } matched ∧
    remaining ≤ request.amountOrBps ∧
    s' = matched.restOrder
      { s.newOrder (s.orderCounter + 1) owner token request with remaining := remaining }.placed

theorem placeOrderBody_eq_ok (hs : Indexed s) (hx : placeOrderBody h s owner request = .ok (s', id)) :
    Placed h s owner request s' := by
  have hnumbered := hs.number
  simp only [placeOrderBody, bind_eq_ok, exists_unit, require_eq_ok, okOr_eq_ok] at hx
  obtain ⟨-, -, -, hroom, record, hrecord, hx⟩ := hx
  split_ifs at hx with hside
  · simp only [bind_eq_ok, exists_unit, okOr_eq_ok, fitU_eq_some, Prod.exists, pure_eq_ok,
      Prod.mk.injEq] at hx
    obtain ⟨hcheck, _, ⟨rfl, -⟩, matched, taker, hmatch, rfl, -⟩ := hx
    obtain ⟨htrims, remaining, hle, rfl⟩ := matchOrder_eq_ok hnumbered hmatch
    exact ⟨hroom, fun _ => checkHolding_eq_ok hs hrecord hcheck, record.token, matched, remaining,
      htrims, hle, rfl⟩
  · simp only [bind_eq_ok, okOr_eq_ok, fitU_eq_some, Prod.exists, pure_eq_ok, Prod.mk.injEq] at hx
    obtain ⟨_, ⟨rfl, -⟩, matched, taker, hmatch, rfl, -⟩ := hx
    obtain ⟨htrims, remaining, hle, rfl⟩ := matchOrder_eq_ok hnumbered hmatch
    exact ⟨hroom, fun hask => absurd hask hside, record.token, matched, remaining, htrims, hle, rfl⟩

theorem Placed.indexed (hplaced : Placed h s owner request s') (hs : Indexed s) : Indexed s' := by
  obtain ⟨token, matched, remaining, htrims, -, rfl⟩ := hplaced.placed
  have htrimmed := htrims.trimmed
  apply restOrder_indexed (htrims.indexed (hs.number))
  · exact htrimmed.fresh _ (order_fresh hs)
  · rw [htrimmed.orderCounter]
    exact ⟨Nat.le_add_left _ _, le_rfl⟩
  · exact Order.placed_live _
  · exact (htrimmed.book _).length_le.trans_lt hplaced.room

theorem Placed.listings (hplaced : Placed h s owner request s') :
    s'.listings = s.listings ∧ s'.listingIdsInv = s.listingIdsInv := by
  obtain ⟨token, matched, remaining, htrims, -, rfl⟩ := hplaced.placed
  rw [restOrder_listings, restOrder_listingIdsInv]
  exact ⟨htrims.trimmed.listings, htrims.trimmed.listingIdsInv⟩

theorem Placed.committed_le (hplaced : Placed h s owner request s') (hs : Indexed s) (invoiceId : ℕ)
    (holder : Address) (kind : ListingKind) :
    s'.committed invoiceId holder kind ≤ s.committed invoiceId holder kind ∨
      (request.side = .Ask ∧ request.invoiceId = invoiceId ∧ owner = holder ∧ request.kind = kind ∧
        s'.committed invoiceId holder kind ≤
          s.committed invoiceId holder kind + request.amountOrBps) := by
  obtain ⟨token, matched, remaining, htrims, hle, rfl⟩ := hplaced.placed
  rw [restOrder_committed (htrims.trimmed.fresh _ (order_fresh hs))]
  have htrim : matched.committed invoiceId holder kind ≤ s.committed invoiceId holder kind :=
    htrims.committed_le invoiceId holder kind
  generalize horder : Order.placed _ = order
  by_cases hzero : order.committed invoiceId holder kind = 0
  · left
    omega
  · right
    have hrest : order.committed invoiceId holder kind ≤ order.remaining :=
      order.committed_le_remaining
    have hremaining : order.remaining = remaining := by
      rw [← horder]
      rfl
    obtain ⟨hinvoice, howner, hkind, hside, -⟩ := Order.committed_ne_zero hzero
    subst horder
    exact ⟨hside, hinvoice, howner, hkind, by omega⟩

end Placing

/-! ## Calls -/

def Call.offer : Call W → Option (Address × ℕ × ListingKind)
  | .listPosition seller invoiceId kind _ _ => some (seller, invoiceId, kind)
  | .placeOrder owner request | .matchOrder owner request =>
    if request.side = .Ask then some (owner, request.invoiceId, request.kind) else none
  | _ => none

inductive Effect (h : Host W) (s : State W) (call : Call W) : State W → Prop
  | idle {s' : State W} (hcall : call.offer = none) (hsame : SameRecords s s') : Effect h s call s'
  | listed {seller : Address} {invoiceId : ℕ} {kind : ListingKind} {amountOrBps : ℕ} {price : ℤ}
      {token : Address} (hcall : call = .listPosition seller invoiceId kind amountOrBps price)
      (hheld : s.committed invoiceId seller kind + amountOrBps ≤ s.position h seller invoiceId kind)
      (hroom : (s.listingIdsInv invoiceId).length < maxListingsPerInvoice) :
      Effect h s call (s.addListing
        (s.newListing (s.listingCounter + 1) seller invoiceId token kind amountOrBps price))
  | unlisted {id : ℕ} {listing : Listing} {status : ListingStatus} {s₁ s₂ : State W}
      (hcall : (∃ seller, call = .cancelListing seller id) ∨ ∃ buyer, call = .buyListing buyer id)
      (hsame : SameRecords s s₁) (hget : s₁.listings.get id = some listing)
      (hclosed : status ≠ .Open) (hsame' : SameRecords (s₁.closeListing id listing status) s₂) :
      Effect h s call s₂
  | placed {owner : Address} {request : PlaceOrderRequest} {s₁ s₂ s₃ : State W}
      (hcall : call = .placeOrder owner request ∨ call = .matchOrder owner request)
      (hsame : SameRecords s s₁)
      (hposition : ∀ holder invoiceId kind,
        s₁.position h holder invoiceId kind = s.position h holder invoiceId kind)
      (hplaced : Placed h s₁ owner request s₂) (hsame' : SameRecords s₂ s₃) : Effect h s call s₃
  | trimmed {s' : State W} (hcall : call.offer = none) (htrim : Trim s s') : Effect h s call s'

theorem SameRecords.refl (s : State W) : SameRecords s s := ⟨rfl, rfl, rfl, rfl, rfl, rfl, rfl, rfl⟩

theorem requireAuth_eq_ok {signers : List Address} {a : Address} :
    requireAuth signers a = .ok u ↔ a ∈ signers := by
  simp [requireAuth]

theorem requireNotPaused_eq_ok :
    s.requireNotPaused = .ok u ↔ s.paused = false := by
  simp [State.requireNotPaused]

theorem nonReentrantStart_eq_ok :
    s.nonReentrantStart = .ok s' ↔
      s.reentrancyGuard = false ∧ s' = { s with reentrancyGuard := true } := by
  simp only [State.nonReentrantStart, bind_eq_ok, exists_unit, require_eq_ok, pure_eq_ok]
  exact and_congr_right fun _ => eq_comm

theorem exec_effect {tx : Tx W} (hs : Indexed s) (hx : exec h s tx = .ok s') :
    Effect h s tx.call s' := by
  obtain ⟨signers, call⟩ := tx
  cases call with
  | listPosition seller invoiceId kind amountOrBps price =>
    simp only [exec, listPosition, map_eq_ok, bind_eq_ok, exists_unit, requireAuth_eq_ok,
      requireNotPaused_eq_ok, require_eq_ok, okOr_eq_ok, fitU_eq_some, pure_eq_ok] at hx
    obtain ⟨_, ⟨-, -, -, -, record, hrecord, hcheck, hroom, _, ⟨rfl, -⟩, rfl⟩, rfl⟩ := hx
    exact .listed rfl (checkHolding_eq_ok hs hrecord hcheck) hroom
  | cancelListing seller listingId =>
    simp only [exec, cancelListing, bind_eq_ok, exists_unit, requireAuth_eq_ok,
      requireNotPaused_eq_ok, require_eq_ok, okOr_eq_ok, pure_eq_ok] at hx
    obtain ⟨-, -, listing, hget, -, -, rfl⟩ := hx
    exact .unlisted (.inl ⟨seller, rfl⟩) (.refl s) hget (by decide) (.refl _)
  | buyListing buyer listingId =>
    simp only [exec, buyListing, bind_eq_ok, exists_unit, requireAuth_eq_ok,
      requireNotPaused_eq_ok, nonReentrantStart_eq_ok, require_eq_ok, okOr_eq_ok, pure_eq_ok] at hx
    obtain ⟨-, -, _, ⟨-, rfl⟩, listing, hget, -, -, world, -, rfl⟩ := hx
    exact .unlisted (.inr ⟨buyer, rfl⟩) ⟨rfl, rfl, rfl, rfl, rfl, rfl, rfl, rfl⟩ hget (by decide)
      ⟨rfl, rfl, rfl, rfl, rfl, rfl, rfl, rfl⟩
  | placeOrder owner request =>
    simp only [exec, placeOrder, map_eq_ok, bind_eq_ok, exists_unit, requireAuth_eq_ok,
      requireNotPaused_eq_ok, nonReentrantStart_eq_ok, Prod.exists, pure_eq_ok] at hx
    obtain ⟨_, _, ⟨-, -, s₁, ⟨-, rfl⟩, s₂, id, hbody, hpair⟩, rfl⟩ := hx
    obtain ⟨rfl, -⟩ := Prod.mk.inj hpair
    have hsame : SameRecords s { s with reentrancyGuard := true } :=
      ⟨rfl, rfl, rfl, rfl, rfl, rfl, rfl, rfl⟩
    exact .placed (.inl rfl) hsame (fun _ _ _ => rfl)
      (placeOrderBody_eq_ok (hsame.indexed hs) hbody) ⟨rfl, rfl, rfl, rfl, rfl, rfl, rfl, rfl⟩
  | matchOrder owner request =>
    simp only [exec, placeOrderUnguarded, map_eq_ok, bind_eq_ok, exists_unit, requireAuth_eq_ok,
      requireNotPaused_eq_ok, Prod.exists] at hx
    obtain ⟨s₂, id, ⟨-, -, hbody⟩, rfl⟩ := hx
    exact .placed (.inr rfl) (.refl s) (fun _ _ _ => rfl) (placeOrderBody_eq_ok hs hbody) (.refl _)
  | cancelOrder owner orderId =>
    simp only [exec, cancelOrder, bind_eq_ok, exists_unit, requireAuth_eq_ok,
      requireNotPaused_eq_ok, require_eq_ok, okOr_eq_ok, pure_eq_ok] at hx
    obtain ⟨-, -, order, hget, -, -, rfl⟩ := hx
    obtain ⟨rfl, -⟩ := hs.orderId orderId order hget
    exact .trimmed rfl (.closed order.remaining hget (by decide))
  | expireOrder orderId =>
    simp only [exec, expireOrder, bind_eq_ok, exists_unit, requireNotPaused_eq_ok, require_eq_ok,
      okOr_eq_ok, pure_eq_ok] at hx
    obtain ⟨-, order, hget, -, -, rfl⟩ := hx
    obtain ⟨rfl, -⟩ := hs.orderId orderId order hget
    exact .trimmed rfl (.closed order.remaining hget (by decide))
  | pause admin =>
    simp only [exec, pause, setPaused, bind_eq_ok, exists_unit, pure_eq_ok] at hx
    obtain ⟨-, -, rfl⟩ := hx
    exact .idle rfl ⟨rfl, rfl, rfl, rfl, rfl, rfl, rfl, rfl⟩
  | unpause admin =>
    simp only [exec, unpause, setPaused, bind_eq_ok, exists_unit, pure_eq_ok] at hx
    obtain ⟨-, -, rfl⟩ := hx
    exact .idle rfl ⟨rfl, rfl, rfl, rfl, rfl, rfl, rfl, rfl⟩
  | advance now =>
    simp only [exec, advance, bind_eq_ok, exists_unit, pure_eq_ok] at hx
    obtain ⟨-, rfl⟩ := hx
    exact .idle rfl ⟨rfl, rfl, rfl, rfl, rfl, rfl, rfl, rfl⟩
  | elsewhere world =>
    obtain rfl := Except.ok.inj hx
    exact .idle rfl ⟨rfl, rfl, rfl, rfl, rfl, rfl, rfl, rfl⟩

theorem Effect.indexed {call : Call W} (heffect : Effect h s call s') (hs : Indexed s) :
    Indexed s' := by
  cases heffect with
  | idle hcall hsame => exact hsame.indexed hs
  | listed hcall hheld hroom => exact addListing_indexed hs rfl
  | unlisted hcall hsame hget hclosed hsame' =>
    exact hsame'.indexed (closeListing_indexed (hsame.indexed hs) hget)
  | placed hcall hsame hposition hplaced hsame' =>
    exact hsame'.indexed (hplaced.indexed (hsame.indexed hs))
  | trimmed hcall htrim => exact htrim.indexed hs

end Astera.Market
