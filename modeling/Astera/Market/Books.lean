import Astera.Lib.Index
import Astera.Market.Contract

/-!
# The books and their indexes

By `Indexed` every listing is listed under its invoice and its seller, every order under its owner,
and the sides of the books list the orders that rest and nothing else.  `Trim` is what matching,
cancelling and expiring do to a single order.
-/

namespace Astera.Market

open Fallible Machine Index
open Relation (ReflTransGen)

variable {W : Type}

/-- The order can still trade and has something left. -/
def Order.resting (o : Order) : Bool := decide (o.status.Live ∧ 0 < o.remaining)

theorem Order.resting_iff (o : Order) : o.resting = true ↔ o.status.Live ∧ 0 < o.remaining := by
  simp [Order.resting]

theorem Order.resting_eq_false {o : Order} (h : ¬ o.status.Live) : o.resting = false := by
  simp [Order.resting, h]

/-! ## Commitments -/

section Commitments

variable (invoiceId : ℕ) (owner : Address) (kind : ListingKind)

def Listing.committed (listing : Listing) : ℕ :=
  if listing.invoiceId ≠ invoiceId ∨ listing.seller ≠ owner ∨ listing.kind ≠ kind ∨
      listing.status ≠ .Open then 0
  else listing.amountOrBps

def Order.committed (order : Order) : ℕ :=
  if order.invoiceId ≠ invoiceId ∨ order.owner ≠ owner ∨ order.kind ≠ kind ∨ order.side ≠ .Ask ∨
      ¬ order.status.Live then 0
  else order.remaining

def State.listed (s : State W) : ℤ :=
  s.listings.total fun _ listing => (listing.committed invoiceId owner kind : ℤ)

/-- What all orders commit of a position. -/
def State.asked (s : State W) : ℤ :=
  s.orders.total fun _ order => (order.committed invoiceId owner kind : ℤ)

/-- The open listings and the resting asks of an owner on an invoice and kind, over all listings and
orders there are. -/
def State.committed (s : State W) : ℤ := s.listed invoiceId owner kind + s.asked invoiceId owner kind

end Commitments

section Reading

variable {invoiceId : ℕ} {owner : Address} {kind : ListingKind}

theorem Listing.committed_ne_zero {listing : Listing}
    (h : listing.committed invoiceId owner kind ≠ 0) :
    listing.invoiceId = invoiceId ∧ listing.seller = owner ∧ listing.kind = kind ∧
      listing.status = .Open := by
  unfold Listing.committed at h
  split_ifs at h with hcond
  · exact absurd rfl h
  · simpa only [not_or, not_not] using hcond

theorem Order.committed_ne_zero {order : Order} (h : order.committed invoiceId owner kind ≠ 0) :
    order.invoiceId = invoiceId ∧ order.owner = owner ∧ order.kind = kind ∧ order.side = .Ask ∧
      order.resting = true := by
  unfold Order.committed at h
  split_ifs at h with hcond
  · exact absurd rfl h
  · simp only [not_or, not_not] at hcond
    obtain ⟨hinvoice, howner, hkind, hside, hlive⟩ := hcond
    exact ⟨hinvoice, howner, hkind, hside, order.resting_iff.2 ⟨hlive, Nat.pos_of_ne_zero h⟩⟩

theorem Order.committed_le_remaining (order : Order) :
    order.committed invoiceId owner kind ≤ order.remaining := by
  unfold Order.committed
  split_ifs <;> omega

theorem Order.committed_of_dead {order : Order} (h : ¬ order.status.Live) :
    order.committed invoiceId owner kind = 0 := by
  by_contra hne
  exact h ((order.resting_iff.1 (Order.committed_ne_zero hne).2.2.2.2).1)

theorem Order.committed_mono {order : Order} {remaining : ℕ} {status : OrderStatus}
    (hle : remaining ≤ order.remaining) (hlive : order.status.Live) :
    { order with remaining := remaining, status := status }.committed invoiceId owner kind ≤
      order.committed invoiceId owner kind := by
  unfold Order.committed
  dsimp only
  split_ifs with hnew hold hold
  · exact le_rfl
  · exact Nat.zero_le _
  · simp only [not_or, not_not] at hnew
    obtain ⟨hinvoice, howner, hkind, hside, -⟩ := hnew
    simp [hinvoice, howner, hkind, hside, hlive] at hold
  · exact hle

end Reading

structure Indexed (s : State W) : Prop where
  byInvoice : IsIndex (fun _ => true) Listing.invoiceId s.listings s.listingIdsInv
  bySeller : IsIndex (fun _ => true) Listing.seller s.listings s.listingIdsSeller
  byOwner : IsIndex (fun _ => true) Order.owner s.orders s.orderIdsOwner
  byPlace : IsExact Order.resting Order.place s.orders s.book
  depth : ∀ place, (s.book place).length ≤ maxOrdersPerBookSide
  listingId : ∀ id listing, s.listings.get id = some listing →
    listing.listingId = id ∧ 1 ≤ id ∧ id ≤ s.listingCounter
  orderId : ∀ id order, s.orders.get id = some order →
    order.orderId = id ∧ 1 ≤ id ∧ id ≤ s.orderCounter

theorem indexed_initial (now : ℕ) (world : W) (admin poolContract : Address) :
    Indexed (initializeMarket now world admin poolContract) where
  byInvoice := isIndex_empty
  bySeller := isIndex_empty
  byOwner := isIndex_empty
  byPlace := isExact_empty
  depth := fun _ => Nat.zero_le _
  listingId := fun _ _ h => by simp [initializeMarket] at h
  orderId := fun _ _ h => by simp [initializeMarket] at h

/-- The state without what the records do not depend on. -/
structure SameRecords (s s' : State W) : Prop where
  listings : s'.listings = s.listings
  listingIdsInv : s'.listingIdsInv = s.listingIdsInv
  listingIdsSeller : s'.listingIdsSeller = s.listingIdsSeller
  listingCounter : s'.listingCounter = s.listingCounter
  orders : s'.orders = s.orders
  orderCounter : s'.orderCounter = s.orderCounter
  orderIdsOwner : s'.orderIdsOwner = s.orderIdsOwner
  book : s'.book = s.book

section Moves

variable {s s' : State W}

theorem SameRecords.indexed (hsame : SameRecords s s') (hs : Indexed s) : Indexed s' where
  byInvoice := by
    rw [hsame.listings, hsame.listingIdsInv]
    exact hs.byInvoice
  bySeller := by
    rw [hsame.listings, hsame.listingIdsSeller]
    exact hs.bySeller
  byOwner := by
    rw [hsame.orders, hsame.orderIdsOwner]
    exact hs.byOwner
  byPlace := by
    rw [hsame.orders, hsame.book]
    exact hs.byPlace
  depth := by
    rw [hsame.book]
    exact hs.depth
  listingId := by
    rw [hsame.listings, hsame.listingCounter]
    exact hs.listingId
  orderId := by
    rw [hsame.orders, hsame.orderCounter]
    exact hs.orderId

theorem SameRecords.committed (hsame : SameRecords s s') (invoiceId : ℕ) (owner : Address)
    (kind : ListingKind) :
    s'.committed invoiceId owner kind = s.committed invoiceId owner kind := by
  unfold State.committed State.listed State.asked
  rw [hsame.listings, hsame.orders]

/-! ## What happens to a single order -/

/-- What matching, cancelling and expiring do, one write at a time. -/
inductive Trim (s : State W) : State W → Prop
  /-- An order leaves the book for good. -/
  | closed {order : Order} (remaining : ℕ) {status : OrderStatus}
      (hget : s.orders.get order.orderId = some order) (hdead : ¬ status.Live) :
      Trim s ((s.saveOrder { order with remaining := remaining, status := status }).removeFromBook
        { order with remaining := remaining, status := status })
  | reduced {order : Order} {remaining : ℕ} {status : OrderStatus}
      (hget : s.orders.get order.orderId = some order) (hlive : order.status.Live)
      (hstill : status.Live) (hpos : 0 < remaining) (hle : remaining ≤ order.remaining) :
      Trim s (s.saveOrder { order with remaining := remaining, status := status })
  | idle {s' : State W} (hsame : SameRecords s s') : Trim s s'

theorem orderId_set {k : ℕ} {order order' : Order} {counter : ℕ} (hget : s.orders.get k = some order)
    (hs : ∀ id o, s.orders.get id = some o → o.orderId = id ∧ 1 ≤ id ∧ id ≤ counter)
    (hid : order'.orderId = k) :
    ∀ id o, (s.orders.set k order').get id = some o → o.orderId = id ∧ 1 ≤ id ∧ id ≤ counter :=
  Store.forall_get_set hs ⟨hid, (hs _ _ hget).2⟩

theorem Trim.indexed (htrim : Trim s s') (hs : Indexed s) : Indexed s' := by
  cases htrim with
  | @closed order remaining status hget hdead =>
    refine ⟨hs.byInvoice, hs.bySeller, ?_, ?_, fun place => ?_, hs.listingId, ?_⟩
    · exact hs.byOwner.rewrite hget rfl fun _ => rfl
    · exact hs.byPlace.leave (v := order) hget rfl (Order.resting_eq_false hdead)
    · dsimp only [State.removeFromBook, State.saveOrder]
      rw [Function.update_apply]
      split_ifs with hplace
      · rw [← hplace]
        exact (List.length_filter_le _ _).trans (hs.depth _)
      · exact hs.depth place
    · exact orderId_set hget hs.orderId rfl
  | @reduced order remaining status hget hlive hstill hpos hle =>
    have hold : order.resting = true := order.resting_iff.2 ⟨hlive, hpos.trans_le hle⟩
    have hnew : { order with remaining := remaining, status := status }.resting = true :=
      (Order.resting_iff _).2 ⟨hstill, hpos⟩
    refine ⟨hs.byInvoice, hs.bySeller, ?_, ?_, hs.depth, hs.listingId, ?_⟩
    · exact hs.byOwner.rewrite hget rfl fun _ => rfl
    · exact hs.byPlace.rewrite hget rfl hold hnew
    · exact orderId_set hget hs.orderId rfl
  | idle hsame => exact hsame.indexed hs

theorem committed_saveOrder {order order' : Order} (invoiceId : ℕ) (owner : Address)
    (kind : ListingKind) (hget : s.orders.get order'.orderId = some order) :
    (s.saveOrder order').committed invoiceId owner kind =
      s.committed invoiceId owner kind - order.committed invoiceId owner kind +
        order'.committed invoiceId owner kind := by
  have hasked : (s.saveOrder order').asked invoiceId owner kind =
      s.asked invoiceId owner kind - order.committed invoiceId owner kind +
        order'.committed invoiceId owner kind := by
    unfold State.asked State.saveOrder
    rw [Store.total_set, Store.part_of_get hget]
  have hlisted : (s.saveOrder order').listed invoiceId owner kind = s.listed invoiceId owner kind :=
    rfl
  unfold State.committed
  rw [hasked, hlisted]
  ring

theorem Trim.committed_le (htrim : Trim s s') (invoiceId : ℕ) (owner : Address) (kind : ListingKind) :
    s'.committed invoiceId owner kind ≤ s.committed invoiceId owner kind := by
  cases htrim with
  | @closed order remaining status hget hdead =>
    let order' := { order with remaining := remaining, status := status }
    have hnew : order'.committed invoiceId owner kind = 0 := Order.committed_of_dead hdead
    have hsave : (s.saveOrder order').committed invoiceId owner kind = _ :=
      committed_saveOrder invoiceId owner kind hget
    show (s.saveOrder order').committed invoiceId owner kind ≤ _
    omega
  | @reduced order remaining status hget hlive hstill hpos hle =>
    let order' := { order with remaining := remaining, status := status }
    have hmono : order'.committed invoiceId owner kind ≤ order.committed invoiceId owner kind :=
      Order.committed_mono hle hlive
    have hsave : (s.saveOrder order').committed invoiceId owner kind = _ :=
      committed_saveOrder invoiceId owner kind hget
    show (s.saveOrder order').committed invoiceId owner kind ≤ _
    omega
  | idle hsame => exact (hsame.committed invoiceId owner kind).le

/-- What holds of the parts of the store that a trim leaves alone. -/
structure Trimmed (s s' : State W) : Prop where
  orderCounter : s'.orderCounter = s.orderCounter
  listings : s'.listings = s.listings
  listingIdsInv : s'.listingIdsInv = s.listingIdsInv
  fresh : ∀ id, s.orders.get id = none → s'.orders.get id = none
  book : ∀ place, (s'.book place).Sublist (s.book place)

theorem Trimmed.trans {s₁ s₂ s₃ : State W} (h : Trimmed s₁ s₂) (h' : Trimmed s₂ s₃) :
    Trimmed s₁ s₃ where
  orderCounter := h'.orderCounter.trans h.orderCounter
  listings := h'.listings.trans h.listings
  listingIdsInv := h'.listingIdsInv.trans h.listingIdsInv
  fresh := fun id hid => h'.fresh id (h.fresh id hid)
  book := fun place => (h'.book place).trans (h.book place)

theorem fresh_set {k : ℕ} {order order' : Order} (hget : s.orders.get k = some order) (id : ℕ)
    (hid : s.orders.get id = none) : (s.orders.set k order').get id = none := by
  have hne : id ≠ k := by
    rintro rfl
    simp [hget] at hid
  rw [Store.get_set_of_ne _ _ hne, hid]

theorem Trim.trimmed (htrim : Trim s s') : Trimmed s s' := by
  cases htrim with
  | closed remaining hget hdead =>
    refine ⟨rfl, rfl, rfl, fresh_set hget, fun place => ?_⟩
    dsimp only [State.removeFromBook, State.saveOrder]
    rw [Function.update_apply]
    split_ifs with hplace
    · rw [hplace]
      exact List.filter_sublist
    · exact .refl _
  | reduced hget hlive hstill hpos hle => exact ⟨rfl, rfl, rfl, fresh_set hget, fun _ => .refl _⟩
  | idle hsame =>
    exact ⟨hsame.orderCounter, hsame.listings, hsame.listingIdsInv,
      fun id hid => by rw [hsame.orders, hid], fun place => by rw [hsame.book]⟩

abbrev Trims (s s' : State W) : Prop := ReflTransGen Trim s s'

theorem Trims.indexed (htrims : Trims s s') (hs : Indexed s) : Indexed s' := by
  induction htrims with
  | refl => exact hs
  | tail _ htrim ih => exact htrim.indexed ih

theorem Trims.committed_le (htrims : Trims s s') (invoiceId : ℕ) (owner : Address)
    (kind : ListingKind) :
    s'.committed invoiceId owner kind ≤ s.committed invoiceId owner kind := by
  induction htrims with
  | refl => exact le_rfl
  | tail _ htrim ih => exact (htrim.committed_le invoiceId owner kind).trans ih

theorem Trims.trimmed (htrims : Trims s s') : Trimmed s s' := by
  induction htrims with
  | refl => exact ⟨rfl, rfl, rfl, fun _ h => h, fun _ => .refl _⟩
  | tail _ htrim ih => exact ih.trans htrim.trimmed

end Moves

end Astera.Market
