import Astera.Market.Steps

/-!
# The cap on listings

`list_position` compares the maximum of open listings with the length of an index that closed
listings never leave.  So a refused call finds that many open listings exactly when none was ever
closed.
-/

namespace Astera.Market

open Fallible Machine Index Transition

variable {W : Type}

def State.openListings (s : State W) (invoiceId : ℕ) : ℤ :=
  s.listings.total fun _ listing =>
    if listing.invoiceId = invoiceId ∧ listing.status = .Open then 1 else 0

def State.NoneClosed (s : State W) (invoiceId : ℕ) : Prop :=
  ∀ id listing, s.listings.get id = some listing → listing.invoiceId = invoiceId →
    listing.status = .Open

theorem length_listingIdsInv {s : State W} (hs : Indexed s) (invoiceId : ℕ) :
    ((s.listingIdsInv invoiceId).length : ℤ) =
      s.listings.total fun _ listing => if listing.invoiceId = invoiceId then 1 else 0 := by
  rw [← hs.byInvoice.sum_eq_total (l := invoiceId)]
  · have hone : (s.listingIdsInv invoiceId).map (s.listings.part fun _ listing =>
        if listing.invoiceId = invoiceId then 1 else 0) =
          (s.listingIdsInv invoiceId).map fun _ => (1 : ℤ) := by
      apply List.map_congr_left
      intro id hid
      obtain ⟨listing, hget, hinvoice⟩ := hs.byInvoice.stored invoiceId id hid
      rw [Store.part_of_get hget, if_pos hinvoice]
    rw [hone]
    simp
  · intro id listing _ hne
    refine ⟨rfl, ?_⟩
    by_contra hother
    exact hne (if_neg hother)

theorem openListings_eq_length_iff {s : State W} (hs : Indexed s) (invoiceId : ℕ) :
    s.openListings invoiceId = (s.listingIdsInv invoiceId).length ↔ s.NoneClosed invoiceId := by
  rw [length_listingIdsInv hs]
  unfold State.openListings State.NoneClosed
  rw [Store.total_eq_iff_of_le]
  · refine forall_congr' fun id => forall_congr' fun listing => forall_congr' fun _ => ?_
    by_cases hinvoice : listing.invoiceId = invoiceId
    · by_cases hopen : listing.status = .Open
      · simp [hinvoice, hopen]
      · simp [hinvoice, hopen]
    · simp [hinvoice]
  · intro id listing _
    by_cases hinvoice : listing.invoiceId = invoiceId
    · simp only [hinvoice, true_and, if_true]
      split_ifs <;> omega
    · simp [hinvoice]

section Run

variable {h : Host W} {s s' : State W} {tx : Tx W}

theorem Effect.listingIdsInv {call : Call W} (heffect : Effect h s call s') (invoiceId : ℕ) :
    s'.listingIdsInv invoiceId = s.listingIdsInv invoiceId ∨
      (s.listingIdsInv invoiceId).length < maxListingsPerInvoice ∧
        (s'.listingIdsInv invoiceId).length = (s.listingIdsInv invoiceId).length + 1 := by
  cases heffect with
  | idle hcall hsame => exact .inl (by rw [hsame.listingIdsInv])
  | @listed _ listedId _ _ _ _ hcall hheld hroom =>
    by_cases hinvoice : invoiceId = listedId
    · subst hinvoice
      exact .inr ⟨hroom, by simp [State.addListing, State.newListing]⟩
    · exact .inl (by simp [State.addListing, State.newListing, Function.update_of_ne hinvoice])
  | unlisted hcall hsame hget hclosed hsame' =>
    exact .inl (by rw [hsame'.listingIdsInv, State.closeListing, hsame.listingIdsInv])
  | placed hcall hsame hposition hplaced hsame' =>
    exact .inl (by rw [hsame'.listingIdsInv, hplaced.listings.2, hsame.listingIdsInv])
  | trimmed hcall htrim => exact .inl (by rw [htrim.trimmed.listingIdsInv])

/-- The indexes are right and no index is longer than the cap. -/
structure Capped (s : State W) : Prop where
  indexed : Indexed s
  length_le : ∀ invoiceId, (s.listingIdsInv invoiceId).length ≤ maxListingsPerInvoice

theorem capped_initial (now : ℕ) (world : W) (admin poolContract : Address) :
    Capped (initializeMarket now world admin poolContract) :=
  ⟨indexed_initial now world admin poolContract, fun _ => Nat.zero_le _⟩

theorem Capped.step (hs : Capped s) (hx : exec h s tx = .ok s') : Capped s' := by
  have heffect := exec_effect hs.indexed hx
  refine ⟨heffect.indexed hs.indexed, fun invoiceId => ?_⟩
  rcases heffect.listingIdsInv invoiceId with hsame | ⟨hroom, hlength⟩
  · rw [hsame]
    exact hs.length_le invoiceId
  · omega

theorem capped_of_reaches {ok : State W → Tx W → Prop} {s₀ : State W} (h₀ : Capped s₀)
    (hrun : Reaches (exec h) ok s₀ s) : Capped s :=
  hrun.invariant h₀ fun _ _ _ hs _ hx => hs.step hx

theorem full_of_reaches {ok : State W → Tx W → Prop} {s₀ : State W} {invoiceId : ℕ}
    (h₀ : Capped s₀) (hfull : (s₀.listingIdsInv invoiceId).length = maxListingsPerInvoice)
    (hrun : Reaches (exec h) ok s₀ s) :
    (s.listingIdsInv invoiceId).length = maxListingsPerInvoice := by
  have hinv : Capped s ∧ (s.listingIdsInv invoiceId).length = maxListingsPerInvoice := by
    apply hrun.invariant (P := fun s => Capped s ∧
      (s.listingIdsInv invoiceId).length = maxListingsPerInvoice) ⟨h₀, hfull⟩
    intro s tx s' ⟨hs, hlength⟩ _ hx
    refine ⟨hs.step hx, ?_⟩
    rcases (exec_effect hs.indexed hx).listingIdsInv invoiceId with hsame | ⟨hroom, -⟩
    · rw [hsame, hlength]
    · omega
  exact hinv.2

def ClosesNone (invoiceId : ℕ) (s : State W) (tx : Tx W) : Prop :=
  match tx.call with
  | .cancelListing _ id | .buyListing _ id =>
    ∀ listing, s.listings.get id = some listing → listing.invoiceId ≠ invoiceId
  | _ => True

theorem noneClosed_step {invoiceId : ℕ} (hs : Indexed s) (hnone : s.NoneClosed invoiceId)
    (hok : ClosesNone invoiceId s tx) (hx : exec h s tx = .ok s') : s'.NoneClosed invoiceId := by
  cases exec_effect hs hx with
  | idle hcall hsame =>
    unfold State.NoneClosed
    rw [hsame.listings]
    exact hnone
  | listed hcall hheld hroom => exact Store.forall_get_set hnone fun _ => rfl
  | @unlisted id listing status s₁ _ hcall hsame hget hclosed hsame' =>
    have hother : listing.invoiceId ≠ invoiceId := by
      rw [hsame.listings] at hget
      unfold ClosesNone at hok
      rcases hcall with ⟨_, hcall⟩ | ⟨_, hcall⟩
      · rw [hcall] at hok
        exact hok listing hget
      · rw [hcall] at hok
        exact hok listing hget
    unfold State.NoneClosed
    rw [hsame'.listings]
    unfold State.closeListing
    dsimp only
    rw [hsame.listings]
    exact Store.forall_get_set hnone fun hinvoice => absurd hinvoice hother
  | placed hcall hsame hposition hplaced hsame' =>
    unfold State.NoneClosed
    rw [hsame'.listings, hplaced.listings.1, hsame.listings]
    exact hnone
  | trimmed hcall htrim =>
    unfold State.NoneClosed
    rw [htrim.trimmed.listings]
    exact hnone

end Run

theorem checkHolding_eq_error {h : Host W} {s : State W} {record : Pool.FundedInvoice}
    {owner : Address} {invoiceId : ℕ} {kind : ListingKind} {amountOrBps : ℕ} {e : Fault}
    (hx : s.checkHolding h record owner invoiceId kind amountOrBps = .error e) :
    e = .error .InvalidAmount := by
  cases kind with
  | CoFunding =>
    simp only [State.checkHolding, bind_eq_error, okOr_eq_error, require_eq_error] at hx
    rcases hx with ⟨-, he⟩ | ⟨_, -, -, he⟩
    · exact he.symm
    · exact he.symm
  | SingleFunded =>
    simp only [State.checkHolding, bind_eq_error, okOr_eq_error, require_eq_error] at hx
    rcases hx with ⟨-, he⟩ | ⟨_, -, ⟨-, he⟩ | ⟨_, -, ⟨-, he⟩ | ⟨_, -, -, he⟩⟩⟩
    · exact he.symm
    · exact he.symm
    · exact he.symm
    · exact he.symm

theorem listPosition_tooMany {h : Host W} {signers : List Address} {s : State W} {seller : Address}
    {invoiceId : ℕ} {kind : ListingKind} {amountOrBps : ℕ} {price : ℤ}
    (hrefused : listPosition h signers s seller invoiceId kind amountOrBps price =
      .error (.error .TooManyListings)) :
    maxListingsPerInvoice ≤ (s.listingIdsInv invoiceId).length := by
  simp only [listPosition, requireAuth, State.requireNotPaused, bind_eq_error, okOr_eq_error,
    require_eq_error, reduceCtorEq, and_false, false_or, Fault.error.injEq] at hrefused
  obtain ⟨_, -, _, -, _, -, _, -, record, -, hcheck | ⟨_, -, hcap | hid⟩⟩ := hrefused
  · cases checkHolding_eq_error hcheck
  · exact not_lt.1 hcap.1
  · simp [pure, Except.pure] at hid

/-- A call that is refused because the invoice has too many listings finds the maximum of open ones
exactly when none of the invoice's listings was closed; so in a run that closes none of them, the cap
counts open listings. -/
theorem listing_cap_counts_open {h : Host W} {now : ℕ} {world : W} {admin poolContract : Address}
    {signers : List Address} {s : State W} {seller : Address} {invoiceId : ℕ} {kind : ListingKind}
    {amountOrBps : ℕ} {price : ℤ}
    (hrefused : listPosition h signers s seller invoiceId kind amountOrBps price =
      .error (.error .TooManyListings)) :
    (Reaches (exec h) (fun _ _ => True) (initializeMarket now world admin poolContract) s →
      (s.openListings invoiceId = maxListingsPerInvoice ↔ s.NoneClosed invoiceId)) ∧
    (Reaches (exec h) (ClosesNone invoiceId) (initializeMarket now world admin poolContract) s →
      s.openListings invoiceId = maxListingsPerInvoice) := by
  have hfull := listPosition_tooMany hrefused
  have hiff : Capped s →
      (s.openListings invoiceId = maxListingsPerInvoice ↔ s.NoneClosed invoiceId) := by
    intro hs
    have hlength : (s.listingIdsInv invoiceId).length = maxListingsPerInvoice :=
      le_antisymm (hs.length_le invoiceId) hfull
    rw [← hlength]
    exact openListings_eq_length_iff hs.indexed invoiceId
  have hstart := capped_initial now world admin poolContract
  refine ⟨fun hrun => hiff (capped_of_reaches hstart hrun), fun hrun => ?_⟩
  have hnone : Capped s ∧ s.NoneClosed invoiceId := by
    apply hrun.invariant (P := fun s => Capped s ∧ s.NoneClosed invoiceId)
    · exact ⟨hstart, fun id listing hget => by simp [initializeMarket] at hget⟩
    · rintro s tx s' ⟨hs, hnone⟩ hok hx
      exact ⟨hs.step hx, noneClosed_step hs.indexed hnone hok hx⟩
  exact (hiff hnone.1).2 hnone.2

def sampleListing : Tx Unit := ⟨[5], .listPosition 5 8 .SingleFunded 1 1⟩

theorem listing_cap_counts_open_fifty :
    ∃ s, Reaches (exec sampleHost) (ClosesNone 8) sampleStart s ∧
      listPosition sampleHost [5] s 5 8 .SingleFunded 1 1 = .error (.error .TooManyListings) ∧
      s.openListings 8 = maxListingsPerInvoice := by
  obtain ⟨s, hs, hp⟩ := exists_of_check
    (x := (List.replicate 50 sampleListing).foldlM (exec sampleHost) sampleStart)
    (p := fun s => fails (listPosition sampleHost [5] s 5 8 .SingleFunded 1 1)
      (.error .TooManyListings)) (by decide +kernel)
  have halong : ∀ n (s : State Unit),
      Along (exec sampleHost) (ClosesNone 8) s (List.replicate n sampleListing) := by
    intro n
    induction n with
    | zero => exact fun s => trivial
    | succ n ih => exact fun s => ⟨trivial, fun s' _ => ih s'⟩
  have hrun := reaches_of_along .refl (halong 50 sampleStart) hs
  exact ⟨s, hrun, of_fails hp, (listing_cap_counts_open (of_fails hp)).2 hrun⟩

/-- Account 5 lists a position and cancels the listing, fifty times. -/
def listAndCancel : List (Tx Unit) :=
  (List.range 50).flatMap fun i => [sampleListing, ⟨[5], .cancelListing 5 (i + 1)⟩]

/-- Fifty listings that are all cancelled close the market of an invoice for good: no listing is open,
the next one is refused for the cap, and no later call lists a position of the invoice. -/
theorem cancelled_listings_fill_cap :
    ∃ s, Reaches (exec sampleHost) (fun _ _ => True) sampleStart s ∧ s.openListings 8 = 0 ∧
      listPosition sampleHost [5] s 5 8 .SingleFunded 1 1 = .error (.error .TooManyListings) ∧
      ∀ s', Reaches (exec sampleHost) (fun _ _ => True) s s' →
        ∀ signers seller kind amountOrBps price x,
          listPosition sampleHost signers s' seller 8 kind amountOrBps price ≠ .ok x := by
  obtain ⟨s, hs, hp⟩ := exists_of_check (x := listAndCancel.foldlM (exec sampleHost) sampleStart)
    (p := fun s => fails (listPosition sampleHost [5] s 5 8 .SingleFunded 1 1)
      (.error .TooManyListings) && decide (s.openListings 8 = 0)) (by decide +kernel)
  rw [Bool.and_eq_true] at hp
  have hrun := reaches_of_along .refl (along_of_forall (fun _ _ => trivial) _ _) hs
  have hcapped : Capped s := capped_of_reaches (capped_initial 1000 () 1 3) hrun
  have hrefused := of_fails hp.1
  have hfull : (s.listingIdsInv 8).length = maxListingsPerInvoice :=
    le_antisymm (hcapped.length_le 8) (listPosition_tooMany hrefused)
  refine ⟨s, hrun, of_decide_eq_true hp.2, hrefused, ?_⟩
  intro s' hlater signers seller kind amountOrBps price x hx
  have hstill := full_of_reaches hcapped hfull hlater
  simp only [listPosition, bind_eq_ok, exists_unit, require_eq_ok] at hx
  obtain ⟨-, -, -, -, _, -, -, hroom, -⟩ := hx
  omega

end Astera.Market
