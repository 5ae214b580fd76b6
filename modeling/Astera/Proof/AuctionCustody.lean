import Astera.Auction.Custody

/-!
# Custody of the auction contract

The contract's balance of a token always covers the amounts of its open sales and the escrow of its
auctions, and the two are equal as long as nothing was stranded.
-/

namespace Astera.Auction

open Fallible Transition

variable {W : Type}

/-- The strays of a run, in the order of the calls. -/
def noteStrays (h : Host W) (s : State W) (tx : Tx h) (_ : State W) (log : List Stray) : List Stray :=
  log ++ strays h s tx

/-- Whether a call happens around the contract and not in it. -/
def Call.isPool : Call W → Bool
  | .pool _ => true
  | _ => false

/-- What happens around the contract sends it nothing of the token. -/
def Undisturbed (h : Host W) (token : Address) (x : State W × List Stray) (tx : Tx h) : Prop :=
  tx.call.isPool = true →
    ∀ s' ∈ (exec h x.1 tx).toOption, s'.balance h token ≤ x.1.balance h token

instance (h : Host W) (token : Address) (x : State W × List Stray) (tx : Tx h) :
    Decidable (Undisturbed h token x tx) :=
  inferInstanceAs (Decidable (_ → ∀ s' ∈ _, _))

/-- What the contract holds beyond its debts is what was stranded. -/
structure Accounted (h : Host W) (token : Address) (x : State W × List Stray) : Prop where
  sound : Sound x.1
  positive : ∀ stray ∈ x.2, 0 < stray.amount
  surplus : x.1.surplus h token = strayed x.2 token

theorem accounted_initial {h : Host W} {ledger : Pool.State W} {token : Address} (admin : Address)
    (hempty : ledger.cash token h.self = 0) :
    Accounted h token (initializeAuction ledger admin, []) where
  sound := sound_initial ledger admin
  positive := by simp
  surplus := by
    show ledger.cash token h.self - (0 + 0) = 0
    rw [hempty]
    rfl

theorem accounted_step {h : Host W} {token : Address} {x y : State W × List Stray} {tx : Tx h}
    (hx : Accounted h token x) (hquiet : Undisturbed h token x tx)
    (hstep : track (exec h) (noteStrays h) x tx = .ok y) : Accounted h token y := by
  rw [track_eq_ok] at hstep
  obtain ⟨hexec, hnote⟩ := hstep
  refine ⟨exec_sound hx.sound hexec, ?_, ?_⟩
  · rw [hnote]
    intro stray hmem
    rcases List.mem_append.1 hmem with hmem | hmem
    · exact hx.positive stray hmem
    · exact strays_pos hx.sound hexec stray hmem
  · rw [hnote, noteStrays, strayed_append, ← hx.surplus]
    cases hcall : tx.call with
    | pool call =>
      have hnone : strays h x.1 tx = [] := by simp [strays, hcall]
      obtain ⟨howed, hgrown⟩ := pool_surplus hcall hexec token
      have hbound : y.1.balance h token ≤ x.1.balance h token :=
        hquiet (by rw [hcall]; rfl) y.1 (by rw [hexec]; rfl)
      rw [hnone, strayed_nil, State.surplus, State.surplus, howed, le_antisymm hbound hgrown,
        add_zero]
    | _ => exact exec_surplus hx.sound hexec (by simp [hcall]) token

/-- In every run in which the contract is sent nothing from outside, it holds at least what it owes of
a token, and exactly that if and only if nothing of the token was stranded: no expired sale that the
contract opened on its own behalf was reclaimed, and no sale whose proceeds go to the contract was
taken at a price. -/
theorem custody_exact {h : Host W} {ledger : Pool.State W} {admin token : Address}
    (hempty : ledger.cash token h.self = 0) {s : State W} {log : List Stray}
    (hrun : Reaches (track (exec h) (noteStrays h)) (Undisturbed h token)
      (initializeAuction ledger admin, []) (s, log)) :
    s.owed token ≤ s.balance h token ∧
      (s.balance h token = s.owed token ↔ ∀ stray ∈ log, stray.token ≠ token) := by
  have haccounted : Accounted h token (s, log) :=
    hrun.invariant (accounted_initial admin hempty) fun _ _ _ => accounted_step
  have hsurplus : s.balance h token - s.owed token = strayed log token := haccounted.surplus
  have hpos : ∀ stray ∈ log, 0 < stray.amount := haccounted.positive
  obtain ⟨hnn, hzero⟩ := strayed_eq_zero_iff hpos token
  rw [← hzero]
  constructor <;> omega

/-- A sale of 30 is taken, an auction is bid for twice and expires, and one bidder withdraws. -/
def sampleCustody : List (Tx sampleHost) :=
  [⟨[5], self_ne_five, .openCollateralSale ⟨5, 10, 30, 10, 5, 20, 10, 100⟩⟩,
    ⟨[5], self_ne_five, .openCollateralSale ⟨5, 10, 40, 10, 5, 20, 10, 100⟩⟩,
    ⟨[6], self_ne_six, .takeCollateralSale 6 1⟩,
    ⟨[4], self_ne_four, .openInvoiceAuction 4 7 4 10 100 500 50⟩,
    ⟨[6], self_ne_six, .placeBid 6 1 70 300⟩,
    ⟨[8], self_ne_eight, .placeBid 8 1 90 400⟩,
    ⟨[], self_notMem_nil, .pool (.advance 60)⟩,
    ⟨[9], self_ne_nine, .expireInvoiceAuction 9 1⟩,
    ⟨[6], self_ne_six, .withdrawBid 6 1⟩]

theorem custody_exact_expired :
    ∃ x : State Unit × List Stray,
      Reaches (track (exec sampleHost) (noteStrays sampleHost)) (Undisturbed sampleHost 10)
        (sampleStart, []) x ∧
      x.2 = [] ∧ x.1.owed 10 = 130 ∧ x.1.balance sampleHost 10 = 130 := by
  obtain ⟨x, hx, hp⟩ := exists_of_check
    (x := sampleCustody.foldlM (track (exec sampleHost) (noteStrays sampleHost)) (sampleStart, []))
    (p := fun x => decide (x.2 = [] ∧ x.1.owed 10 = 130)) (by decide)
  obtain ⟨hlog, howed⟩ := of_decide_eq_true hp
  have hrun := reaches_of_along .refl
    (show Along _ (Undisturbed sampleHost 10) _ sampleCustody by decide) hx
  have hempty : sampleStart.ledger.cash 10 sampleHost.self = 0 := rfl
  have hexact := custody_exact hempty hrun
  refine ⟨x, hrun, hlog, howed, ?_⟩
  rw [← howed]
  apply hexact.2.2
  rw [hlog]
  simp

/-- The seized collateral finds no buyer, and its sale is reclaimed. -/
def strandedSeizure : List (Tx sampleHost) :=
  seizure ++ [⟨[], self_notMem_nil, .pool (.advance 518402)⟩,
    ⟨[9], self_ne_nine, .reclaimExpiredSale 9 1⟩]

/-- The contract returns an expired sale of its own to itself, and owes the 200 to nobody. -/
theorem reclaimed_collateral_stranded :
    ∃ x : State Unit × List Stray,
      Reaches (track (exec sampleHost) (noteStrays sampleHost)) (Undisturbed sampleHost 10)
        (sampleStart, []) x ∧
      x.1.balance sampleHost 10 = 200 ∧ x.1.owed 10 = 0 := by
  obtain ⟨x, hx, hp⟩ := exists_of_check
    (x := strandedSeizure.foldlM (track (exec sampleHost) (noteStrays sampleHost)) (sampleStart, []))
    (p := fun x => decide (x.1.balance sampleHost 10 = 200 ∧ x.1.owed 10 = 0)) (by decide)
  have hrun := reaches_of_along .refl
    (show Along _ (Undisturbed sampleHost 10) _ strandedSeizure by decide) hx
  exact ⟨x, hrun, of_decide_eq_true hp⟩

/-- In every run, whatever the contract is sent from outside, it holds the escrow of each bidder. -/
theorem escrow_held {W : Type} {h : Host W} {s : State W} {ok : State W → Tx h → Prop}
    {ledger : Pool.State W} {admin investor : Address} {auctionId : ℕ} {auction : InvoiceAuction}
    {amount : ℤ} (hstart : ∀ token, 0 ≤ ledger.cash token h.self)
    (hrun : Reaches (exec h) ok (initializeAuction ledger admin) s)
    (hget : s.auctions.get auctionId = some auction)
    (hescrow : s.escrow.get (investor, auctionId) = some amount) :
    amount ≤ s.balance h auction.token := by
  have hs : Sound s ∧ ∀ token, 0 ≤ s.surplus h token := by
    refine hrun.invariant (P := fun s => Sound s ∧ ∀ token, 0 ≤ s.surplus h token)
      ⟨sound_initial ledger admin, fun token => ?_⟩ ?_
    · show 0 ≤ ledger.cash token h.self - (0 + 0)
      simpa using hstart token
    · intro s tx s' hs _ hx
      exact ⟨exec_sound hs.1 hx, fun token => (hs.2 token).trans (surplus_le hs.1 hx token)⟩
  exact escrow_le_balance hs.1 hget hescrow (hs.2 _)

theorem escrow_held_expired : ∃ (s : State Unit) (auction : InvoiceAuction),
    s.auctions.get 1 = some auction ∧ s.escrow.get (8, 1) = some 90 ∧
      90 ≤ s.balance sampleHost auction.token := by
  obtain ⟨s, hs, hp⟩ := exists_of_check (x := sampleCustody.foldlM (exec sampleHost) sampleStart)
    (p := fun s => (s.auctions.get 1).isSome && s.escrow.get (8, 1) == some 90) (by decide)
  obtain ⟨hsome, hescrow⟩ := Bool.and_eq_true_iff.1 hp
  obtain ⟨auction, hget⟩ := Option.isSome_iff_exists.1 hsome
  have hrun : Reaches (exec sampleHost) (fun _ _ => True) sampleStart s :=
    reaches_of_along .refl (along_of_forall (fun _ _ => trivial) _ _) hs
  exact ⟨s, auction, hget, eq_of_beq hescrow,
    escrow_held (fun _ => le_rfl) hrun hget (eq_of_beq hescrow)⟩

end Astera.Auction
