import Astera.Insurance.Records

/-!
# The reserves are real

The reserve of a token counts what came in from the treasury and from premiums, less what was paid
out, and every one of these moves goes with a transfer of the same amount.  The gate of a purchase
compares a ratio that is rounded down and saturates, and both only make it stricter.
-/

namespace Astera.Insurance

open Fallible Machine Transition

variable {W : Type} {h : Host W} {s s' : State W}

def noteFunding (_ : State W) (tx : Tx h) (_ : State W) (funded : Address → ℤ) : Address → ℤ :=
  match tx.call with
  | .fundReserveFromTreasury _ token amount => Function.update funded token (funded token + amount)
  | _ => funded

def Call.receiver : Call W → Option Address
  | .tokenTransfer _ _ receiver _ => some receiver
  | _ => none

/-- The call is not a transfer to the reserve by a holder. -/
def NoGift (tx : Tx h) : Prop := tx.call.receiver ≠ some h.self

instance (tx : Tx h) : Decidable (NoGift tx) := inferInstanceAs (Decidable (_ ≠ _))

/-- The reserve of a token is what the contract has of it, and what its sources add up to. -/
structure Real (h : Host W) (s : State W) (funded : Address → ℤ) (token : Address) : Prop where
  balance : s.balances token h.self = (s.reserveFund token).totalReserves
  sources : (s.reserveFund token).totalReserves =
    funded token + (s.reserveFund token).totalPremiumsCollected -
      (s.reserveFund token).totalClaimsPaid
  reserves_nonneg : 0 ≤ (s.reserveFund token).totalReserves

theorem Real.of_same {funded funded' : Address → ℤ} {token : Address} (hs : Real h s funded token)
    (hbalance : s'.balances token h.self = s.balances token h.self)
    (hfund : SameFund (s.reserveFund token) (s'.reserveFund token))
    (hfunded : funded' token = funded token) : Real h s' funded' token := by
  refine ⟨?_, ?_, ?_⟩
  · rw [hbalance, hs.balance, hfund.reserves]
  · rw [hfund.reserves, hfund.premiums, hfund.claims, hfunded]
    exact hs.sources
  · rw [hfund.reserves]
    exact hs.reserves_nonneg

section Steps

variable {funded : Address → ℤ} {t : Address}

theorem Real.endowed (hs : Real h s funded t) {admin token : Address} {amount : ℤ}
    (hadmin : admin ≠ h.self) (hpos : 0 < amount) :
    Real h (s.endowed h admin token amount)
      (Function.update funded token (funded token + amount)) t := by
  unfold State.endowed
  by_cases ht : t = token
  · subst ht
    have hbalance := hs.balance
    have hsources := hs.sources
    have hnn := hs.reserves_nonneg
    have hself : (s.moved t admin h.self amount).balances t h.self =
        s.balances t h.self + amount := by
      rw [balances_moved, if_pos rfl]
      exact Ledger.move_receiver _ _ (Ne.symm hadmin)
    refine ⟨?_, ?_, ?_⟩ <;> rw [reserveFund_setReserve, if_pos rfl]
    · exact hself.trans (by rw [hbalance]; rfl)
    · rw [Function.update_self]
      show (s.reserveFund t).totalReserves + amount = _
      simp only [ReserveFund.recomputeRatio]
      omega
    · show 0 ≤ (s.reserveFund t).totalReserves + amount
      omega
  · refine hs.of_same ?_ ?_ (Function.update_of_ne ht _ _)
    · show (s.moved token admin h.self amount).balances t h.self = _
      rw [balances_moved, if_neg ht]
    · rw [reserveFund_setReserve, if_neg ht]
      exact .refl _

theorem Real.covered (hs : Real h s funded t) {payer : Address} {invoiceId : ℕ}
    {record : CoverageRecord} (hpayer : payer ≠ h.self) (hpremium : 0 < record.premiumPaid) :
    Real h (s.covered h payer invoiceId record) funded t := by
  unfold State.covered
  by_cases ht : t = record.token
  · subst ht
    have hbalance := hs.balance
    have hsources := hs.sources
    have hnn := hs.reserves_nonneg
    have hself : (s.moved record.token payer h.self record.premiumPaid).balances record.token h.self =
        s.balances record.token h.self + record.premiumPaid := by
      rw [balances_moved, if_pos rfl]
      exact Ledger.move_receiver _ _ (Ne.symm hpayer)
    refine ⟨?_, ?_, ?_⟩ <;> dsimp only <;> rw [reserveFund_setReserve, if_pos rfl] <;>
      simp only [ReserveFund.insuring, ReserveFund.recomputeRatio]
    · exact hself.trans (by rw [hbalance])
    · omega
    · omega
  · refine hs.of_same ?_ ?_ rfl
    · show (s.moved record.token payer h.self record.premiumPaid).balances t h.self = _
      rw [balances_moved, if_neg ht]
    · dsimp only
      rw [reserveFund_setReserve, if_neg ht]
      exact .refl _

theorem Real.paidOut (hs : Real h s funded t) {invoiceId : ℕ} {record : CoverageRecord}
    {shortfall payout : ℤ} {world : W} (hpool : s.config.poolContract ≠ h.self)
    (hle : payout ≤ (s.reserveFund record.token).totalReserves) :
    Real h (s.paidOut h invoiceId record shortfall payout world) funded t := by
  unfold State.paidOut
  by_cases ht : t = record.token
  · subst ht
    have hbalance := hs.balance
    have hsources := hs.sources
    have hself : (s.moved record.token h.self s.config.poolContract payout).balances record.token
        h.self = s.balances record.token h.self - payout := by
      rw [balances_moved, if_pos rfl]
      exact Ledger.move_sender _ _ (Ne.symm hpool)
    refine ⟨?_, ?_, ?_⟩ <;> dsimp only <;> rw [reserveFund_setReserve, if_pos rfl] <;>
      simp only [ReserveFund.paid, ReserveFund.recomputeRatio]
    · exact hself.trans (by rw [hbalance])
    · omega
    · omega
  · refine hs.of_same ?_ ?_ rfl
    · show (s.moved record.token h.self s.config.poolContract payout).balances t h.self = _
      rw [balances_moved, if_neg ht]
    · dsimp only
      rw [reserveFund_setReserve, if_neg ht]
      exact .refl _

theorem Real.moved (hs : Real h s funded t) {token sender receiver : Address} {amount : ℤ}
    (hsender : sender ≠ h.self) (hreceiver : receiver ≠ h.self) :
    Real h (s.moved token sender receiver amount) funded t := by
  refine hs.of_same ?_ (.refl _) rfl
  rw [balances_moved]
  split_ifs with ht
  · rw [ht, Ledger.move_of_ne _ _ _ (Ne.symm hsender), if_neg (Ne.symm hreceiver), add_zero]
  · rfl

end Steps

theorem real_step {x y : State W × (Address → ℤ)} {tx : Tx h}
    (hx : Sound x.1 ∧ ∀ token, Real h x.1 x.2 token) (hok : NoGift tx)
    (hstep : track (exec h) noteFunding x tx = .ok y) :
    Sound y.1 ∧ ∀ token, Real h y.1 y.2 token := by
  obtain ⟨s, funded⟩ := x
  obtain ⟨s', funded'⟩ := y
  obtain ⟨hs, hreal⟩ := hx
  rw [track_eq_ok] at hstep
  obtain ⟨hexec, hnote⟩ := hstep
  dsimp only at hexec hnote hs hreal
  subst hnote
  refine ⟨exec_sound hs hexec, fun t => ?_⟩
  cases exec_effect hexec with
  | endowed hcall hsigned hpos =>
    simp only [noteFunding, hcall]
    exact (hreal t).endowed (Tx.self_ne hsigned) hpos
  | covered hcall hsigned hrunning hfree htoken hprincipal hpremium =>
    simp only [noteFunding, hcall]
    exact (hreal t).covered (Tx.self_ne hsigned) hpremium
  | released hcall hget =>
    rw [hs.noneInstance] at hget
    cases hget
  | paidOut hcall hget hpool hshortfall hpayout =>
    simp only [noteFunding, hcall]
    exact (hreal t).paidOut hpool (by omega)
  | configured hcall hsame =>
    simp only [noteFunding, hcall]
    exact (hreal t).of_same (by rw [hsame.balances]) (hsame.funds t) rfl
  | advanced hcall | elsewhere hcall =>
    simp only [noteFunding, hcall]
    exact (hreal t).of_same rfl (.refl _) rfl
  | @moved token sender receiver amount hcall hsigned =>
    simp only [noteFunding, hcall]
    have hreceiver : receiver ≠ h.self := by
      intro heq
      exact hok (by rw [hcall, Call.receiver, heq])
    exact (hreal t).moved (Tx.self_ne hsigned) hreceiver

theorem floor_of_ratioBps {reserves exposure : ℤ} {floor : ℕ} (hreserves : 0 ≤ reserves)
    (hexposure : 0 < exposure) (hle : floor ≤ ratioBps reserves exposure) :
    floor * exposure ≤ reserves * bpsDenom := by
  have hscaled : saturatingMul reserves bpsDenom ≤ reserves * bpsDenom := by
    have hnn : 0 ≤ reserves * (bpsDenom : ℕ) := mul_nonneg hreserves (Int.natCast_nonneg _)
    exact saturatingMul_le _ _ (by omega)
  have hnn : 0 ≤ saturatingMul reserves bpsDenom :=
    saturatingMul_nonneg hreserves (Int.natCast_nonneg _)
  have hratio : (floor : ℤ) ≤ (saturatingMul reserves bpsDenom).tdiv exposure := by
    have hquotient := Int.tdiv_nonneg hnn hexposure.le
    unfold ratioBps at hle
    rw [if_neg (by omega), max_eq_left hreserves] at hle
    split at hle
    · rename_i ratio hdiv
      obtain ⟨-, rfl, -⟩ := (checkedDiv_eq_some _ _ _).1 hdiv
      rw [if_pos hquotient] at hle
      omega
    · omega
  calc (floor : ℤ) * exposure
      ≤ (saturatingMul reserves bpsDenom).tdiv exposure * exposure :=
        mul_le_mul_of_nonneg_right hratio hexposure.le
    _ ≤ saturatingMul reserves bpsDenom := tdiv_mul_le_of_nonneg hexposure hnn
    _ ≤ reserves * bpsDenom := hscaled

theorem Real.floor_of_purchase {funded : Address → ℤ} {payer : Address} {invoiceId : ℕ}
    {record : CoverageRecord} (hs : Real h s funded record.token)
    (hexposure : 0 ≤ (s.reserveFund record.token).totalCoveredExposure)
    (hpremium : 0 < record.premiumPaid) (hinsured : 0 ≤ record.insured)
    (hratio : ¬ (0 < (s.reserveFund record.token).totalCoveredExposure + record.insured ∧
      ratioBps ((s.reserveFund record.token).totalReserves + record.premiumPaid)
        ((s.reserveFund record.token).totalCoveredExposure + record.insured) <
          (s.reserveFund record.token).minCoverageRatioBps)) :
    let reserve := (s.covered h payer invoiceId record).reserveFund record.token
    reserve.minCoverageRatioBps * reserve.totalCoveredExposure ≤
      reserve.totalReserves * bpsDenom := by
  have hreserves := hs.reserves_nonneg
  unfold State.covered
  dsimp only
  rw [reserveFund_setReserve, if_pos rfl]
  simp only [ReserveFund.insuring, ReserveFund.recomputeRatio]
  by_cases hpos : 0 < (s.reserveFund record.token).totalCoveredExposure + record.insured
  · exact floor_of_ratioBps (by omega) hpos (not_lt.1 fun hlt => hratio ⟨hpos, hlt⟩)
  · have hzero : (s.reserveFund record.token).totalCoveredExposure + record.insured = 0 := by omega
    rw [hzero, mul_zero]
    exact mul_nonneg (by omega) (Int.natCast_nonneg _)

/-- In every run without gifts to the reserve, of every token: the contract has what it counts as its
reserves, these are the treasury's funding and the premiums less the payouts and never negative, and
after a purchase they are at the floor of the exposure. -/
theorem reserves_are_real {now : ℕ} {world : W} {balances : Address → Address → ℤ}
    {admin poolContract invoiceContract : Address} {funded : Address → ℤ}
    (hempty : ∀ token, balances token h.self = 0)
    (hrun : Reaches (track (exec h) noteFunding) (fun _ tx => NoGift tx)
      (initializeInsurance now world balances admin poolContract invoiceContract, fun _ => 0)
      (s, funded)) :
    (∀ token,
      s.balances token h.self = (s.reserveFund token).totalReserves ∧
      (s.reserveFund token).totalReserves = funded token +
        (s.reserveFund token).totalPremiumsCollected - (s.reserveFund token).totalClaimsPaid ∧
      0 ≤ (s.reserveFund token).totalReserves) ∧
    ∀ (tx : Tx h) (s' : State W) payer invoiceId principal sme dueDate token,
      tx.call = .purchaseCoverage payer invoiceId principal sme dueDate token →
      exec h s tx = .ok s' →
        (s'.reserveFund token).minCoverageRatioBps * (s'.reserveFund token).totalCoveredExposure ≤
          (s'.reserveFund token).totalReserves * 10_000 := by
  obtain ⟨hs, hreal⟩ := hrun.invariant (P := fun x => Sound x.1 ∧ ∀ token, Real h x.1 x.2 token)
    ⟨sound_initial now world balances admin poolContract invoiceContract,
      fun token => ⟨hempty token, rfl, le_rfl⟩⟩
    fun _ _ _ hx hok hstep => real_step hx hok hstep
  dsimp only at hs hreal
  refine ⟨fun token => ⟨(hreal token).balance, (hreal token).sources, (hreal token).reserves_nonneg⟩,
    ?_⟩
  intro tx s' payer invoiceId principal sme dueDate token hcall hexec
  cases exec_effect hexec with
  | covered hcall' hsigned hrunning hfree htoken hprincipal hpremium hopen hpaid hinsured hfits hratio =>
    rw [hcall] at hcall'
    injection hcall' with _ _ _ _ _ hsame
    rw [← hsame] at htoken hratio
    subst htoken
    exact (hreal _).floor_of_purchase (hs.exposure_nonneg _) hpremium hinsured hratio
  | endowed hcall' | released hcall' | paidOut hcall' | configured hcall' | advanced hcall'
  | elsewhere hcall' | moved hcall' =>
    rw [hcall] at hcall'
    cases hcall'

theorem reserves_are_real_covered :
    ∃ (s : State Unit) (funded : Address → ℤ), funded 9 = 5_000 ∧
      (s.reserveFund 9).totalCoveredExposure = 500 ∧ s.balances 9 1 = 5_020 ∧
      (s.reserveFund 9).totalReserves = 5_020 := by
  obtain ⟨⟨s, funded⟩, hx, hp⟩ := exists_of_check
    (x := samplePurchase.foldlM (track (exec sampleHost) noteFunding) (sampleStart, fun _ => 0))
    (p := fun x => decide (x.2 9 = 5_000 ∧ (x.1.reserveFund 9).totalCoveredExposure = 500 ∧
      (x.1.reserveFund 9).totalReserves = 5_020)) (by decide)
  obtain ⟨hfunded, hexposure, hreserves⟩ := of_decide_eq_true hp
  have hrun := reaches_of_along .refl (show Along _ (fun _ tx => NoGift tx) _ samplePurchase
    by decide) hx
  have hreal := (reserves_are_real (h := sampleHost) (fun _ => rfl) hrun).1 9
  exact ⟨s, funded, hfunded, hexposure, hreal.1.trans hreserves, hreserves⟩

end Astera.Insurance
