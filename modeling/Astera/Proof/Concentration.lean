import Astera.Pool.Holdings
import Astera.Pool.Positions

/-!
# Concentration

The limit compares what the investor has `deposited` with the pool value.  No exit lowers that
figure, so it is the sum of all that was ever paid in.  It is a live exposure exactly as long as
nobody who paid in has left and nobody paid in more than the pool is worth.
-/

namespace Astera.Pool

open Fallible Machine Transition

variable {W : Type}

/-- An investor holds no shares of a token, has no request in its queue and no commitment to one of
its rounds. -/
structure State.Out (s : State W) (investor token : Address) : Prop where
  shares : s.sharesIn token investor = 0
  queue : ∀ r ∈ s.queue token, r.investor ≠ investor
  commitments : ∀ id round, s.rounds.get id = some round → round.token = token →
    s.coFundCommitted id investor = 0

/-- The ledger as it would be if an investor had never deposited a token. -/
def State.unseen (s : State W) (investor token : Address) : State W :=
  { s with position := set₂ s.position investor token {} }

/-- Concentration is measured on live exposure: who is out has nothing deposited, nobody has more
than the whole pool, and who is out is not refused a deposit that would be accepted as a first
one. -/
structure LiveExposure (h : Host W) (s : State W) : Prop where
  exited : ∀ investor token, s.Out investor token → (s.position investor token).deposited = 0
  concentration : ∀ investor token bps,
    getInvestorConcentration s investor token = .ok bps → bps ≤ 10000
  returning : ∀ signers investor token amount minRate s', s.Out investor token →
    deposit h signers (s.unseen investor token) investor token amount minRate = .ok s' →
    deposit h signers s investor token amount minRate ≠ .error (.err .ConcentrationLimitExceeded)

/-- The value that each investor has paid in so far in each token. -/
def notePaid {h : Host W} (s : State W) (tx : Tx h) (_ : State W)
    (paid : Address → Address → ℤ) : Address → Address → ℤ :=
  match tx.call.credited s with
  | some (investor, token, amount) =>
    set₂ paid investor token (paid investor token + s.creditOf token amount)
  | none => paid

/-- What was paid in as a part of the pool value in basis points, in the widths of the contract. -/
def paidBps (paid poolValue : ℤ) : ℕ := truncU 32 (paid.toNat * 10000 / toU 128 poolValue)

/-- Nobody who is out has ever paid in, and nobody paid in more than the pool is worth. -/
structure StillIn (s : State W) (paid : Address → Address → ℤ) : Prop where
  out : ∀ investor token, s.Out investor token → paid investor token = 0
  share : ∀ investor token, 0 < (s.tt token).poolValue → paid investor token * 10000 < 2 ^ 128 →
    paidBps (paid investor token) (s.tt token).poolValue ≤ 10000

/-- The figure is all that was paid in, and every loan is one of the pool alone. -/
structure PaidUp (x : State W × (Address → Address → ℤ)) : Prop where
  exact : ∀ a t, (x.1.position a t).deposited = x.2 a t
  range : ∀ a t, 0 ≤ x.2 a t ∧ x.2 a t < 2 ^ 127
  unshared : Unshared x.1

theorem creditOf_nonneg (s : State W) (token : Address) (amount : ℤ) :
    0 ≤ s.creditOf token amount := by
  unfold State.creditOf
  split_ifs with hnone
  · exact le_rfl
  · exact Int.tdiv_nonneg (mul_nonneg (not_le.1 hnone).le (Int.natCast_nonneg _)) (by norm_num)

section Run

variable {h : Host W} {x y : State W × (Address → Address → ℤ)} {tx : Tx h}

theorem PaidUp.credit {s s' : State W} {paid : Address → Address → ℤ} {investor token : Address}
    {usdc : ℤ} (hp : PaidUp (s, paid)) (hnn : 0 ≤ usdc) (hc : Credited s s' investor token usdc)
    (hunshared : Unshared s') :
    PaidUp (s', set₂ paid investor token (paid investor token + usdc)) := by
  have hfits : (s'.position investor token).deposited < 2 ^ 127 := by
    apply hc.fits
    rw [hp.exact]
    exact (hp.range investor token).2
  have hexact : ∀ a t, (s'.position a t).deposited =
      set₂ paid investor token (paid investor token + usdc) a t := by
    intro a t
    rw [hc.deposited, set₂_apply, set₂_apply, hp.exact, hp.exact]
  refine ⟨hexact, fun a t => ?_, hunshared⟩
  by_cases hkey : a = investor ∧ t = token
  · obtain ⟨rfl, rfl⟩ := hkey
    rw [hexact] at hfits
    refine ⟨?_, hfits⟩
    dsimp only
    rw [set₂_apply, if_pos ⟨rfl, rfl⟩]
    exact add_nonneg (hp.range a t).1 hnn
  · dsimp only
    rw [set₂_apply, if_neg hkey]
    exact hp.range a t

theorem PaidUp.step (hp : PaidUp x) (hopen : tx.call.closesRound = false)
    (hstep : track (exec h) notePaid x tx = .ok y) : PaidUp y := by
  obtain ⟨s, paid⟩ := x
  obtain ⟨s', paid'⟩ := y
  obtain ⟨hx, hnote⟩ := (track_eq_ok _ _ _ _ _).1 hstep
  dsimp only at hx hnote
  have hunshared : Unshared s' := by
    refine hp.unshared.of_sameRounds (exec_sameRounds (fun caller invoiceId hcall => ?_) hx)
    rw [hcall] at hopen
    cases hopen
  have hcredited := exec_credited hp.unshared hopen hx
  subst hnote
  unfold notePaid
  cases hcall : tx.call.credited s with
  | none =>
    rw [hcall] at hcredited
    exact ⟨fun a t => (hcredited a t).trans (hp.exact a t), hp.range, hunshared⟩
  | some credit =>
    obtain ⟨investor, token, amount⟩ := credit
    rw [hcall] at hcredited
    exact hp.credit (creditOf_nonneg _ _ _) hcredited hunshared

theorem paidUp_initial (now : ℕ) (world : W) (cash : Address → Address → ℤ)
    (shareTokens : Address → Share.ShareToken) (admin token share invoiceContract : Address) :
    PaidUp (initialState now world cash shareTokens admin token share invoiceContract,
      fun _ _ => 0) := by
  refine ⟨fun _ _ => rfl, fun _ _ => by norm_num, ?_⟩
  intro id record hget
  cases hget

end Run

theorem getInvestorConcentration_eq_ok {s : State W} {investor token : Address} {bps : ℕ}
    (hrange : 0 ≤ (s.position investor token).deposited ∧
      (s.position investor token).deposited < 2 ^ 127) :
    getInvestorConcentration s investor token = .ok bps ↔
      ((s.tt token).poolValue ≤ 0 ∧ bps = 0) ∨
        (0 < (s.tt token).poolValue ∧ toU 128 (s.tt token).poolValue ≠ 0 ∧
          (s.position investor token).deposited * 10000 < 2 ^ 128 ∧
          bps = paidBps (s.position investor token).deposited (s.tt token).poolValue) := by
  unfold getInvestorConcentration
  generalize (s.position investor token).deposited = deposited at hrange ⊢
  obtain ⟨hnn, hfits⟩ := hrange
  have hread : toU 128 deposited = deposited.toNat := by
    unfold toU
    rw [Int.emod_eq_of_lt hnn (by omega)]
  dsimp only
  by_cases hempty : (s.tt token).poolValue ≤ 0
  · rw [if_pos hempty, pure_eq_ok]
    simp [hempty, not_lt.2 hempty, eq_comm]
  · rw [if_neg hempty]
    simp only [shareBps, hread, bind_eq_ok, okOr_eq_ok, fitU_eq_some, require_eq_ok, exists_unit,
      pure_eq_ok]
    constructor
    · rintro ⟨scaled, ⟨rfl, hscaled⟩, hvalue, rfl⟩
      exact .inr ⟨not_le.1 hempty, hvalue, by omega, rfl⟩
    · rintro (⟨hle, -⟩ | ⟨-, hvalue, hscaled, rfl⟩)
      · exact absurd hle hempty
      · exact ⟨_, ⟨rfl, by omega⟩, hvalue, rfl⟩

/-! ## Coming back -/

section Return

variable {h : Host W} {signers : List Address} {s : State W} {investor token : Address}
  {amount : ℤ}

theorem depositGuards_unseen (hzero : (s.position investor token).deposited = 0)
    (minRate : Option ℕ) :
    depositGuards h signers (s.unseen investor token) investor token amount minRate =
      depositGuards h signers s investor token amount minRate := by
  have hlimit : ∀ usdc, (s.unseen investor token).requireDepositConcentration investor token usdc =
      s.requireDepositConcentration investor token usdc := by
    intro usdc
    simp only [State.requireDepositConcentration, State.unseen, set₂_apply, and_self, if_true,
      hzero]
    rfl
  unfold depositGuards
  simp only [hlimit]
  rfl

theorem overflowTrap_ne_err (e : PoolError) : overflowTrap ≠ .err e := by
  simp [overflowTrap]

theorem transfer_ne_err {sender receiver : Address} (e : PoolError) :
    s.transfer token sender receiver amount ≠ .error (.err e) := by
  simp [State.transfer, require_eq_error, fmap_eq_error]

theorem mint_ne_err {share receiver : Address} {minted : ℤ} (e : PoolError) :
    s.mint h signers share receiver minted ≠ .error (.err e) := by
  unfold State.mint
  split <;> simp

theorem sharesToMint_ne_err {usdc totalShares poolValue : ℤ} (e : PoolError) :
    sharesToMint overflowTrap usdc totalShares poolValue ≠ .error (.err e) := by
  unfold sharesToMint
  split_ifs <;> simp [bind_eq_error, okOr_eq_error, pure_ne_error, overflowTrap_ne_err]

theorem depositEffects_ne_concentration {usdc : ℤ} :
    depositEffects h signers s investor token amount usdc ≠
      .error (.err .ConcentrationLimitExceeded) := by
  simp [depositEffects, bind_eq_error, okOr_eq_error, require_eq_error, fmap_eq_error,
    State.shareTokenOf, transfer_ne_err, sharesToMint_ne_err, mint_ne_err, overflowTrap_ne_err,
    overflowErr]

theorem recordReferralActivity_ne_err {referee : Address} {kind : ActivityKind} {fee : ℤ}
    (e : PoolError) : s.recordReferralActivity h referee kind fee token ≠ .error (.err e) := by
  unfold State.recordReferralActivity
  split_ifs
  · exact pure_ne_error _ _
  split
  · exact pure_ne_error _ _
  split
  · exact pure_ne_error _ _
  dsimp only
  split_ifs
  · exact pure_ne_error _ _
  · exact transfer_ne_err e

theorem processWithdrawalQueue_ne_err {availableAmount : ℤ} (e : PoolError) :
    processWithdrawalQueue h signers s token availableAmount ≠ .error (.err e) := by
  unfold processWithdrawalQueue
  split <;> simp

theorem deposit_ne_concentration {usdc : ℤ} {minRate : Option ℕ}
    (hguards : depositGuards h signers s investor token amount minRate = .ok usdc) :
    deposit h signers s investor token amount minRate ≠
      .error (.err .ConcentrationLimitExceeded) := by
  unfold deposit
  rw [hguards, ok_bind]
  simp [bind_eq_error, fmap_eq_error, depositEffects_ne_concentration,
    recordReferralActivity_ne_err, processWithdrawalQueue_ne_err]

theorem deposit_not_refused {minRate : Option ℕ} {s' : State W}
    (hzero : (s.position investor token).deposited = 0)
    (hfirst : deposit h signers (s.unseen investor token) investor token amount minRate = .ok s') :
    deposit h signers s investor token amount minRate ≠
      .error (.err .ConcentrationLimitExceeded) := by
  unfold deposit at hfirst
  simp only [bind_eq_ok, depositGuards_unseen hzero] at hfirst
  obtain ⟨usdc, hguards, -⟩ := hfirst
  exact deposit_ne_concentration hguards

end Return

/-- Concentration is measured on live exposure exactly while nobody who paid in has left and nobody
paid in more than the pool is worth. -/
theorem live_exposure_iff {h : Host W} {now : ℕ} {world : W} {cash : Address → Address → ℤ}
    {shareTokens : Address → Share.ShareToken} {admin token share invoiceContract : Address}
    {s : State W} {paid : Address → Address → ℤ}
    (hrun : Reaches (track (exec h) notePaid) (fun _ tx => tx.call.closesRound = false)
      (initialState now world cash shareTokens admin token share invoiceContract, fun _ _ => 0)
      (s, paid)) :
    LiveExposure h s ↔ StillIn s paid := by
  have hpaid : PaidUp (s, paid) :=
    hrun.invariant (paidUp_initial now world cash shareTokens admin token share invoiceContract)
      fun _ _ _ hp hopen hstep => hp.step hopen hstep
  have hexact : ∀ a t, (s.position a t).deposited = paid a t := hpaid.exact
  have hrange : ∀ a t, 0 ≤ (s.position a t).deposited ∧ (s.position a t).deposited < 2 ^ 127 := by
    intro a t
    rw [hexact]
    exact hpaid.range a t
  constructor
  · intro hlive
    refine ⟨fun a t hout => ?_, fun a t hvalue hscaled => ?_⟩
    · rw [← hexact]
      exact hlive.exited a t hout
    · by_cases hwide : toU 128 (s.tt t).poolValue = 0
      · simp [paidBps, hwide, truncU]
      · rw [← hexact] at hscaled ⊢
        exact hlive.concentration a t _
          ((getInvestorConcentration_eq_ok (hrange a t)).2 (.inr ⟨hvalue, hwide, hscaled, rfl⟩))
  · intro hin
    have hzero : ∀ a t, s.Out a t → (s.position a t).deposited = 0 := by
      intro a t hout
      rw [hexact]
      exact hin.out a t hout
    refine ⟨hzero, fun a t bps hbps => ?_, fun _ a t _ _ _ hout hfirst =>
      deposit_not_refused (hzero a t hout) hfirst⟩
    rcases (getInvestorConcentration_eq_ok (hrange a t)).1 hbps with
      ⟨-, rfl⟩ | ⟨hvalue, -, hscaled, rfl⟩
    · exact Nat.zero_le _
    · rw [hexact] at hscaled ⊢
      exact hin.share a t hvalue hscaled

/-- Account 3 pays 1000 into an empty pool. -/
def firstDeposit : List (Tx quietHost) :=
  [⟨[1], self_ne_one, .setMaxInvestorConcentration 1 10000⟩,
    ⟨[3], self_ne_three, .deposit 3 10 1000 none⟩]

theorem live_exposure_first :
    ∃ x : State Unit × (Address → Address → ℤ),
      Reaches (track (exec quietHost) notePaid) (fun _ tx => tx.call.closesRound = false)
        (sampleState, fun _ _ => 0) x ∧
      x.2 3 10 = 1000 ∧ LiveExposure quietHost x.1 := by
  obtain ⟨⟨s, paid⟩, hx, hp⟩ := exists_of_check
    (x := firstDeposit.foldlM (track (exec quietHost) notePaid) (sampleState, fun _ _ => 0))
    (p := fun x => decide (x.2 3 10 = 1000 ∧ x.1.sharesIn 10 3 = 1000 ∧
      (x.1.tt 10).poolValue = 1000)) (by decide)
  obtain ⟨hpaid, hshares, hvalue⟩ := of_decide_eq_true hp
  dsimp only at hpaid hshares hvalue
  have hrun := reaches_of_along .refl
    (show Along _ (fun (_ : State Unit × (Address → Address → ℤ)) (tx : Tx quietHost) =>
      tx.call.closesRound = false) _ firstDeposit by decide) hx
  have hothers : ∀ a t, ¬ (a = 3 ∧ t = 10) → paid a t = 0 := by
    intro a t hkey
    simp only [firstDeposit, List.foldlM_cons, List.foldlM_nil, bind_eq_ok, track_eq_ok,
      pure_eq_ok] at hx
    obtain ⟨⟨s₁, paid₁⟩, ⟨-, hnone⟩, ⟨s₂, paid₂⟩, ⟨-, hdeposit⟩, hend⟩ := hx
    obtain ⟨-, rfl⟩ := Prod.mk.inj hend
    obtain rfl : paid₁ = fun _ _ => 0 := hnone
    rw [show paid₂ = set₂ (fun _ _ => 0) 3 10 _ from hdeposit, set₂_apply, if_neg hkey]
  refine ⟨(s, paid), hrun, hpaid,
    (live_exposure_iff hrun).2 ⟨fun a t hout => ?_, fun a t _ _ => ?_⟩⟩
  · by_contra hne
    obtain ⟨rfl, rfl⟩ := not_not.1 fun hkey => hne (hothers a t hkey)
    have hnone := hout.shares
    omega
  · by_cases hkey : a = 3 ∧ t = 10
    · obtain ⟨rfl, rfl⟩ := hkey
      rw [hpaid, hvalue]
      decide
    · rw [hothers a t hkey]
      simp [paidBps, truncU]

/-- Account 3 leaves with all of its shares, and then the limit is lowered to 70 percent. -/
def departure : List (Tx quietHost) :=
  [⟨[1], self_ne_one, .setMaxInvestorConcentration 1 10000⟩,
    ⟨[5], self_ne_five, .deposit 5 10 500 none⟩, ⟨[3], self_ne_three, .deposit 3 10 1000 none⟩,
    ⟨[3], self_ne_three, .withdraw 3 10 1000⟩,
    ⟨[1], self_ne_one, .setMaxInvestorConcentration 1 7000⟩]

/-- Account 3 is out and still has 1000 deposited, twice the pool value, and its next deposit is
refused where a first one is accepted. -/
theorem departed_still_counted :
    ∃ s, Reaches (exec quietHost) (fun _ tx => tx.call.closesRound = false) sampleState s ∧
      s.Out 3 10 ∧ (s.position 3 10).deposited = 1000 ∧
      getInvestorConcentration s 3 10 = .ok 20000 ∧
      deposit quietHost [3] s 3 10 1000 none = .error (.err .ConcentrationLimitExceeded) ∧
      (∃ s', deposit quietHost [3] (s.unseen 3 10) 3 10 1000 none = .ok s') ∧
      ¬ LiveExposure quietHost s := by
  obtain ⟨s, hs, hp⟩ := exists_of_check (x := execAll quietHost sampleState departure)
    (p := fun s => decide (s.sharesIn 10 3 = 0 ∧ s.queue 10 = [] ∧
        (s.position 3 10).deposited = 1000) &&
      check (getInvestorConcentration s 3 10) (fun bps => decide (bps = 20000)) &&
      fails (deposit quietHost [3] s 3 10 1000 none) (.err .ConcentrationLimitExceeded) &&
      (deposit quietHost [3] (s.unseen 3 10) 3 10 1000 none).isOk) (by decide)
  simp only [Bool.and_eq_true] at hp
  obtain ⟨⟨⟨hfigures, hbps⟩, hrefused⟩, hfirst⟩ := hp
  obtain ⟨hshares, hqueue, hdeposited⟩ := of_decide_eq_true hfigures
  obtain ⟨bps, hconcentration, hbps⟩ := exists_of_check hbps
  have hwrites : ∀ tx ∈ departure, tx.call.writes.contains .rounds = false := by decide
  have hrounds : s.rounds = ∅ :=
    foldlM_invariant (P := fun t => t.rounds = ∅)
      (fun t tx t' htx ht hstep => (exec_kept .rounds (hwrites tx htx) hstep).trans ht) rfl hs
  have hout : s.Out 3 10 := by
    refine ⟨hshares, by simp [hqueue], fun id round hget => ?_⟩
    rw [hrounds] at hget
    cases hget
  refine ⟨s, reaches_of_along .refl (by decide) hs, hout, hdeposited,
    of_decide_eq_true hbps ▸ hconcentration, of_fails hrefused, isOk_iff.1 hfirst, fun hlive => ?_⟩
  have hzero := hlive.exited 3 10 hout
  omega

end Astera.Pool
