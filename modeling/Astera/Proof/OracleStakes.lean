import Astera.Oracle.Registry

/-!
# Backing of the oracle stakes

The registry holds the stakes of its oracles, what it kept of slashes, and what holders sent it on
their own, less what was withdrawn.  The books of a run add these up.
-/

namespace Astera.Oracle

open Fallible Machine Transition

variable {W : Type} {h : Host W} {s s' : State W}

def State.staked (s : State W) : ℤ := s.oracles.total fun _ info => info.stakeAmount

/-- What passed through the registry besides the stakes. -/
structure Books where
  /-- Slashed amounts that stayed in the registry. -/
  slashed : ℤ := 0
  /-- What the registry had at the start, and what holders sent it outside its entrypoints. -/
  received : ℤ := 0
  withdrawn : ℤ := 0
  deriving DecidableEq

/-- What a slash leaves in the registry. -/
def State.keeps (h : Host W) (s : State W) (operator : Address) (bps : ℕ) : ℤ :=
  if s.settings.config.treasury = none ∨ s.settings.config.treasury = some h.self then
    s.oracles.part (fun _ info => slashCut info.stakeAmount bps) operator
  else 0

def noteBooks (h : Host W) (s : State W) (tx : Tx h) (_ : State W) (books : Books) : Books :=
  match tx.call with
  | .slashOracle _ operator bps _ _ | .slashOracleViaAc _ operator bps _ _ =>
    { books with slashed := books.slashed + s.keeps h operator bps }
  | .withdrawSlashedFunds _ recipient amount =>
    { books with withdrawn := books.withdrawn + if recipient = h.self then 0 else amount }
  | .stakeTransfer _ receiver amount =>
    { books with received := books.received + if receiver = h.self then amount else 0 }
  | _ => books

/-- The recipient and the amount of a withdrawal of slashed funds. -/
def Call.withdrawal : Call W → Option (Address × ℤ)
  | .withdrawSlashedFunds _ recipient amount => some (recipient, amount)
  | _ => none

/-- A withdrawal takes no more than the registry holds beyond the stakes. -/
def Covered (h : Host W) (x : State W × Books) (tx : Tx h) : Prop :=
  ∀ withdrawal ∈ tx.call.withdrawal,
    withdrawal.1 ≠ h.self → withdrawal.2 ≤ x.1.balances h.self - x.1.staked

instance (h : Host W) (x : State W × Books) (tx : Tx h) : Decidable (Covered h x tx) :=
  inferInstanceAs (Decidable (∀ withdrawal ∈ _, _ → _))

/-- The balance of the registry is explained by the books, and covers the stakes. -/
structure Backed (h : Host W) (x : State W × Books) : Prop where
  sound : Sound x.1
  balance : x.1.balances h.self =
    x.1.staked + x.2.slashed + x.2.received - x.2.withdrawn
  covered : x.2.withdrawn ≤ x.2.slashed + x.2.received

/-! ## Steps -/

theorem staked_set (s : State W) {operator : Address} {info : OracleInfo}
    (hget : s.oracles.get operator = some info) (info' : OracleInfo) :
    (s.oracles.set operator info').total (fun _ info => info.stakeAmount) =
      s.staked - info.stakeAmount + info'.stakeAmount := by
  rw [Store.total_set, Store.part_of_get hget]
  rfl

theorem staked_registered {operator : Address} (stakeAmount : ℤ)
    (hnew : s.oracles.get operator = none) :
    (s.registered h operator stakeAmount).staked = s.staked + stakeAmount := by
  show Store.total _ (s.oracles.set operator _) = _
  rw [Store.total_set, Store.part_of_get_none hnew, sub_zero]
  rfl

theorem staked_departed {operator : Address} {info : OracleInfo}
    (hget : s.oracles.get operator = some info) (stakeAmount : ℤ) :
    (s.departed h operator stakeAmount).staked = s.staked - info.stakeAmount := by
  show Store.total _ (s.oracles.remove operator) = _
  rw [Store.total_remove, Store.part_of_get hget]
  rfl

theorem balance_registered {operator : Address} (stakeAmount : ℤ) (hne : h.self ≠ operator) :
    (s.registered h operator stakeAmount).balances h.self = s.balances h.self + stakeAmount :=
  Ledger.move_receiver _ _ hne

theorem balance_departed {operator : Address} (stakeAmount : ℤ) (hne : h.self ≠ operator) :
    (s.departed h operator stakeAmount).balances h.self = s.balances h.self - stakeAmount :=
  Ledger.move_sender _ _ hne

theorem balance_moved {sender : Address} (receiver : Address) (amount : ℤ) (hne : h.self ≠ sender) :
    (s.moved sender receiver amount).balances h.self =
      s.balances h.self + if h.self = receiver then amount else 0 :=
  Ledger.move_of_ne _ _ _ hne

theorem balance_withdrawn (recipient : Address) (amount : ℤ) :
    (s.moved h.self recipient amount).balances h.self =
      s.balances h.self - if recipient = h.self then 0 else amount := by
  show Ledger.move s.balances h.self recipient amount h.self = _
  by_cases hr : recipient = h.self
  · rw [hr, if_pos rfl, Ledger.move_apply, if_pos rfl, sub_add_cancel, sub_zero]
  · rw [if_neg hr, Ledger.move_sender _ _ (Ne.symm hr)]

theorem backed_slashed {books : Books} {operator : Address} {info : OracleInfo} {bps : ℕ}
    (hbacked : Backed h (s, books)) (hsound : Sound (s.slashed h operator info bps))
    (hget : s.oracles.get operator = some info) (hbps : bps ≤ 10000) :
    Backed h (s.slashed h operator info bps,
      { books with slashed := books.slashed + s.keeps h operator bps }) := by
  have hcut := (slashCut_bounds (hbacked.sound.stake operator info hget) hbps).1
  have hstaked : (s.slashed h operator info bps).staked =
      s.staked - slashCut info.stakeAmount bps := by
    show Store.total _ (s.oracles.set operator _) = _
    rw [staked_set s hget]
    show s.staked - info.stakeAmount + (info.stakeAmount - slashCut info.stakeAmount bps) = _
    ring
  have hbalance : (s.slashed h operator info bps).balances h.self =
      s.balances h.self - slashCut info.stakeAmount bps + s.keeps h operator bps := by
    unfold State.slashed State.keeps
    cases htreasury : s.settings.config.treasury with
    | none => simp [Store.part_of_get hget]
    | some treasury =>
      by_cases hself : treasury = h.self
      · simp [Store.part_of_get hget, Ledger.move_apply, hself]
      · simp [Ledger.move_apply, hself, Ne.symm hself]
  have hkeeps : 0 ≤ s.keeps h operator bps := by
    unfold State.keeps
    split_ifs
    · rw [Store.part_of_get hget]
      exact hcut
    · exact le_rfl
  have hold := hbacked.balance
  have hcovered := hbacked.covered
  dsimp only at hold hcovered
  refine ⟨hsound, ?_, ?_⟩
  · dsimp only
    rw [hbalance, hstaked, hold]
    ring
  · dsimp only
    omega

theorem backed_step {x y : State W × Books} {tx : Tx h} (hx : Backed h x) (hok : Covered h x tx)
    (hstep : track (exec h) (noteBooks h) x tx = .ok y) : Backed h y := by
  obtain ⟨s, books⟩ := x
  obtain ⟨s', books'⟩ := y
  rw [track_eq_ok] at hstep
  obtain ⟨hexec, hbooks⟩ := hstep
  dsimp only at hexec hbooks
  have hsound : Sound s' := exec_sound hx.sound hexec
  have hbalance : s.balances h.self = s.staked + books.slashed + books.received - books.withdrawn :=
    hx.balance
  have hcovered : books.withdrawn ≤ books.slashed + books.received := hx.covered
  -- a call that moves no stake and no token of the registry
  have hquiet : s'.balances = s.balances → s'.staked = s.staked → books' = books →
      Backed h (s', books') := by
    intro hb hst hbk
    subst hbk
    refine ⟨hsound, ?_, hcovered⟩
    dsimp only
    rw [hb, hst, hbalance]
  cases exec_effect hexec with
  | @registered operator stakeAmount hcall hauth hmin hnew =>
    simp only [noteBooks, hcall] at hbooks
    subst hbooks
    refine ⟨hsound, ?_, hcovered⟩
    dsimp only
    rw [balance_registered stakeAmount (tx.self_ne hauth), staked_registered stakeAmount hnew,
      hbalance]
    ring
  | @requested operator info hcall hget =>
    simp only [noteBooks, hcall] at hbooks
    refine hquiet rfl ?_ hbooks
    show Store.total _ (s.oracles.set operator _) = _
    rw [staked_set s hget]
    exact sub_add_cancel _ _
  | @departed operator info requestedAt hcall hauth hget =>
    simp only [noteBooks, hcall] at hbooks
    subst hbooks
    refine ⟨hsound, ?_, hcovered⟩
    dsimp only
    rw [balance_departed info.stakeAmount (tx.self_ne hauth), staked_departed hget, hbalance]
    ring
  | @slashed operator info bps roundId evidence hcall hget hpos hbps =>
    have hnote : books' = { books with slashed := books.slashed + s.keeps h operator bps } := by
      obtain ⟨caller, hcall | hcall⟩ := hcall <;> simpa only [noteBooks, hcall] using hbooks
    rw [hnote]
    exact backed_slashed hx hsound hget hbps
  | @withdrew admin recipient amount hcall htreasury hpos hle =>
    simp only [noteBooks, hcall] at hbooks
    have hamount : recipient ≠ h.self → amount ≤ s.balances h.self - s.staked :=
      hok (recipient, amount) (by rw [hcall]; rfl)
    subst hbooks
    refine ⟨hsound, ?_, ?_⟩
    · dsimp only
      rw [balance_withdrawn, hbalance]
      show _ = s.staked + _ + _ - _
      ring
    · dsimp only
      split_ifs with hr
      · omega
      · have hrest := hamount hr
        omega
  | @transferred sender receiver amount hcall hauth hnn hle =>
    simp only [noteBooks, hcall] at hbooks
    subst hbooks
    refine ⟨hsound, ?_, ?_⟩
    · dsimp only
      rw [balance_moved receiver amount (tx.self_ne hauth), hbalance]
      simp only [eq_comm (a := h.self)]
      show _ = s.staked + _ + _ - _
      ring
    · dsimp only
      split_ifs <;> omega
  | @counted oracle invoiceId _ info _ hcall hvotes =>
    obtain ⟨horacles, -, -, -, hbalances, -⟩ := credited_fields s oracle info invoiceId
    simp only [noteBooks, hcall] at hbooks
    refine hquiet hbalances ?_ hbooks
    show Store.total _ (s.credited oracle info invoiceId).oracles = _
    rw [horacles, staked_set s hvotes.info_get]
    exact sub_add_cancel _ _
  | @decided oracle invoiceId _ _ info _ _ hcall hvotes =>
    obtain ⟨horacles, -, -, -, hbalances, -⟩ := credited_fields s oracle info invoiceId
    simp only [noteBooks, hcall] at hbooks
    refine hquiet hbalances ?_ hbooks
    show Store.total _ (s.credited oracle info invoiceId).oracles = _
    rw [horacles, staked_set s hvotes.info_get]
    exact sub_add_cancel _ _
  | resolved hcall =>
    refine hquiet rfl rfl ?_
    obtain ⟨caller, hcall | hcall⟩ := hcall <;> simpa only [noteBooks, hcall] using hbooks
  | opened hcall | expired hcall | configured hcall | advanced hcall | elsewhere hcall =>
    simp only [noteBooks, hcall] at hbooks
    exact hquiet rfl rfl hbooks

/-- In every run in which each withdrawal of slashed funds takes no more than the registry holds
beyond the stakes, the registry's balance covers the stakes, the withdrawals never exceed what was
slashed and what else came in, and every oracle whose cooldown is over gets its stake. -/
theorem stakes_backed {now : ℕ} {world : W} {balances : Address → ℤ} {admin stakeToken : Address}
    {minStake : ℤ} {start : State W}
    (hinit : initializeRegistry now world balances admin stakeToken minStake = .ok start)
    (hnn : 0 ≤ balances h.self) {s : State W} {books : Books}
    (hrun : Reaches (track (exec h) (noteBooks h)) (Covered h)
      (start, { received := balances h.self }) (s, books)) :
    s.staked ≤ s.balances h.self ∧ books.withdrawn ≤ books.slashed + books.received ∧
      ∀ signers operator info requestedAt, operator ∈ signers → s.settings.paused = false →
        s.oracles.get operator = some info → info.deregisterRequestedAt = some requestedAt →
        requestedAt + s.settings.config.deregisterCooldownSecs ≤ s.now →
        deregisterOracle h signers s operator = .ok (s.departed h operator info.stakeAmount) := by
  have hbacked : Backed h (s, books) := by
    refine hrun.invariant ⟨sound_initial hinit, ?_, ?_⟩ fun _ _ _ => backed_step
    · obtain ⟨-, rfl⟩ := initializeRegistry_eq_ok.1 hinit
      simp [State.staked]
    · exact (zero_add (balances h.self)).symm ▸ hnn
  have hbalance : s.balances h.self = s.staked + books.slashed + books.received - books.withdrawn :=
    hbacked.balance
  have hcovered : books.withdrawn ≤ books.slashed + books.received := hbacked.covered
  have hstaked : s.staked ≤ s.balances h.self := by omega
  refine ⟨hstaked, hcovered, ?_⟩
  intro signers operator info requestedAt hauth hpaused hget hrequested hcooldown
  have hstake : 0 ≤ info.stakeAmount := hbacked.sound.stake operator info hget
  have hpart : info.stakeAmount ≤ s.staked := by
    have hle := Store.part_le_total hbacked.sound.stake operator
    rwa [Store.part_of_get hget] at hle
  refine deregisterOracle_eq_ok.2 ⟨info, hauth, hpaused, hget, .inr ⟨requestedAt, hrequested, ?_,
    hstake, hpart.trans hstaked, rfl⟩⟩
  exact (Nat.min_le_left _ _).trans hcooldown

/-- Two oracles register, a round is opened, one of them is slashed by half of its stake and asks to
leave, and the slashed amount is withdrawn. -/
def sampleSlash : List (Tx sampleHost) :=
  [⟨[3], self_ne_three, .registerOracle 3 100⟩,
    ⟨[4], self_ne_four, .registerOracle 4 300⟩,
    ⟨[2], self_ne_two, .set (.setInvoiceContract 2 20)⟩,
    ⟨[9], self_ne_nine, .openVerificationRound 9 7 []⟩,
    ⟨[4], self_ne_four, .submitVote 4 7 true⟩,
    ⟨[2], self_ne_two, .slashOracle 2 4 5000 7 [0]⟩,
    ⟨[4], self_ne_four, .deregisterOracle 4⟩,
    ⟨[2], self_ne_two, .withdrawSlashedFunds 2 9 150⟩,
    ⟨[], self_notMem_nil, .advance 604805⟩]

theorem stakes_backed_slashed :
    ∃ x : State Unit × Books,
      Reaches (track (exec sampleHost) (noteBooks sampleHost)) (Covered sampleHost)
        (sampleStart, { received := 0 }) x ∧
      x.1.staked = 250 ∧ x.2 = ⟨150, 0, 150⟩ ∧ 250 ≤ x.1.balances 1 ∧
      ∃ s', deregisterOracle sampleHost [4] x.1 4 = .ok s' := by
  obtain ⟨x, hx, hp⟩ := exists_of_check
    (x := sampleSlash.foldlM (track (exec sampleHost) (noteBooks sampleHost))
      (sampleStart, { received := 0 }))
    (p := fun x => decide (x.1.staked = 250 ∧ x.2 = ⟨150, 0, 150⟩ ∧ x.1.settings.paused = false ∧
      x.1.oracles.get 4 = some ⟨4, 150, 10, false, 1, 1, 5, some 5⟩ ∧ x.1.now = 604805 ∧
      x.1.settings.config.deregisterCooldownSecs = 604800)) (by decide)
  obtain ⟨s, books⟩ := x
  obtain ⟨hstaked, hbooks, hpaused, hget, hnow, hcooldown⟩ := of_decide_eq_true hp
  dsimp only at hstaked hbooks hpaused hget hnow hcooldown
  have hrun := reaches_of_along .refl
    (show Along _ (Covered sampleHost) _ sampleSlash by decide) hx
  obtain ⟨hbacked, -, hleaves⟩ := stakes_backed initializeRegistry_sampleStart (by decide) hrun
  have hleft := hleaves [4] 4 _ 5 (by decide) hpaused hget rfl (by omega)
  exact ⟨(s, books), hrun, hstaked, hbooks, hstaked ▸ hbacked, _, hleft⟩

def drain : List (Tx sampleHost) :=
  [⟨[3], self_ne_three, .registerOracle 3 100⟩,
    ⟨[2], self_ne_two, .withdrawSlashedFunds 2 9 100⟩,
    ⟨[3], self_ne_three, .deregisterOracle 3⟩,
    ⟨[], self_notMem_nil, .advance 604805⟩]

/-- Nothing was slashed, the registry is empty, and the oracle cannot leave with its stake. -/
theorem withdrawal_takes_stake :
    ∃ s : State Unit, Reaches (exec sampleHost) (fun _ _ => True) sampleStart s ∧
      s.staked = 100 ∧ s.balances 1 = 0 ∧
      deregisterOracle sampleHost [3] s 3 = .error .token := by
  obtain ⟨s, hs, hp⟩ := exists_of_check (x := drain.foldlM (exec sampleHost) sampleStart)
    (p := fun s => decide (s.staked = 100 ∧ s.balances 1 = 0 ∧
      fails (deregisterOracle sampleHost [3] s 3) .token = true)) (by decide)
  obtain ⟨hstaked, hbalance, hfails⟩ := of_decide_eq_true hp
  have hrun := reaches_of_along .refl (along_of_forall (fun _ _ => trivial) _ _) hs
  exact ⟨s, hrun, hstaked, hbalance, of_fails hfails⟩

end Astera.Oracle
