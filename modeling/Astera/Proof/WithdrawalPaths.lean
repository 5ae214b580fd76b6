import Astera.Pool.System

/-!
# Two ways to withdraw

`withdraw` asks for the cooldown and the cap and converts at the exchange rate, `request_withdrawal`
asks for available shares and pays the value as it is.  They agree exactly where these checks do.
-/

namespace Astera.Pool

open Fallible Machine

variable {W : Type} {h : Host W} {signers : List Address} {s : State W}
  {investor token share : Address} {shares : ℤ}

/-! ## The checks -/

def State.worthOf (s : State W) (token share : Address) (shares : ℤ) : ℤ :=
  (shares * (s.tt token).poolValue).tdiv (s.supply share)

/-- A value in tokens, at the stored exchange rate. -/
def State.inTokens (s : State W) (token : Address) (worth : ℤ) : Option ℤ := do
  let scaled ← checkedMul worth 10000
  checkedDiv scaled (s.params.exchangeRate token)

/-- The pool holds an amount that can be paid out. -/
def State.CanPay (s : State W) (pool token : Address) (amount : ℤ) : Prop :=
  0 ≤ amount ∧ amount ≤ s.cash token pool

/-- The checks that both ways make. -/
structure Withdrawable (h : Host W) (signers : List Address) (s : State W)
    (investor token share : Address) (shares : ℤ) : Prop where
  signed : investor ∈ signers
  unpaused : s.requireNotPaused = .ok ()
  pos : 0 < shares
  accepted : s.assertAcceptedToken token = .ok ()
  cleared : s.requireComplianceCleared h investor = .ok ()
  registered : s.shareToken token = some share
  held : shares ≤ s.shares share investor
  supply_pos : 0 < s.supply share
  scaled : InI128 (shares * (s.tt token).poolValue)
  worth : InI128 (s.worthOf token share shares)
  liquid : InI128 ((s.tt token).poolValue - (s.tt token).totalDeployed)
  burns : ∃ s', s.burn h signers share investor shares = .ok s'
  left : InI128 ((s.tt token).poolValue - s.worthOf token share shares)

/-- The checks of `withdraw` alone, for shares of some worth. -/
def PassesWithdraw (h : Host W) (s : State W) (investor token : Address) (worth : ℤ) : Prop :=
  s.requireCooldown investor token = .ok () ∧
    s.requireWithdrawalCap investor (s.tt token).poolValue worth = .ok () ∧
    ∃ amount ∈ s.inTokens token worth, s.CanPay h.self token amount

/-- The checks of `request_withdrawal` alone. -/
def PassesRequest (h : Host W) (s : State W) (investor token : Address) (worth shares : ℤ) : Prop :=
  shares ≤ (s.position investor token).available ∧ s.CanPay h.self token worth

/-- Either both ways accept the shares, and the exchange rate leaves their worth as it is, or
neither does. -/
def PathsMatch (h : Host W) (s : State W) (investor token : Address) (worth shares : ℤ) : Prop :=
  (PassesWithdraw h s investor token worth ∧ PassesRequest h s investor token worth shares ∧
      s.inTokens token worth = some worth) ∨
    (¬ PassesWithdraw h s investor token worth ∧ ¬ PassesRequest h s investor token worth shares)

instance (pool token : Address) (amount : ℤ) : Decidable (s.CanPay pool token amount) :=
  inferInstanceAs (Decidable (_ ∧ _))

instance (worth : ℤ) : Decidable (PassesWithdraw h s investor token worth) :=
  inferInstanceAs (Decidable (_ ∧ _ ∧ ∃ amount ∈ s.inTokens token worth, _))

instance (worth : ℤ) : Decidable (PassesRequest h s investor token worth shares) :=
  inferInstanceAs (Decidable (_ ∧ _))

instance (worth : ℤ) : Decidable (PathsMatch h s investor token worth shares) :=
  inferInstanceAs (Decidable (_ ∨ _))

theorem takeAvailable (s : State W) (investor token : Address) (hpos : 0 < shares) : ∃ position,
    s.updateInvestorAvailable investor token (-shares) =
      .ok { s with position := set₂ s.position investor token position } := by
  unfold State.updateInvestorAvailable
  dsimp only
  rw [if_neg (by omega)]
  exact ⟨_, rfl⟩

theorem processImmediateWithdrawal_ok_iff {amount : ℤ} {tt : PoolTokenTotals} :
    (∃ s', processImmediateWithdrawal h signers s investor token shares amount tt share = .ok s') ↔
      (∃ s', s.burn h signers share investor shares = .ok s') ∧ InI128 (tt.poolValue - amount) ∧
        s.CanPay h.self token amount := by
  unfold processImmediateWithdrawal
  simp only [bind_eq_ok, okOr_eq_ok, checkedSub_eq_some, State.transfer_eq_ok]
  constructor
  · rintro ⟨s', s₁, hburn, s₂, hupd, _, ⟨rfl, hleft⟩, hnn, hcash, -⟩
    obtain ⟨-, -, st, -, rfl⟩ := State.burn_eq_ok hburn
    obtain ⟨position, -, -, -, rfl⟩ := State.updateInvestorAvailable_eq_ok hupd
    exact ⟨⟨_, hburn⟩, hleft, hnn, hcash⟩
  · rintro ⟨⟨s₁, hburn⟩, hleft, hnn, hcash⟩
    obtain ⟨hpos, -, st, -, rfl⟩ := State.burn_eq_ok hburn
    obtain ⟨position, hupd⟩ := takeAvailable { s with shareTokens := st } investor token hpos
    exact ⟨_, _, hburn, _, hupd, _, ⟨rfl, hleft⟩, hnn, hcash, rfl⟩

theorem requestWithdrawal_ok_iff (hshare : s.shareToken token = some share)
    (hnew : ∀ r ∈ s.queue token, r.investor ≠ investor)
    (hliquid : s.worthOf token share shares ≤ (s.tt token).poolValue - (s.tt token).totalDeployed) :
    (∃ r, requestWithdrawal h signers s investor token shares = .ok r) ↔
      Withdrawable h signers s investor token share shares ∧
        PassesRequest h s investor token (s.worthOf token share shares) shares := by
  have hpaid : (shares * (s.tt token).poolValue).tdiv (s.supply share) ≤
      (s.tt token).poolValue - (s.tt token).totalDeployed := hliquid
  unfold requestWithdrawal withdrawalAmount availableLiquidity
  simp only [bind_eq_ok, State.shareTokenOf, okOr_eq_ok, checkedMul_eq_some, checkedDiv_eq_some,
    checkedSub_eq_some, require_eq_ok, exists_unit, requireAuth_eq_ok]
  constructor
  · rintro ⟨r, hsigned, hpaused, hpos, haccepted, hcleared, -, havail, share', hshare', hheld, -,
      _, ⟨hsupply, _, ⟨rfl, hscaled⟩, -, rfl, hworth⟩, _, ⟨rfl, hin⟩, hr⟩
    obtain rfl : share = share' := Option.some.inj (hshare.symm.trans hshare')
    rw [if_pos hpaid] at hr
    simp only [bind_eq_ok, pure_eq_ok] at hr
    obtain ⟨s', hs', rfl⟩ := hr
    obtain ⟨hburn, hleft, hpay⟩ := processImmediateWithdrawal_ok_iff.1 ⟨s', hs'⟩
    exact ⟨⟨hsigned, hpaused, hpos, haccepted, hcleared, hshare, hheld, hsupply, hscaled, hworth,
      hin, hburn, hleft⟩, havail, hpay⟩
  · rintro ⟨hw, havail, hpay⟩
    obtain ⟨s', hs'⟩ := processImmediateWithdrawal_ok_iff.2 ⟨hw.burns, hw.left, hpay⟩
    refine ⟨(s', 0), hw.signed, hw.unpaused, hw.pos, hw.accepted, hw.cleared, hnew, havail, share,
      hshare, hw.held, hw.supply_pos, _, ⟨hw.supply_pos, _, ⟨rfl, hw.scaled⟩, hw.supply_pos.ne',
      rfl, hw.worth⟩, _, ⟨rfl, hw.liquid⟩, ?_⟩
    rw [if_pos hpaid]
    simp only [bind_eq_ok, pure_eq_ok]
    exact ⟨s', hs', rfl⟩

theorem withdraw_ok_iff (hshare : s.shareToken token = some share)
    (hliquid : s.worthOf token share shares ≤ (s.tt token).poolValue - (s.tt token).totalDeployed) :
    (∃ s', withdraw h signers s investor token shares = .ok s') ↔
      Withdrawable h signers s investor token share shares ∧
        PassesWithdraw h s investor token (s.worthOf token share shares) := by
  unfold withdraw
  simp only [bind_eq_ok, State.shareTokenOf, okOr_eq_ok, checkedMul_eq_some, checkedDiv_eq_some,
    checkedSub_eq_some, require_eq_ok, exists_unit, requireAuth_eq_ok, State.transfer_eq_ok]
  constructor
  · rintro ⟨s', hsigned, hpaused, hpos, haccepted, hcleared, hcooldown, share', hshare', hheld,
      _, ⟨rfl, hscaled⟩, _, ⟨hne, rfl, hworth⟩, _, ⟨rfl, htimes⟩, amount, ⟨hrate, rfl, hamount⟩,
      _, ⟨rfl, hin⟩, -, hcap, s₁, hburn, s₂, hupd, _, ⟨rfl, hleft⟩, -, hnn, hcash, -⟩
    obtain rfl : share = share' := Option.some.inj (hshare.symm.trans hshare')
    obtain ⟨-, -, st, hmoved, rfl⟩ := State.burn_eq_ok hburn
    obtain ⟨position, -, -, -, rfl⟩ := State.updateInvestorAvailable_eq_ok hupd
    have hsupply : 0 < s.supply share := by
      have hle : s.shares share investor ≤ s.supply share :=
        (s.shareTokens share).balance_le_totalSupply investor
      omega
    refine ⟨⟨hsigned, hpaused, hpos, haccepted, hcleared, hshare, hheld, hsupply, hscaled, hworth,
      hin, ⟨_, hburn⟩, hleft⟩, hcooldown, hcap, _, ?_, hnn, hcash⟩
    simp only [State.inTokens, Option.mem_def, Option.bind_eq_bind, Option.bind_eq_some_iff,
      checkedMul_eq_some, checkedDiv_eq_some]
    exact ⟨_, ⟨rfl, htimes⟩, hrate, rfl, hamount⟩
  · rintro ⟨hw, hcooldown, hcap, amount, htokens, hnn, hcash⟩
    simp only [State.inTokens, Option.mem_def, Option.bind_eq_bind, Option.bind_eq_some_iff,
      checkedMul_eq_some, checkedDiv_eq_some] at htokens
    obtain ⟨_, ⟨rfl, htimes⟩, hrate, rfl, hamount⟩ := htokens
    obtain ⟨s₁, hburn⟩ := hw.burns
    obtain ⟨-, -, st, -, rfl⟩ := State.burn_eq_ok hburn
    obtain ⟨position, hupd⟩ := takeAvailable { s with shareTokens := st } investor token hw.pos
    exact ⟨_, hw.signed, hw.unpaused, hw.pos, hw.accepted, hw.cleared, hcooldown, share, hshare,
      hw.held, _, ⟨rfl, hw.scaled⟩, _, ⟨hw.supply_pos.ne', rfl, hw.worth⟩, _, ⟨rfl, htimes⟩, _,
      ⟨hrate, rfl, hamount⟩, _, ⟨rfl, hw.liquid⟩, hliquid, hcap, _, hburn, _, hupd, _,
      ⟨rfl, hw.left⟩, hcash, hnn, hcash, rfl⟩

/-- What a withdrawal that pays `amount` leaves: the shares burned, their worth taken off the pool
value, and the amount paid. -/
structure PaidOut (pool investor token share : Address) (shares amount : ℤ) (s s' : State W) :
    Prop where
  balances : ∀ sh a, s'.shares sh a =
    s.shares sh a + if sh = share ∧ a = investor then -shares else 0
  poolValue : (s'.tt token).poolValue = (s.tt token).poolValue - s.worthOf token share shares
  cash : s'.cash = State.moveCash s.cash token pool investor amount

theorem paidOut_withdraw {s' : State W} (hshare : s.shareToken token = some share)
    (hw : withdraw h signers s investor token shares = .ok s') {amount : ℤ}
    (hamount : s.inTokens token (s.worthOf token share shares) = some amount) :
    PaidOut h.self investor token share shares amount s s' := by
  obtain ⟨share', usdc, amount', st, position, lastWithdrawal, hshare', -, -, husdc, rfl, -, -, -,
    hmoved, -, rfl⟩ := withdraw_eq_ok hw
  obtain rfl : share = share' := Option.some.inj (hshare.symm.trans hshare')
  obtain rfl : usdc = s.worthOf token share shares := husdc
  simp only [State.inTokens, Option.bind_eq_bind, Option.bind_eq_some_iff, checkedMul_eq_some,
    checkedDiv_eq_some] at hamount
  obtain ⟨_, ⟨rfl, -⟩, -, rfl, -⟩ := hamount
  refine ⟨hmoved.balance, ?_, rfl⟩
  simp [State.tt]

theorem paidOut_requestWithdrawal {r : State W × ℕ} (hshare : s.shareToken token = some share)
    (hliquid : s.worthOf token share shares ≤ (s.tt token).poolValue - (s.tt token).totalDeployed)
    (hr : requestWithdrawal h signers s investor token shares = .ok r) :
    PaidOut h.self investor token share shares (s.worthOf token share shares) s r.1 := by
  have hpaid : (shares * (s.tt token).poolValue).tdiv (s.supply share) ≤
      (s.tt token).poolValue - (s.tt token).totalDeployed := hliquid
  unfold requestWithdrawal withdrawalAmount availableLiquidity at hr
  simp only [bind_eq_ok, State.shareTokenOf, okOr_eq_ok, checkedMul_eq_some, checkedDiv_eq_some,
    checkedSub_eq_some, require_eq_ok, exists_unit] at hr
  obtain ⟨-, -, -, -, -, -, -, share', hshare', -, -, _, ⟨-, _, ⟨rfl, -⟩, -, rfl, -⟩, _,
    ⟨rfl, -⟩, hr⟩ := hr
  obtain rfl : share = share' := Option.some.inj (hshare.symm.trans hshare')
  rw [if_pos hpaid] at hr
  simp only [bind_eq_ok, pure_eq_ok] at hr
  obtain ⟨s', hs', rfl⟩ := hr
  obtain ⟨st, position, hmoved, -, -, -, rfl⟩ := processImmediateWithdrawal_eq_ok hs'
  refine ⟨hmoved.balance, ?_, rfl⟩
  simp [State.tt, State.worthOf]

/-- Both calls fail, or both succeed and leave the same shares, pool value and token balances. -/
def Agree (token : Address) (x y : Res (State W)) : Prop :=
  ((∃ s', x = .ok s') ↔ ∃ s', y = .ok s') ∧ ∀ s₁ s₂, x = .ok s₁ → y = .ok s₂ →
    s₁.shares = s₂.shares ∧ (s₁.tt token).poolValue = (s₂.tt token).poolValue ∧ s₁.cash = s₂.cash

theorem agree_of_fail {x y : Res (State W)} (hx : ¬ ∃ s', x = .ok s') (hy : ¬ ∃ s', y = .ok s') :
    Agree token x y :=
  ⟨iff_of_false hx hy, fun s₁ _ h₁ => absurd ⟨s₁, h₁⟩ hx⟩

theorem moveCash_inj {cash : Address → Address → ℤ} {pool : Address} {amount amount' : ℤ}
    (hne : investor ≠ pool) (heq : State.moveCash cash token pool investor amount =
      State.moveCash cash token pool investor amount') : amount = amount' := by
  have hat := congrFun (congrFun heq token) investor
  simp only [State.moveCash_apply, hne, and_false, if_false, and_self, if_true] at hat
  omega

/-- With enough liquidity and no request in the queue, the two ways to withdraw agree exactly when a
check that both make fails, or the checks that each makes alone come out alike. -/
theorem withdrawals_agree_iff (hself : h.self ∉ signers)
    (hnew : ∀ r ∈ s.queue token, r.investor ≠ investor)
    (hliquid : ∀ share ∈ s.shareToken token,
      s.worthOf token share shares ≤ (s.tt token).poolValue - (s.tt token).totalDeployed) :
    Agree token (exec h s ⟨signers, hself, .withdraw investor token shares⟩)
        (exec h s ⟨signers, hself, .requestWithdrawal investor token shares⟩) ↔
      ∀ share, Withdrawable h signers s investor token share shares →
        PathsMatch h s investor token (s.worthOf token share shares) shares := by
  have hrequest : (∃ s', exec h s ⟨signers, hself, .requestWithdrawal investor token shares⟩ =
      .ok s') ↔ ∃ r, requestWithdrawal h signers s investor token shares = .ok r := by
    change (∃ s', (requestWithdrawal h signers s investor token shares).map (·.1) = .ok s') ↔ _
    simp only [map_eq_ok]
    constructor
    · rintro ⟨_, r, hr, -⟩
      exact ⟨r, hr⟩
    · rintro ⟨r, hr⟩
      exact ⟨r.1, r, hr, rfl⟩
  cases hshare : s.shareToken token with
  | none =>
    refine iff_of_true (agree_of_fail ?_ ?_) fun share hw => ?_
    · rintro ⟨s', hs'⟩
      obtain ⟨share, _, _, _, _, _, hsome, -⟩ := withdraw_eq_ok hs'
      rw [hshare] at hsome
      cases hsome
    · rw [hrequest]
      rintro ⟨r, hr⟩
      obtain ⟨share, _, hsome, -⟩ := requestWithdrawal_eq_ok hr
      rw [hshare] at hsome
      cases hsome
    · have hsome := hw.registered
      rw [hshare] at hsome
      cases hsome
  | some share =>
    have hle := hliquid share hshare
    have hwithdraw : (∃ s', exec h s ⟨signers, hself, .withdraw investor token shares⟩ = .ok s') ↔
        Withdrawable h signers s investor token share shares ∧
          PassesWithdraw h s investor token (s.worthOf token share shares) :=
      withdraw_ok_iff hshare hle
    rw [requestWithdrawal_ok_iff hshare hnew hle] at hrequest
    constructor
    · intro hagree share' hw
      obtain rfl : share = share' := Option.some.inj (hshare.symm.trans hw.registered)
      have hboth := hagree.1
      rw [hwithdraw, hrequest] at hboth
      by_cases hpasses : PassesWithdraw h s investor token (s.worthOf token share shares)
      · have hpasses' := (hboth.1 ⟨hw, hpasses⟩).2
        refine .inl ⟨hpasses, hpasses', ?_⟩
        obtain ⟨s₁, h₁⟩ := hwithdraw.2 ⟨hw, hpasses⟩
        obtain ⟨s₂, h₂⟩ := hrequest.2 ⟨hw, hpasses'⟩
        obtain ⟨amount, hamount, -⟩ := hpasses.2.2
        have hpaid := paidOut_withdraw hshare h₁ hamount
        obtain ⟨r, hr, rfl⟩ := (map_eq_ok _ _ _).1 h₂
        have hpaid' := paidOut_requestWithdrawal hshare hle hr
        have hcash := (hagree.2 s₁ r.1 h₁ h₂).2.2
        rw [hpaid.cash, hpaid'.cash] at hcash
        have hother : investor ≠ h.self := fun heq => hself (heq ▸ hw.signed)
        exact moveCash_inj hother hcash ▸ hamount
      · exact .inr ⟨hpasses, fun hpasses' => hpasses (hboth.2 ⟨hw, hpasses'⟩).2⟩
    · intro hmatch
      by_cases hw : Withdrawable h signers s investor token share shares
      · rcases hmatch share hw with ⟨hpasses, hpasses', htokens⟩ | ⟨hfails, hfails'⟩
        · refine ⟨iff_of_true (hwithdraw.2 ⟨hw, hpasses⟩) (hrequest.2 ⟨hw, hpasses'⟩), ?_⟩
          intro s₁ s₂ h₁ h₂
          have hpaid := paidOut_withdraw hshare h₁ htokens
          obtain ⟨r, hr, rfl⟩ := (map_eq_ok _ _ _).1 h₂
          have hpaid' := paidOut_requestWithdrawal hshare hle hr
          refine ⟨?_, hpaid.poolValue.trans hpaid'.poolValue.symm,
            hpaid.cash.trans hpaid'.cash.symm⟩
          funext sh a
          rw [hpaid.balances, hpaid'.balances]
        · exact agree_of_fail (fun h₁ => hfails (hwithdraw.1 h₁).2)
            fun h₂ => hfails' (hrequest.1 h₂).2
      · exact agree_of_fail (fun h₁ => hw (hwithdraw.1 h₁).1) fun h₂ => hw (hrequest.1 h₂).1

/-- The settings of the sample pool, with limits on withdrawals and an exchange rate. -/
def limitedBy (cooldownSecs maxSingleBps rateBps : ℕ) : Params :=
  { sampleState.params with
    config := { sampleState.params.config with
      maxSingleInvestorBps := 10000
      withdrawalCooldownSecs := cooldownSecs
      maxSingleWithdrawalBps := maxSingleBps }
    storedExchangeRate := Function.update sampleState.params.storedExchangeRate 10 (some rateBps) }

/-- An investor deposits, and the settings change. -/
def depositThen (params : Params) : List (Tx quietHost) :=
  [⟨[1], self_ne_one, .setMaxInvestorConcentration 1 10000⟩,
    ⟨[3], self_ne_three, .deposit 3 10 1000 none⟩,
    ⟨[], self_notMem_nil, .advance 10000⟩,
    ⟨[1], self_ne_one, .setParams params⟩]

theorem withdrawals_agree_iff_unlimited :
    ∃ s, execAll quietHost sampleState (depositThen (limitedBy 0 10000 10000)) = .ok s ∧
      Agree 10 (exec quietHost s ⟨[3], by decide, .withdraw 3 10 500⟩)
        (exec quietHost s ⟨[3], by decide, .requestWithdrawal 3 10 500⟩) ∧
      ∃ s', exec quietHost s ⟨[3], by decide, .withdraw 3 10 500⟩ = .ok s' ∧
        s'.cash 10 3 = s.cash 10 3 + 500 := by
  obtain ⟨s, hs, hp⟩ := exists_of_check
    (x := execAll quietHost sampleState (depositThen (limitedBy 0 10000 10000)))
    (p := fun s => check (exec quietHost s ⟨[3], by decide, .withdraw 3 10 500⟩) fun s' =>
      decide (s.queue 10 = [] ∧ s.shareToken 10 = some 20 ∧
        s.worthOf 10 20 500 ≤ (s.tt 10).poolValue - (s.tt 10).totalDeployed ∧
        PathsMatch quietHost s 3 10 (s.worthOf 10 20 500) 500 ∧
        s'.cash 10 3 = s.cash 10 3 + 500)) (by decide)
  obtain ⟨s', hs', hp⟩ := exists_of_check hp
  obtain ⟨hqueue, hshare, hliquid, hmatch, hcash⟩ := of_decide_eq_true hp
  refine ⟨s, hs, (withdrawals_agree_iff (by decide) ?_ ?_).2 ?_, s', hs', hcash⟩
  · rw [hqueue]
    exact fun r hr => absurd hr List.not_mem_nil
  · intro share hshare'
    obtain rfl : 20 = share := Option.some.inj (hshare.symm.trans hshare')
    exact hliquid
  · intro share hw
    obtain rfl : 20 = share := Option.some.inj (hshare.symm.trans hw.registered)
    exact hmatch

/-- In the cooldown, and above the cap, `request_withdrawal` pays at once what `withdraw` refuses;
and away from par it pays another number of tokens. -/
theorem request_pays_beyond_limits :
    (∃ s s₁ s', execAll quietHost sampleState (depositThen (limitedBy 3600 10000 10000)) = .ok s ∧
      exec quietHost s ⟨[3], by decide, .withdraw 3 10 100⟩ = .ok s₁ ∧
      (∀ r ∈ s₁.queue 10, r.investor ≠ 3) ∧ s₁.params.config.admin ≠ 3 ∧
      s₁.worthOf 10 20 100 ≤ (s₁.tt 10).poolValue - (s₁.tt 10).totalDeployed ∧
      exec quietHost s₁ ⟨[3], by decide, .withdraw 3 10 100⟩ =
        .error (.err .WithdrawalCooldownActive) ∧
      exec quietHost s₁ ⟨[3], by decide, .requestWithdrawal 3 10 100⟩ = .ok s' ∧
      s'.cash 10 3 = s₁.cash 10 3 + 100) ∧
    (∃ s s', execAll quietHost sampleState (depositThen (limitedBy 0 1000 10000)) = .ok s ∧
      (∀ r ∈ s.queue 10, r.investor ≠ 3) ∧ s.params.config.admin ≠ 3 ∧
      s.worthOf 10 20 500 ≤ (s.tt 10).poolValue - (s.tt 10).totalDeployed ∧
      exec quietHost s ⟨[3], by decide, .withdraw 3 10 500⟩ =
        .error (.err .WithdrawalExceedsLimit) ∧
      exec quietHost s ⟨[3], by decide, .requestWithdrawal 3 10 500⟩ = .ok s' ∧
      s'.cash 10 3 = s.cash 10 3 + 500) ∧
    (∃ s s₁ s₂, execAll quietHost sampleState (depositThen (limitedBy 0 10000 12500)) = .ok s ∧
      (∀ r ∈ s.queue 10, r.investor ≠ 3) ∧ s.params.config.admin ≠ 3 ∧
      s.worthOf 10 20 500 ≤ (s.tt 10).poolValue - (s.tt 10).totalDeployed ∧
      exec quietHost s ⟨[3], by decide, .withdraw 3 10 500⟩ = .ok s₁ ∧
      exec quietHost s ⟨[3], by decide, .requestWithdrawal 3 10 500⟩ = .ok s₂ ∧
      s₁.cash 10 3 = s.cash 10 3 + 400 ∧ s₂.cash 10 3 = s.cash 10 3 + 500) := by
  refine ⟨?_, ?_, ?_⟩
  · obtain ⟨s, hs, hp⟩ := exists_of_check
      (x := execAll quietHost sampleState (depositThen (limitedBy 3600 10000 10000)))
      (p := fun s => check (exec quietHost s ⟨[3], by decide, .withdraw 3 10 100⟩) fun s₁ =>
        check (exec quietHost s₁ ⟨[3], by decide, .requestWithdrawal 3 10 100⟩) fun s' =>
        fails (exec quietHost s₁ ⟨[3], by decide, .withdraw 3 10 100⟩)
            (.err .WithdrawalCooldownActive) &&
        decide ((∀ r ∈ s₁.queue 10, r.investor ≠ 3) ∧ s₁.params.config.admin ≠ 3 ∧
          s₁.worthOf 10 20 100 ≤ (s₁.tt 10).poolValue - (s₁.tt 10).totalDeployed ∧
          s'.cash 10 3 = s₁.cash 10 3 + 100)) (by decide)
    obtain ⟨s₁, hs₁, hp⟩ := exists_of_check hp
    obtain ⟨s', hs', hp⟩ := exists_of_check hp
    obtain ⟨hfails, hp⟩ := Bool.and_eq_true_iff.1 hp
    obtain ⟨hnew, hadmin, hliquid, hcash⟩ := of_decide_eq_true hp
    exact ⟨s, s₁, s', hs, hs₁, hnew, hadmin, hliquid, of_fails hfails, hs', hcash⟩
  · obtain ⟨s, hs, hp⟩ := exists_of_check
      (x := execAll quietHost sampleState (depositThen (limitedBy 0 1000 10000)))
      (p := fun s =>
        check (exec quietHost s ⟨[3], by decide, .requestWithdrawal 3 10 500⟩) fun s' =>
        fails (exec quietHost s ⟨[3], by decide, .withdraw 3 10 500⟩)
            (.err .WithdrawalExceedsLimit) &&
        decide ((∀ r ∈ s.queue 10, r.investor ≠ 3) ∧ s.params.config.admin ≠ 3 ∧
          s.worthOf 10 20 500 ≤ (s.tt 10).poolValue - (s.tt 10).totalDeployed ∧
          s'.cash 10 3 = s.cash 10 3 + 500)) (by decide)
    obtain ⟨s', hs', hp⟩ := exists_of_check hp
    obtain ⟨hfails, hp⟩ := Bool.and_eq_true_iff.1 hp
    obtain ⟨hnew, hadmin, hliquid, hcash⟩ := of_decide_eq_true hp
    exact ⟨s, s', hs, hnew, hadmin, hliquid, of_fails hfails, hs', hcash⟩
  · obtain ⟨s, hs, hp⟩ := exists_of_check
      (x := execAll quietHost sampleState (depositThen (limitedBy 0 10000 12500)))
      (p := fun s => check (exec quietHost s ⟨[3], by decide, .withdraw 3 10 500⟩) fun s₁ =>
        check (exec quietHost s ⟨[3], by decide, .requestWithdrawal 3 10 500⟩) fun s₂ =>
        decide ((∀ r ∈ s.queue 10, r.investor ≠ 3) ∧ s.params.config.admin ≠ 3 ∧
          s.worthOf 10 20 500 ≤ (s.tt 10).poolValue - (s.tt 10).totalDeployed ∧
          s₁.cash 10 3 = s.cash 10 3 + 400 ∧ s₂.cash 10 3 = s.cash 10 3 + 500))
      (by decide)
    obtain ⟨s₁, hs₁, hp⟩ := exists_of_check hp
    obtain ⟨s₂, hs₂, hp⟩ := exists_of_check hp
    obtain ⟨hnew, hadmin, hliquid, hcash, hcash'⟩ := of_decide_eq_true hp
    exact ⟨s, s₁, s₂, hs, hnew, hadmin, hliquid, hs₁, hs₂, hcash, hcash'⟩

end Astera.Pool
