import Astera.Pool.Payers
import Astera.Referral.System

/-!
# Referral rewards are backed and capped

The registry promises a reward and the pool pays it in the same call.  So what the registry has
covers what it owes, and each reward is within the cap of the referee and the fee's share.
-/

/-! ## The referrals a call of the pool reports

A call of the pool is a chain of moves that take tokens only from those who pay, of answers of the
neighbours, and of reports to the registry.  What all three keep, the call keeps.
-/

namespace Astera.Pool

open Fallible Machine

variable {W : Type}

def Host.deaf (h : Host W) : Host W := { h with recordActivity := fun _ _ _ _ _ _ => none }

theorem report_cases {h : Host W} {s s' : State W} {referee : Address} {kind : ActivityKind} {fee : ℤ}
    {token : Address} (hr : s.recordReferralActivity h referee kind fee token = .ok s') :
    s' = s ∨ 0 ≤ fee ∧ ∃ registry reward w,
      h.recordActivity s.world registry referee kind fee token = some (reward, w) ∧
      (reward ≤ 0 ∧ s' = { s with world := w } ∨
        0 < reward ∧ s' = { s with
          world := w
          totals := Function.update s.totals token (some { s.tt token with
            protocolRevenue := saturatingSub (s.tt token).protocolRevenue reward })
          cash := State.moveCash s.cash token h.self registry reward }) := by
  unfold State.recordReferralActivity at hr
  split_ifs at hr with hfee
  · exact .inl ((pure_eq_ok _ _).1 hr).symm
  · split at hr
    · exact .inl ((pure_eq_ok _ _).1 hr).symm
    · split at hr
      · exact .inl ((pure_eq_ok _ _).1 hr).symm
      · rename_i registry _ _ reward w hact
        refine .inr ⟨not_lt.1 hfee, registry, reward, w, hact, ?_⟩
        simp only at hr
        split_ifs at hr with hpos
        · exact .inl ⟨hpos, ((pure_eq_ok _ _).1 hr).symm⟩
        · obtain ⟨-, -, rfl⟩ := State.transfer_eq_ok.1 hr
          exact .inr ⟨not_le.1 hpos, rfl⟩

section Chain

variable {h : Host W} {P : State W → Prop} {same : W → W → Prop} {payers : List Address} {s s' : State W}

theorem keep_of_kept (hrefl : ∀ w, same w w)
    (hquiet : ∀ s s', P s → Spares payers s s' → same s.world s'.world → P s')
    (hs : P s) (hspares : Spares payers s s') (hworld : s'.world = s.world) : P s' :=
  hquiet s s' hs hspares (hworld ▸ hrefl s.world)

theorem keep_repay {signers : List Address} {payer : Address} {request : RepaymentRequest}
    (hself : h.self ∈ payers) (hpayer : payer ∈ payers) (hrefl : ∀ w, same w w)
    (hquiet : ∀ s s', P s → Spares payers s s' → same s.world s'.world → P s')
    (hreport : ∀ s s' referee kind fee token, P s →
      s.recordReferralActivity h referee kind fee token = .ok s' → P s')
    (hr : repayInvoiceRequest h signers payer s request = .ok s') (hs : P s) : P s' := by
  obtain ⟨q, s₁, history, -, hb, hr⟩ := repayInvoiceRequest_eq_ok hr
  have hbooked : P { s₁ with rateHistory := history } :=
    keep_of_kept hrefl hquiet hs ((spares_bookRepayment hself hpayer hb).trans (Spares.of_eq rfl))
      (keeps_bookRepayment hb .world (by decide))
  rcases hr with ⟨-, s₂, o, hpass, href⟩ | ⟨-, rfl⟩
  · exact hreport _ _ _ _ _ _ (keep_of_kept hrefl hquiet hbooked (spares_pass hself hpass)
      ((processWithdrawalQueue_frame hpass).keeps .world (by decide))) href
  · exact hbooked

end Chain

theorem exec_chain {h : Host W} {P : State W → Prop} {same : W → W → Prop} {s s' : State W} {tx : Tx h}
    (hrefl : ∀ w, same w w) (hanswers : ∀ w, h.deaf.Keeps (same w))
    (hquiet : ∀ s s', P s → Spares (h.self :: tx.signers) s s' → same s.world s'.world → P s')
    (hreport : ∀ s s' referee kind fee token, P s →
      s.recordReferralActivity h referee kind fee token = .ok s' → P s')
    (hown : ∀ world, tx.call ≠ .neighbours world) (hx : exec h s tx = .ok s') (hs : P s) : P s' := by
  by_cases hwrites : tx.call.writes.contains .world = false
  · exact keep_of_kept hrefl hquiet hs (exec_spares hx) (exec_kept .world hwrites hx)
  obtain ⟨signers, hnot, call⟩ := tx
  have hself : h.self ∈ h.self :: signers := List.mem_cons_self
  -- a call that reports nothing does not see the registry
  have hdeaf : exec h.deaf s ⟨signers, hnot, call⟩ = .ok s' → P s' := fun hx' =>
    hquiet s s' hs (exec_spares hx) (exec_world (hanswers s.world) hown hx' (hrefl s.world))
  cases call <;> first | exact absurd rfl hwrites | skip
  case deposit investor token amount minRate =>
    obtain ⟨usdc, s₁, s₂, o, hauth, hpos, -, heff, href, hq⟩ := deposit_eq_ok hx
    have hpaid : P s₁ := by
      obtain ⟨_, _, _, _, _, -, -, -, -, -, -, -, -, rfl⟩ := depositEffects_eq_ok heff
      exact keep_of_kept hrefl hquiet hs
        (Spares.of_move hpos.le (List.mem_cons_of_mem _ hauth) rfl) rfl
    exact keep_of_kept hrefl hquiet (hreport _ _ _ _ _ _ hpaid href) (spares_pass hself hq)
      ((processWithdrawalQueue_frame hq).keeps .world (by decide))
  case repayInvoice payer request =>
    obtain ⟨hauth, hr⟩ := repayInvoice_eq_ok.1 hx
    exact keep_repay hself (List.mem_cons_of_mem _ hauth) hrefl hquiet hreport hr hs
  case repayInvoicesBatch payer requests =>
    obtain ⟨hauth, hfold⟩ := repayInvoicesBatch_eq_ok hx
    exact foldlM_invariant (P := P)
      (fun _ _ _ _ hs hr =>
        keep_repay hself (List.mem_cons_of_mem _ hauth) hrefl hquiet hreport hr hs) hs hfold
  case neighbours world => exact absurd rfl (hown world)
  case fundInvoice | fundMultipleInvoices | cancelFundedInvoice | finalizeCoFunding => exact hdeaf hx

end Astera.Pool

namespace Astera.Referral

open Fallible Machine Transition
open Pool (ActivityKind)

variable {V : Type} {h : Host V} {s s' : State V} {w : World V}

def sumOn (f : Activity → ℤ) (activities : List Activity) (referee token : Address) : ℤ :=
  ((activities.filter fun a => a.referee = referee ∧ a.token = token).map f).sum

def credited : List Activity → Address → Address → ℤ := sumOn Activity.reward

/-- The share of an activity's fee at its rate, rounded down. -/
def Activity.share (a : Activity) : ℤ := a.fee * a.bps / 10_000

def earned : List Activity → Address → Address → ℤ := sumOn Activity.share

theorem sumOn_cons (f : Activity → ℤ) (a : Activity) (activities : List Activity)
    (referee token : Address) :
    sumOn f (a :: activities) referee token =
      sumOn f activities referee token + if a.referee = referee ∧ a.token = token then f a else 0 := by
  unfold sumOn
  rw [List.filter_cons]
  by_cases hsame : a.referee = referee ∧ a.token = token
  · rw [if_pos (decide_eq_true hsame), if_pos hsame, List.map_cons, List.sum_cons, add_comm]
  · rw [if_neg (by simpa using hsame), if_neg hsame, add_zero]

/-! ## The invariant -/

/-- The registry belongs to the pool, and its rewards are within their caps and their fees. -/
structure Capped (h : Host V) (w : World V) : Prop where
  pool : w.registry.pool = h.pool.self
  pending_nonneg : ∀ key amount, w.registry.pendingReward.get key = some amount → 0 ≤ amount
  caps : ∀ token cap, w.registry.lifetimeRewardCap token = some cap → 0 ≤ cap ∧ cap < 2 ^ 127
  accrued : ∀ referee token,
    w.registry.refereeRewardAccrued (referee, token) = credited w.activities referee token
  credited_nonneg : ∀ referee token, 0 ≤ credited w.activities referee token
  within_cap : ∀ referee token,
    credited w.activities referee token ≤ (w.registry.lifetimeRewardCap token).getD 0
  within_fees : ∀ referee token,
    credited w.activities referee token ≤ earned w.activities referee token

structure Sound (h : Host V) (s : State V) : Prop where
  capped : Capped h s.world
  backed : ∀ token, s.world.registry.liabilities token ≤ s.cash token h.self

def SameRegistry (w w' : World V) : Prop :=
  w'.registry = w.registry ∧ w'.activities = w.activities

theorem Capped.of_same {w' : World V} (hw : Capped h w) (hsame : SameRegistry w w') : Capped h w' := by
  obtain ⟨hregistry, hactivities⟩ := hsame
  refine ⟨?_, ?_, ?_, ?_, ?_, ?_, ?_⟩ <;> simp only [hregistry, hactivities]
  · exact hw.pool
  · exact hw.pending_nonneg
  · exact hw.caps
  · exact hw.accrued
  · exact hw.credited_nonneg
  · exact hw.within_cap
  · exact hw.within_fees

theorem sameRegistry_refl (w : World V) : SameRegistry w w := ⟨rfl, rfl⟩

theorem poolHost_keeps (w₀ : World V) : (poolHost h).deaf.Keeps (SameRegistry w₀) := by
  constructor
  · exact fun w contract id amount hw => hw
  · intro w contract id w' hw hrun
    obtain ⟨v, -, rfl⟩ := Option.map_eq_some_iff.1 hrun
    exact hw
  · exact fun w contract id sme amount hw => hw
  · intro w contract request premium w' hw hrun
    obtain ⟨x, -, hx⟩ := Option.map_eq_some_iff.1 hrun
    rw [← (Prod.mk.inj hx).2]
    exact hw
  · intro w registry referee kind fee token reward w' hw hrun
    cases hrun

section Recording

variable {signers : List Address} {r : Registry} {caller referee token : Address} {kind : ActivityKind}
  {fee reward : ℤ}

/-- A reward within the cap and the fee's share. -/
structure Rewards (w : World V) (referee token : Address) (kind : ActivityKind) (fee reward : ℤ) :
    Prop where
  nonneg : 0 ≤ reward
  within_fee : reward ≤ fee * w.registry.rewardBps kind / 10_000
  within_cap : reward = 0 ∨ ∃ cap, w.registry.lifetimeRewardCap token = some cap ∧
    reward ≤ cap - w.registry.refereeRewardAccrued (referee, token)

theorem Capped.activity {registry : Registry} {referrer : Address} (hw : Capped h w)
    (hreward : Rewards w referee token kind fee reward)
    (hreferrer : w.registry.referrer referee = some referrer)
    (hpool : registry.pool = w.registry.pool)
    (hcaps : registry.lifetimeRewardCap = w.registry.lifetimeRewardCap)
    (hpending : ∀ key amount, registry.pendingReward.get key = some amount → 0 ≤ amount)
    (haccrued : ∀ referee' token', registry.refereeRewardAccrued (referee', token') =
      w.registry.refereeRewardAccrued (referee', token') +
        if referee = referee' ∧ token = token' then reward else 0) :
    Capped h (w.recorded referee token kind fee registry reward) := by
  have hlog : (w.recorded referee token kind fee registry reward).activities =
      ⟨referee, token, fee, w.registry.rewardBps kind, reward⟩ :: w.activities :=
    if_pos (by rw [hreferrer]; rfl)
  have hsum := fun referee' token' => sumOn_cons Activity.reward
    ⟨referee, token, fee, w.registry.rewardBps kind, reward⟩ w.activities referee' token'
  have hnn := hreward.nonneg
  refine ⟨hpool.trans hw.pool, hpending, ?_, ?_, ?_, ?_, ?_⟩
  · intro token' cap hcap
    exact hw.caps token' cap (hcaps ▸ hcap)
  · intro referee' token'
    rw [hlog]
    refine (haccrued referee' token').trans ?_
    rw [hw.accrued]
    exact (hsum referee' token').symm
  · intro referee' token'
    have hold := hw.credited_nonneg referee' token'
    rw [hlog]
    unfold credited at *
    rw [hsum]
    dsimp only
    split_ifs <;> omega
  · intro referee' token'
    have hold := hw.within_cap referee' token'
    rw [hlog]
    show _ ≤ (registry.lifetimeRewardCap token').getD 0
    rw [hcaps]
    unfold credited at *
    rw [hsum]
    dsimp only
    split_ifs with hsame
    · obtain ⟨rfl, rfl⟩ := hsame
      rcases hreward.within_cap with hzero | ⟨cap, hcap, hle⟩
      · omega
      · have haccr := hw.accrued referee token
        unfold credited at haccr
        rw [hcap, Option.getD_some]
        omega
    · omega
  · intro referee' token'
    have hold := hw.within_fees referee' token'
    have hshare := hreward.within_fee
    rw [hlog]
    unfold credited earned at *
    rw [hsum, sumOn_cons]
    simp only [Activity.share]
    split_ifs <;> omega

theorem Capped.recorded (hw : Capped h w) (hfee : 0 ≤ fee)
    (hx : recordActivity signers w.registry caller referee kind fee token = .ok (r, reward)) :
    Capped h (w.recorded referee token kind fee r reward) ∧ 0 ≤ reward ∧
      ∀ t, r.liabilities t = w.registry.liabilities t + if token = t then reward else 0 := by
  have hshare : 0 ≤ fee * (w.registry.rewardBps kind : ℤ) / 10_000 :=
    Int.ediv_nonneg (mul_nonneg hfee (Int.natCast_nonneg _)) (by decide)
  obtain ⟨-, -, hnone | hsome⟩ := recordActivity_eq_ok hx
  · obtain ⟨hreferrer, rfl, rfl⟩ := hnone
    have hlog : (w.recorded referee token kind fee w.registry 0).activities = w.activities :=
      if_neg (by rw [hreferrer]; exact Bool.false_ne_true)
    exact ⟨hw.of_same ⟨rfl, hlog⟩, le_rfl, fun t => by simp⟩
  · obtain ⟨referrer, activated, referralCount, topReferrers, hreferrer, hzero | hpaid⟩ := hsome
    · obtain ⟨rfl, rfl⟩ := hzero
      refine ⟨hw.activity ⟨le_rfl, hshare, .inl rfl⟩ hreferrer rfl rfl hw.pending_nonneg ?_, le_rfl, ?_⟩
      · intro referee' token'
        rw [ite_self, add_zero]
        rfl
      · intro t
        rw [ite_self, add_zero]
        rfl
    · obtain ⟨cap, hcap, -, hpos, hle, hroom, rfl⟩ := hpaid
      have hnn := hw.credited_nonneg referee token
      rw [← hw.accrued] at hnn
      have hrange := (hw.caps token cap hcap).2
      have hpending : 0 ≤ w.registry.pending referrer token := by
        unfold Registry.pending
        cases hget : w.registry.pendingReward.get (referrer, token) with
        | none => exact le_rfl
        | some amount => exact hw.pending_nonneg _ _ hget
      refine ⟨hw.activity ⟨hpos.le, hle, .inr ⟨cap, hcap, hroom⟩⟩ hreferrer rfl rfl ?_ ?_, hpos.le, ?_⟩
      · exact Store.forall_get_set hw.pending_nonneg (add_nonneg hpending hpos.le)
      · intro referee' token'
        show Function.update w.registry.refereeRewardAccrued (referee, token)
          (saturatingAdd (w.registry.refereeRewardAccrued (referee, token)) reward)
          (referee', token') = _
        have hfits : InI128 (w.registry.refereeRewardAccrued (referee, token) + reward) := by
          unfold InI128
          omega
        rw [saturatingAdd_eq _ _ hfits, Function.update_apply]
        by_cases hsame : referee = referee' ∧ token = token'
        · obtain ⟨rfl, rfl⟩ := hsame
          simp
        · rw [if_neg hsame, if_neg, add_zero]
          rintro hpair
          exact hsame ⟨(Prod.mk.inj hpair).1.symm, (Prod.mk.inj hpair).2.symm⟩
      · intro t
        refine (liabilities_set (w.registry.counted activated referralCount topReferrers) referrer token _
          t).trans ?_
        simp only [Registry.counted, Registry.pending, add_sub_cancel_left]
        rfl

end Recording

/-! ## Steps -/

theorem sound_report {referee token : Address} {kind : ActivityKind} {fee : ℤ} (hs : Sound h s)
    (hr : s.recordReferralActivity (poolHost h) referee kind fee token = .ok s') : Sound h s' := by
  rcases Pool.report_cases hr with rfl | ⟨hfee, contract, reward, w, hact, hpaid⟩
  · exact hs
  have hself : h.self ≠ (poolHost h).self := h.self_ne_pool
  -- the balance of the registry after the reward
  have hcash : ∀ t, 0 < reward →
      Pool.State.moveCash s.cash token (poolHost h).self contract reward t h.self =
        s.cash t h.self + if t = token ∧ h.self = contract then reward else 0 := by
    intro t _
    rw [Pool.State.moveCash_apply, if_neg fun hand => hself hand.2, sub_zero]
  by_cases hcontract : contract = h.self
  · subst hcontract
    simp only [poolHost, if_true] at hact
    split at hact
    · rename_i registry reward' hrecord
      obtain ⟨rfl, rfl⟩ := Prod.mk.inj (Option.some.inj hact)
      obtain ⟨hcapped, hnn, hliabilities⟩ := hs.capped.recorded hfee hrecord
      rcases hpaid with ⟨hzero, rfl⟩ | ⟨hpos, rfl⟩
      · refine ⟨hcapped, fun t => ?_⟩
        have hbacked := hs.backed t
        show registry.liabilities t ≤ s.cash t h.self
        rw [hliabilities]
        split_ifs <;> omega
      · refine ⟨hcapped, fun t => ?_⟩
        have hbacked := hs.backed t
        show registry.liabilities t ≤ Pool.State.moveCash _ _ _ _ _ t h.self
        rw [hliabilities, hcash t hpos]
        simp only [and_true, eq_comm]
        split_ifs <;> omega
    · cases hact
  · have hsame : SameRegistry s.world w := by
      simp only [poolHost, if_neg hcontract] at hact
      obtain ⟨x, -, hx⟩ := Option.map_eq_some_iff.1 hact
      rw [← (Prod.mk.inj hx).2]
      exact ⟨rfl, rfl⟩
    rcases hpaid with ⟨-, rfl⟩ | ⟨hpos, rfl⟩
    · refine ⟨hs.capped.of_same hsame, fun t => ?_⟩
      show w.registry.liabilities t ≤ _
      rw [hsame.1]
      exact hs.backed t
    · refine ⟨hs.capped.of_same hsame, fun t => ?_⟩
      show w.registry.liabilities t ≤ Pool.State.moveCash _ _ _ _ _ t h.self
      rw [hsame.1, hcash t hpos, if_neg fun hand => hcontract hand.2.symm, add_zero]
      exact hs.backed t

theorem Sound.of_spares {payers : List Address} (hs : Sound h s) (hnot : h.self ∉ payers)
    (hspares : Pool.Spares payers s s') (hsame : SameRegistry s.world s'.world) : Sound h s' := by
  refine ⟨hs.capped.of_same hsame, fun token => ?_⟩
  rw [hsame.1]
  exact (hs.backed token).trans (hspares h.self hnot token)

theorem sound_claim {signers : List Address} {referrer token : Address} (hs : Sound h s)
    (hnot : h.self ∉ signers) (hx : claimRewards h signers s referrer token = .ok s') :
    Sound h s' := by
  simp only [claimRewards, bind_eq_ok, Prod.exists] at hx
  obtain ⟨r, amount, htake, hx⟩ := hx
  obtain ⟨hsigned, ⟨rfl, rfl⟩ | ⟨hpos, hle, rfl⟩⟩ := takeRewards_eq_ok htake
  · rw [if_pos rfl, pure_eq_ok] at hx
    subst hx
    exact hs
  · rw [if_neg hpos.ne', mapError_eq_ok, Pool.State.transfer_eq_ok] at hx
    obtain ⟨-, -, rfl⟩ := hx
    have hreferrer : h.self ≠ referrer := fun heq => hnot (heq ▸ hsigned)
    have hw := hs.capped
    refine ⟨⟨hw.pool, ?_, hw.caps, hw.accrued, hw.credited_nonneg, hw.within_cap, hw.within_fees⟩, ?_⟩
    · exact Store.forall_get_set hw.pending_nonneg (sub_nonneg.2 hle)
    · intro t
      have hbacked := hs.backed t
      have hcash : Pool.State.moveCash s.cash token h.self referrer amount t h.self =
          s.cash t h.self - if token = t then amount else 0 := by
        rw [Pool.State.moveCash_apply, if_neg fun hand : t = token ∧ _ => hreferrer hand.2, add_zero]
        simp only [and_true, eq_comm]
      refine (liabilities_set s.world.registry referrer token _ t).trans_le ?_
      show _ ≤ Pool.State.moveCash s.cash token h.self referrer amount t h.self
      rw [hcash]
      split_ifs <;> omega

/-- Addresses and caps that are fixed: the registry stays with its pool, and a cap that is set stays. -/
def Fixed (h : Host V) (s : State V) (tx : Tx h) : Prop :=
  match tx.call with
  | .set setting => (∀ pool ∈ setting.namedPool, pool = h.pool.self) ∧
      ∀ named ∈ setting.namedCap, ∀ cap ∈ s.world.registry.lifetimeRewardCap named.1, named.2 = cap
  | _ => True

instance (s : State V) (tx : Tx h) : Decidable (Fixed h s tx) :=
  match hcall : tx.call with
  | .set setting =>
    decidable_of_iff ((∀ pool ∈ setting.namedPool, pool = h.pool.self) ∧
      ∀ named ∈ setting.namedCap, ∀ cap ∈ s.world.registry.lifetimeRewardCap named.1, named.2 = cap)
      (by simp only [Fixed, hcall])
  | .pool .. | .register .. | .recordActivity .. | .claimRewards .. | .others .. | .advance .. =>
    .isTrue (by simp only [Fixed, hcall])

theorem sound_set {signers : List Address} {setting : Setting} {r : Registry} (hs : Sound h s)
    (hpool : ∀ pool ∈ setting.namedPool, pool = h.pool.self)
    (hcaps : ∀ named ∈ setting.namedCap,
      ∀ cap ∈ s.world.registry.lifetimeRewardCap named.1, named.2 = cap)
    (hx : applySetting signers s.world.registry setting = .ok r) : Sound h (setRegistry s r) := by
  obtain ⟨hsame, hnamed, hcap⟩ := applySetting_eq_ok hx
  have hw := hs.capped
  have hstays : r.pool = h.pool.self := by
    rw [hnamed]
    cases hp : setting.namedPool with
    | none => exact hw.pool
    | some pool => exact hpool pool hp
  have hgrows : ∀ token, (∀ cap, r.lifetimeRewardCap token = some cap → 0 ≤ cap ∧ cap < 2 ^ 127) ∧
      (s.world.registry.lifetimeRewardCap token).getD 0 ≤ (r.lifetimeRewardCap token).getD 0 := by
    intro token
    rcases hcap with ⟨-, hsameCap⟩ | ⟨token', cap', hset, hnn, hlt, hwritten⟩
    · rw [hsameCap]
      exact ⟨hw.caps token, le_rfl⟩
    · rw [hwritten, Function.update_apply]
      split_ifs with ht
      · subst ht
        refine ⟨fun cap heq => ?_, ?_⟩
        · rw [← Option.some.inj heq]
          exact ⟨hnn, hlt⟩
        · cases hold : s.world.registry.lifetimeRewardCap token with
          | none => exact hnn
          | some cap => exact (hcaps (token, cap') hset cap hold).ge
      · exact ⟨hw.caps token, le_rfl⟩
  refine ⟨⟨hstays, ?_, fun token => (hgrows token).1, ?_, hw.credited_nonneg, ?_, hw.within_fees⟩, ?_⟩
  · show ∀ key amount, r.pendingReward.get key = some amount → 0 ≤ amount
    rw [hsame.pendingReward]
    exact hw.pending_nonneg
  · intro referee token
    show r.refereeRewardAccrued (referee, token) = _
    rw [hsame.refereeRewardAccrued]
    exact hw.accrued referee token
  · exact fun referee token => (hw.within_cap referee token).trans (hgrows token).2
  · intro token
    have hliabilities : r.liabilities token = s.world.registry.liabilities token := by
      unfold Registry.liabilities
      rw [hsame.pendingReward]
    exact hliabilities.trans_le (hs.backed token)

theorem sound_step {tx : Tx h} (hs : Sound h s) (hok : Fixed h s tx) (hx : exec h s tx = .ok s') :
    Sound h s' := by
  obtain ⟨signers, hpoolNot, hnot, call⟩ := tx
  have hself : h.self ∉ (poolHost h).self :: signers := by
    rw [List.mem_cons, not_or]
    exact ⟨h.self_ne_pool, hnot⟩
  cases call with
  | pool call own =>
    refine Pool.exec_chain (P := Sound h) sameRegistry_refl poolHost_keeps ?_ ?_ ?_
      ((mapError_eq_ok _ _ _).1 hx) hs
    · exact fun s s' hs hspares hsame => hs.of_spares hself hspares hsame
    · exact fun s s' referee kind fee token hs hr => sound_report hs hr
    · rintro world rfl
      cases own
  | register referee referrer =>
    obtain ⟨r, hr, rfl⟩ := (map_eq_ok _ _ _).1 ((mapError_eq_ok _ _ _).1 hx)
    obtain ⟨-, rfl⟩ := register_eq_ok hr
    have hw := hs.capped
    exact ⟨⟨hw.pool, hw.pending_nonneg, hw.caps, hw.accrued, hw.credited_nonneg, hw.within_cap,
      hw.within_fees⟩, hs.backed⟩
  | recordActivity caller referee kind feeAmount token =>
    -- only the pool may record, and it does not sign
    have hrun := (mapError_eq_ok _ _ _).1 hx
    simp only [recordActivityCall, bind_eq_ok, Prod.exists] at hrun
    obtain ⟨r, reward, hrecord, -⟩ := hrun
    obtain ⟨hsigned, hcaller, -⟩ := recordActivity_eq_ok hrecord
    rw [hcaller, hs.capped.pool] at hsigned
    exact absurd hsigned hpoolNot
  | claimRewards referrer token => exact sound_claim hs hnot ((mapError_eq_ok _ _ _).1 hx)
  | set setting =>
    obtain ⟨r, hr, rfl⟩ := (map_eq_ok _ _ _).1 ((mapError_eq_ok _ _ _).1 hx)
    exact sound_set hs hok.1 hok.2 hr
  | others world =>
    obtain rfl := Except.ok.inj hx
    exact ⟨hs.capped.of_same ⟨rfl, rfl⟩, hs.backed⟩
  | advance now =>
    obtain ⟨-, rfl⟩ := Pool.advance_eq_ok ((mapError_eq_ok _ _ _).1 hx)
    exact ⟨hs.capped, hs.backed⟩

theorem sound_initial {now : ℕ} {others : V} {cash : Address → Address → ℤ}
    {shareTokens : Address → Share.ShareToken}
    {poolAdmin token share invoiceContract admin : Address} (hcash : ∀ token, 0 ≤ cash token h.self) :
    Sound h (initialState h now others cash shareTokens poolAdmin token share invoiceContract admin) := by
  refine ⟨⟨rfl, ?_, ?_, fun _ _ => rfl, fun _ _ => le_rfl, fun _ _ => le_rfl, fun _ _ => le_rfl⟩, hcash⟩
  · intro key amount hget
    have hnone : (none : Option ℤ) = some amount := (Store.get_empty key).symm.trans hget
    cases hnone
  · intro token cap hcap
    cases hcap

theorem Sound.claim {tx : Tx h} {referrer token : Address} (hs : Sound h s)
    (hcall : tx.call = .claimRewards referrer token) (hsigned : referrer ∈ tx.signers)
    (hrunning : s.world.registry.paused = false) :
    ∃ s', exec h s tx = .ok s' ∧ s'.world.registry.pending referrer token = 0 ∧
      s'.cash token referrer = s.cash token referrer + s.world.registry.pending referrer token := by
  have hpending : 0 ≤ s.world.registry.pending referrer token := by
    unfold Registry.pending
    cases hget : s.world.registry.pendingReward.get (referrer, token) with
    | none => exact le_rfl
    | some amount => exact hs.capped.pending_nonneg _ _ hget
  have hle := (pending_le_liabilities hs.capped.pending_nonneg referrer token).trans (hs.backed token)
  have hne : referrer ≠ h.self := fun heq => tx.self_not_mem (heq ▸ hsigned)
  simp only [exec, hcall, mapError_eq_ok]
  rcases hpending.eq_or_lt with hzero | hpos
  · refine ⟨s, ?_, hzero.symm, by rw [← hzero, add_zero]⟩
    have htake : takeRewards tx.signers s.world.registry (s.cash token h.self) referrer token =
        .ok (s.world.registry, 0) := by
      unfold takeRewards
      rw [(requireAuth_eq_ok (u := ())).2 hsigned, (requireNotPaused_eq_ok (u := ())).2 hrunning]
      simp only [bind, Except.bind, if_pos hzero.ge]
      rfl
    simp only [claimRewards, bind_eq_ok, Prod.exists]
    exact ⟨_, _, htake, by rw [if_pos rfl]; rfl⟩
  · refine ⟨{ setRegistry s { s.world.registry with
        pendingReward := s.world.registry.pendingReward.set (referrer, token) 0 } with
        cash := Pool.State.moveCash s.cash token h.self referrer
          (s.world.registry.pending referrer token) }, ?_, ?_, ?_⟩
    · simp only [claimRewards, bind_eq_ok, Prod.exists]
      refine ⟨_, _, takeRewards_of_covered hsigned hrunning hpos hle, ?_⟩
      rw [if_neg hpos.ne', mapError_eq_ok, Pool.State.transfer_eq_ok]
      exact ⟨hpos.le, hle, rfl⟩
    · show ((s.world.registry.pendingReward.set (referrer, token) 0).get (referrer, token)).getD 0 = 0
      rw [Store.get_set_self]
      rfl
    · show Pool.State.moveCash s.cash token h.self referrer _ token referrer = _
      rw [Pool.State.moveCash_apply, if_neg fun hand => hne hand.2, if_pos ⟨rfl, rfl⟩, sub_zero]

/-- In every run with fixed addresses and caps: the registry has of every token at least what it owes;
so a claim of a referrer succeeds and pays all that is pending; and what was ever credited for a
referee in a token is within the cap and within the shares of the fees. -/
theorem rewards_backed_and_capped {now : ℕ} {others : V} {cash : Address → Address → ℤ}
    {shareTokens : Address → Share.ShareToken}
    {poolAdmin token share invoiceContract admin : Address} (hcash : ∀ token, 0 ≤ cash token h.self)
    (hrun : Reaches (exec h) (fun s tx => Fixed h s tx)
      (initialState h now others cash shareTokens poolAdmin token share invoiceContract admin) s) :
    (∀ token, s.world.registry.liabilities token ≤ s.cash token h.self) ∧
    (∀ (tx : Tx h) referrer token, tx.call = .claimRewards referrer token → referrer ∈ tx.signers →
      s.world.registry.paused = false →
      ∃ s', exec h s tx = .ok s' ∧ s'.world.registry.pending referrer token = 0 ∧
        s'.cash token referrer = s.cash token referrer + s.world.registry.pending referrer token) ∧
    ∀ referee token,
      credited s.world.activities referee token ≤
        (s.world.registry.lifetimeRewardCap token).getD 0 ∧
      credited s.world.activities referee token ≤ earned s.world.activities referee token := by
  have hs : Sound h s := hrun.invariant (sound_initial hcash) fun _ _ _ hs hok hx => sound_step hs hok hx
  exact ⟨hs.backed, fun tx referrer token hcall hsigned hrunning => hs.claim hcall hsigned hrunning,
    fun referee token => ⟨hs.capped.within_cap referee token, hs.capped.within_fees referee token⟩⟩

theorem rewards_backed_and_capped_repaid :
    ∃ s : State Unit, s.world.activities.length = 1 ∧ earned s.world.activities 4 10 = 5 ∧
      s.world.registry.pending 5 10 = 4 ∧ 4 ≤ s.cash 10 40 := by
  obtain ⟨s, hx, hp⟩ := exists_of_check (x := referredLoan.foldlM (exec sampleHost) sampleStart)
    (p := fun s => decide (s.world.activities.length = 1 ∧ earned s.world.activities 4 10 = 5 ∧
      s.world.registry.pending 5 10 = 4 ∧ s.world.registry.liabilities 10 = 4)) (by decide)
  obtain ⟨hlength, hearned, hpending, hliabilities⟩ := of_decide_eq_true hp
  have hrun := reaches_of_along .refl (show Along _ (fun s tx => Fixed sampleHost s tx) _ referredLoan
    by decide) hx
  have hbacked := (rewards_backed_and_capped (h := sampleHost) (fun _ => le_rfl) hrun).1 10
  exact ⟨s, hlength, hearned, hpending, hliabilities ▸ hbacked⟩

end Astera.Referral
