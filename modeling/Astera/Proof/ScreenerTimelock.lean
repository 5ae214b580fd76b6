import Astera.Compliance.System
import Astera.Lib.Timelock

/-!
# The timelock of the screeners

A registration is stored with the time from which it can be confirmed.  So an address becomes a
screener when the timelock in force at its last registration is over, as long as the sum of the time
and the timelock fits the ledger time.
-/

namespace Astera.Compliance

open Fallible Machine Transition Timelock

variable {s s' : State}
variable {a : Address} {log : ScreenerLog}

/-- The log of the registrations, the activations and the cancellations. -/
abbrev ScreenerLog := List (Entry Address Unit)

/-- The log after a call; with no timelock a registration activates at once. -/
def noteScreeners (s : State) (tx : Tx) (_ : State) (log : ScreenerLog) : ScreenerLog :=
  match tx.call with
  | .registerScreener _ a | .registerScreenerViaAc _ a =>
    if s.screenerTimelockSecs = 0 then .executed a () s.now :: .proposed a () s.now 0 :: log
    else .proposed a () s.now s.screenerTimelockSecs :: log
  | .confirmScreenerRegistration _ a | .confirmScreenerViaAc _ a => .executed a () s.now :: log
  | .deregisterScreener _ a | .deregisterScreenerViaAc _ a =>
    if s.hasScreener a then log else .cancelled a :: log
  | _ => log

/-- The end of the timelock of a registration is a ledger time. -/
def EndsInTime (s : State) (tx : Tx) : Prop :=
  ∀ _screener ∈ tx.call.registers, s.now + s.screenerTimelockSecs < 2 ^ 64

instance (s : State) (tx : Tx) : Decidable (EndsInTime s tx) :=
  inferInstanceAs (Decidable (∀ _ ∈ tx.call.registers, _))

section Note

variable {tx : Tx} {log : ScreenerLog} {a : Address}

theorem noteScreeners_of_registers (hcall : tx.call.registers = some a) :
    noteScreeners s tx s' log =
      if s.screenerTimelockSecs = 0 then .executed a () s.now :: .proposed a () s.now 0 :: log
      else .proposed a () s.now s.screenerTimelockSecs :: log := by
  obtain ⟨signers, call⟩ := tx
  cases call <;> simp_all [Call.registers, noteScreeners]

theorem noteScreeners_of_confirms (hcall : tx.call.confirms = some a) :
    noteScreeners s tx s' log = .executed a () s.now :: log := by
  obtain ⟨signers, call⟩ := tx
  cases call <;> simp_all [Call.confirms, noteScreeners]

theorem noteScreeners_of_deregisters (hcall : tx.call.deregisters = some a) :
    noteScreeners s tx s' log = if s.hasScreener a then log else .cancelled a :: log := by
  obtain ⟨signers, call⟩ := tx
  cases call <;> simp_all [Call.deregisters, noteScreeners]

theorem noteScreeners_of_screens (hcall : tx.call.screens = some a) :
    noteScreeners s tx s' log = log := by
  obtain ⟨signers, call⟩ := tx
  cases call <;> simp_all [Call.screens, noteScreeners]

theorem noteScreeners_of_reviews (hcall : tx.call.reviews = some a) :
    noteScreeners s tx s' log = log := by
  obtain ⟨signers, call⟩ := tx
  cases call <;> simp_all [Call.reviews, noteScreeners]

end Note

/-- A registration of the time, with the timelock, waits. -/
def State.Awaits (s : State) (a : Address) (time delay : ℕ) : Prop :=
  ∃ pending, s.pendingScreeners.get a = some pending ∧ pending.proposedAt = time ∧
    pending.effectiveAt = time + delay

theorem not_awaits (hnone : s.pendingScreeners.get a = none) (time delay : ℕ) :
    ¬ s.Awaits a time delay := by
  rintro ⟨pending, hget, -⟩
  rw [hnone] at hget
  cases hget

theorem awaits_congr (hsame : s'.pendingScreeners.get a = s.pendingScreeners.get a) (time delay : ℕ) :
    s'.Awaits a time delay ↔ s.Awaits a time delay := by
  unfold State.Awaits
  rw [hsame]

/-- The log is timely, and a registration waits exactly when it is the last step of its address. -/
structure Frozen (x : State × ScreenerLog) : Prop where
  timely : Timely 0 x.2
  waits : ∀ a time delay, LastProposed x.2 a () time delay ↔ x.1.Awaits a time delay
  ordered : ∀ a pending, x.1.pendingScreeners.get a = some pending →
    pending.proposedAt ≤ pending.effectiveAt
  inactive : ∀ a pending, x.1.pendingScreeners.get a = some pending → x.1.hasScreener a = false

theorem waits_moved {log log' : ScreenerLog} (a : Address)
    (hold : ∀ b time delay, LastProposed log b () time delay ↔ s.Awaits b time delay)
    (hself : ∀ time delay, LastProposed log' a () time delay ↔ s'.Awaits a time delay)
    (hlog : ∀ b ≠ a, ∀ time delay, LastProposed log' b () time delay ↔
      LastProposed log b () time delay)
    (hpending : ∀ b ≠ a, s'.pendingScreeners.get b = s.pendingScreeners.get b) :
    ∀ b time delay, LastProposed log' b () time delay ↔ s'.Awaits b time delay := by
  intro b time delay
  by_cases hb : b = a
  · rw [hb]
    exact hself time delay
  · rw [hlog b hb, hold, awaits_congr (hpending b hb)]

theorem frozen_initial (now : ℕ) (admin : Address) :
    Frozen (initializeCompliance now admin, []) := by
  refine ⟨timely_nil, fun a time delay => iff_of_false not_lastProposed_nil ?_, ?_, ?_⟩
  · exact not_awaits (Store.get_empty a) time delay
  · intro a pending hget
    simp [initializeCompliance] at hget
  · intro a pending hget
    simp [initializeCompliance] at hget

theorem Frozen.queued (hx : Frozen (s, log)) (hnew : s.hasScreener a = false)
    (hends : s.now + s.screenerTimelockSecs < 2 ^ 64) :
    Frozen (s.queued a, .proposed a () s.now s.screenerTimelockSecs :: log) := by
  have hget : (s.queued a).pendingScreeners.get a =
      some ⟨a, s.now, saturatingAddU 64 s.now s.screenerTimelockSecs⟩ := Store.get_set_self _ _ _
  refine ⟨hx.timely.cons nofun, waits_moved a hx.waits ?_ ?_ ?_, ?_, ?_⟩
  · intro time delay
    constructor
    · intro hlast
      have hentry : Entry.proposed a () s.now s.screenerTimelockSecs = .proposed a () time delay := by
        by_contra hne
        exact not_lastProposed_cons rfl hne hlast
      injection hentry with _ _ htime hdelay
      refine ⟨_, hget, htime, ?_⟩
      rw [← htime, ← hdelay]
      exact Nat.min_eq_left (by omega)
    · rintro ⟨pending, hpending, htime, heffective⟩
      obtain rfl := Option.some.inj (hget.symm.trans hpending)
      obtain rfl : s.now = time := htime
      have hsum : min (s.now + s.screenerTimelockSecs) (2 ^ 64 - 1) = s.now + delay := heffective
      obtain rfl : s.screenerTimelockSecs = delay := by omega
      exact lastProposed_self
  · exact fun b hb time delay => lastProposed_cons_of_ne (Ne.symm hb)
  · exact fun b hb => Store.get_set_of_ne _ _ hb
  · refine Store.forall_get_set hx.ordered (le_min (Nat.le_add_right _ _) ?_)
    show s.now ≤ 2 ^ 64 - 1
    omega
  · exact Store.forall_get_set hx.inactive hnew

theorem Frozen.registered (hx : Frozen (s, log)) (hfree : s.pendingScreeners.get a = none) :
    Frozen (s.activated a, .executed a () s.now :: .proposed a () s.now 0 :: log) := by
  have hproposed : Timely 0 (.proposed a () s.now 0 :: log) := hx.timely.cons nofun
  refine ⟨hproposed.cons ?_, waits_moved a hx.waits ?_ ?_ fun _ _ => rfl,
    hx.ordered, ?_⟩
  · intro slot change time hentry
    injection hentry with hslot _ htime
    subst hslot htime
    exact waiting_of_proposed le_rfl
  · exact fun time delay => iff_of_false (not_lastProposed_cons rfl nofun) (not_awaits hfree _ _)
  · intro b hb time delay
    rw [lastProposed_cons_of_ne (Ne.symm hb), lastProposed_cons_of_ne (Ne.symm hb)]
  · intro b pending hget
    have hne : b ≠ a := by
      rintro rfl
      exact absurd (hfree.symm.trans hget) nofun
    have hold := hx.inactive b pending hget
    unfold State.hasScreener State.activated at *
    rwa [Store.get_set_of_ne _ _ hne]

theorem Frozen.waiting (hx : Frozen (s, log)) {pending : PendingScreener}
    (hget : s.pendingScreeners.get a = some pending) (hripe : pending.effectiveAt ≤ s.now) :
    Waiting 0 log a () s.now := by
  have hle : pending.proposedAt ≤ pending.effectiveAt := hx.ordered a pending hget
  have hends : pending.effectiveAt =
      pending.proposedAt + (pending.effectiveAt - pending.proposedAt) := by omega
  have hlast := (hx.waits a pending.proposedAt _).2 ⟨pending, hget, rfl, hends⟩
  exact hlast.waiting (by omega) (Nat.zero_le _)

theorem Frozen.confirmed (hx : Frozen (s, log)) {pending : PendingScreener}
    (hget : s.pendingScreeners.get a = some pending) (hripe : pending.effectiveAt ≤ s.now) :
    Frozen ((s.dropPending a).activated a, .executed a () s.now :: log) := by
  have hgone : ((s.dropPending a).activated a).pendingScreeners.get a = none := by
    show (s.pendingScreeners.remove a).get a = none
    rw [Store.get_remove, if_pos rfl]
  refine ⟨hx.timely.cons ?_, waits_moved a hx.waits ?_ ?_ ?_, ?_, ?_⟩
  · intro slot change time hentry
    injection hentry with hslot _ htime
    subst hslot htime
    exact hx.waiting hget hripe
  · exact fun time delay => iff_of_false (not_lastProposed_cons rfl nofun) (not_awaits hgone _ _)
  · exact fun b hb time delay => lastProposed_cons_of_ne (Ne.symm hb)
  · intro b hb
    show (s.pendingScreeners.remove a).get b = _
    rw [Store.get_remove, if_neg hb]
  · exact fun b pending hb => hx.ordered b pending (Store.get_of_get_remove hb)
  · intro b pending hb
    have hne : b ≠ a := by
      rintro rfl
      exact absurd (hgone.symm.trans hb) nofun
    have hold := hx.inactive b pending (Store.get_of_get_remove hb)
    unfold State.hasScreener State.activated State.dropPending at *
    rwa [Store.get_set_of_ne _ _ hne]

theorem Frozen.cancelled (hx : Frozen (s, log)) (a : Address) :
    Frozen (s.dropPending a, .cancelled a :: log) := by
  have hgone : (s.dropPending a).pendingScreeners.get a = none := by
    show (s.pendingScreeners.remove a).get a = none
    rw [Store.get_remove, if_pos rfl]
  refine ⟨hx.timely.cons nofun, waits_moved a hx.waits ?_ ?_ ?_, ?_, ?_⟩
  · exact fun time delay => iff_of_false (not_lastProposed_cons rfl nofun) (not_awaits hgone _ _)
  · exact fun b hb time delay => lastProposed_cons_of_ne (Ne.symm hb)
  · intro b hb
    show (s.pendingScreeners.remove a).get b = _
    rw [Store.get_remove, if_neg hb]
  · exact fun b pending hb => hx.ordered b pending (Store.get_of_get_remove hb)
  · exact fun b pending hb => hx.inactive b pending (Store.get_of_get_remove hb)

theorem Frozen.kept (hx : Frozen (s, log)) (hpending : s'.pendingScreeners = s.pendingScreeners)
    (hscreeners : s'.screeners = s.screeners) :
    Frozen (s', log) := by
  refine ⟨hx.timely, fun a time delay => ?_, ?_, ?_⟩
  · rw [hx.waits, awaits_congr (by rw [hpending])]
  · dsimp only
    rw [hpending]
    exact hx.ordered
  · unfold State.hasScreener
    dsimp only
    rw [hpending, hscreeners]
    exact hx.inactive

theorem frozen_step {x y : State × ScreenerLog} {tx : Tx} (hx : Frozen x) (hok : EndsInTime x.1 tx)
    (hstep : track exec noteScreeners x tx = .ok y) : Frozen y := by
  obtain ⟨s, log⟩ := x
  obtain ⟨s', log'⟩ := y
  rw [track_eq_ok] at hstep
  obtain ⟨hexec, hnote⟩ := hstep
  dsimp only at hexec hnote hok
  subst hnote
  cases exec_effect hexec with
  | queued hcall hlock hnew =>
    rw [noteScreeners_of_registers hcall, if_neg hlock]
    exact hx.queued hnew (hok _ hcall)
  | registered hcall hlock hnew hfree =>
    rw [noteScreeners_of_registers hcall, if_pos hlock]
    exact hx.registered hfree
  | confirmed hcall hget hripe =>
    rw [noteScreeners_of_confirms hcall]
    exact hx.confirmed hget hripe
  | @dismissed screener hcall hold =>
    rw [noteScreeners_of_deregisters hcall, if_pos hold]
    refine ⟨hx.timely, hx.waits, hx.ordered, fun b pending hget => ?_⟩
    have hinactive := hx.inactive b pending hget
    unfold State.hasScreener State.dismissed at *
    rw [Store.get_remove]
    split_ifs
    · rfl
    · exact hinactive
  | cancelled hcall hnew =>
    rw [noteScreeners_of_deregisters hcall, hnew, if_neg Bool.false_ne_true]
    exact hx.cancelled _
  | @screened record _ hcall =>
    rw [noteScreeners_of_screens hcall]
    obtain ⟨hscreeners, -, hpending, -⟩ := putRecord_frame s record
    exact hx.kept hpending hscreeners
  | @reviewed record hcall =>
    rw [noteScreeners_of_reviews hcall]
    obtain ⟨hscreeners, -, hpending, -⟩ := putRecord_frame s record
    exact hx.kept hpending hscreeners
  | configured hcall hsame =>
    simp only [noteScreeners, hcall]
    exact hx.kept hsame.pendingScreeners hsame.screeners
  | advanced hcall =>
    simp only [noteScreeners, hcall]
    exact hx.kept rfl rfl

theorem eq_of_hasScreener_activated {screener a : Address} (hold : s.hasScreener a = false)
    (hnew : (s.activated screener).hasScreener a = true) : a = screener := by
  by_contra hne
  unfold State.hasScreener State.activated at *
  rw [Store.get_set_of_ne _ _ hne, hold] at hnew
  cases hnew

theorem Frozen.activation (hx : Frozen (s, log)) {tx : Tx} (hexec : exec s tx = .ok s')
    (hold : s.hasScreener a = false) (hnew : s'.hasScreener a = true) :
    ∃ older, noteScreeners s tx s' log = .executed a () s.now :: older ∧
      Waiting 0 older a () s.now := by
  -- a call that writes no screener activates none
  have hquiet : s'.screeners = s.screeners → False := by
    intro hsame
    unfold State.hasScreener at hold hnew
    rw [hsame, hold] at hnew
    cases hnew
  cases exec_effect hexec with
  | registered hcall hlock =>
    obtain rfl := eq_of_hasScreener_activated hold hnew
    refine ⟨_, by rw [noteScreeners_of_registers hcall, if_pos hlock], ?_⟩
    exact waiting_of_proposed le_rfl
  | confirmed hcall hget hripe =>
    obtain rfl := eq_of_hasScreener_activated (s := s.dropPending _) hold hnew
    exact ⟨_, noteScreeners_of_confirms hcall, hx.waiting hget hripe⟩
  | dismissed =>
    unfold State.hasScreener State.dismissed at hnew
    rw [Store.get_remove] at hnew
    split_ifs at hnew
    · cases hnew
    · unfold State.hasScreener at hold
      rw [hold] at hnew
      cases hnew
  | @screened record => exact (hquiet (putRecord_frame s record).1).elim
  | @reviewed record => exact (hquiet (putRecord_frame s record).1).elim
  | configured hcall hsame => exact (hquiet hsame.screeners).elim
  | queued | cancelled | advanced => exact (hquiet rfl).elim

/-- In every run in which the timelock of each registration ends at a ledger time: an address becomes a
screener only by its last registration, which was not cancelled and did not activate before, and when
the timelock that was in force then is over; and whatever the timelock is now, a registration that
waits is confirmed exactly from that time on, while the registry is not paused and has room. -/
theorem screener_timelock_frozen {now : ℕ} {admin : Address} {s : State} {log : ScreenerLog}
    (hrun : Reaches (track exec noteScreeners) (fun x tx => EndsInTime x.1 tx)
      (initializeCompliance now admin, []) (s, log)) :
    Timely 0 log ∧
    (∀ tx s', exec s tx = .ok s' → ∀ a, s.hasScreener a = false → s'.hasScreener a = true →
      ∃ older, noteScreeners s tx s' log = .executed a () s.now :: older ∧
        Waiting 0 older a () s.now) ∧
    ∀ a time delay, LastProposed log a () time delay →
      ((∃ s', confirmScreenerRegistrationInternal s a = .ok s') ↔
        s.paused = false ∧ time + delay ≤ s.now ∧ s.screenerIds.length < maxScreenerList) := by
  have hx : Frozen (s, log) :=
    hrun.invariant (P := Frozen) (frozen_initial now admin)
      fun _ _ _ hx hok hstep => frozen_step hx hok hstep
  refine ⟨hx.timely, fun tx s' hexec a hold hnew => hx.activation hexec hold hnew,
    fun a time delay hlast => ?_⟩
  obtain ⟨pending, hget, -, hends⟩ := (hx.waits a time delay).1 hlast
  constructor
  · rintro ⟨s', hs'⟩
    obtain ⟨hpaused, pending', hget', hripe, -, hroom, -⟩ :=
      confirmScreenerRegistrationInternal_eq_ok.1 hs'
    obtain rfl := Option.some.inj (hget.symm.trans hget')
    exact ⟨hpaused, hends ▸ hripe, hroom⟩
  · rintro ⟨hpaused, hripe, hroom⟩
    exact ⟨_, confirmScreenerRegistrationInternal_eq_ok.2
      ⟨hpaused, pending, hget, hends ▸ hripe, hx.inactive a pending hget, hroom, rfl⟩⟩

/-- A registration waits a day, and the timelock is lowered meanwhile. -/
def loweredTimelock : List Tx :=
  [⟨[1], .registerScreener 1 5⟩,
    ⟨[1], .set (.setScreenerTimelock 1 0)⟩,
    ⟨[], .advance 86404⟩]

theorem screener_timelock_frozen_lowered :
    ∃ s log, Reaches (track exec noteScreeners) (fun x tx => EndsInTime x.1 tx)
        (initializeCompliance 5 1, []) (s, log) ∧
      s.screenerTimelockSecs = 0 ∧ LastProposed log 5 () 5 86400 ∧
      ¬ ∃ s', confirmScreenerRegistrationInternal s 5 = .ok s' := by
  obtain ⟨⟨s, log⟩, hx, hp⟩ := exists_of_check
    (x := loweredTimelock.foldlM (track exec noteScreeners) (initializeCompliance 5 1, []))
    (p := fun x => decide (x.1.now = 86404 ∧ x.1.screenerTimelockSecs = 0 ∧
      x.2 = [.proposed 5 () 5 86400])) (by decide)
  obtain ⟨hnow, htimelock, hlog⟩ := of_decide_eq_true hp
  dsimp only at hnow htimelock hlog
  have hrun := reaches_of_along .refl (show Along _ (fun x tx => EndsInTime x.1 tx) _ loweredTimelock
    by decide) hx
  have hlast : LastProposed log 5 () 5 86400 := hlog ▸ lastProposed_self
  refine ⟨s, log, hrun, htimelock, hlast, fun hconfirmed => ?_⟩
  obtain ⟨-, -, hexact⟩ := screener_timelock_frozen hrun
  obtain ⟨-, hripe, -⟩ := (hexact 5 5 86400 hlast).1 hconfirmed
  omega

/-- A timelock that ends after the last ledger time. -/
def endlessTimelock : List Tx :=
  [⟨[1], .set (.setScreenerTimelock 1 18446744073709551615)⟩,
    ⟨[1], .registerScreener 1 5⟩,
    ⟨[], .advance 18446744073709551615⟩]

/-- The screener is activated five seconds before its timelock is over. -/
theorem saturated_timelock_cut_short :
    ∃ s s' log, Reaches (track exec noteScreeners) (fun _ _ => True)
        (initializeCompliance 5 1, []) (s, log) ∧
      log = [.proposed 5 () 5 18446744073709551615] ∧ s.hasScreener 5 = false ∧
      exec s ⟨[1], .confirmScreenerRegistration 1 5⟩ = .ok s' ∧ s'.hasScreener 5 = true ∧
      s.now < 5 + 18446744073709551615 := by
  obtain ⟨⟨s, log⟩, hx, hp⟩ := exists_of_check
    (x := endlessTimelock.foldlM (track exec noteScreeners) (initializeCompliance 5 1, []))
    (p := fun x => decide (x.1.now = 18446744073709551615 ∧ x.1.hasScreener 5 = false ∧
      x.2 = [.proposed 5 () 5 18446744073709551615] ∧
      check (exec x.1 ⟨[1], .confirmScreenerRegistration 1 5⟩)
        (fun s' => s'.hasScreener 5) = true)) (by decide)
  obtain ⟨hnow, hold, hlog, hconfirms⟩ := of_decide_eq_true hp
  obtain ⟨s', hs', hnew⟩ := exists_of_check hconfirms
  have hrun := reaches_of_along .refl (along_of_forall (fun _ _ => trivial) _ _) hx
  dsimp only at hnow
  exact ⟨s, s', log, hrun, hlog, hold, hs', hnew, by omega⟩

end Astera.Compliance
