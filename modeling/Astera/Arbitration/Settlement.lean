import Astera.Lib.Rounding
import Astera.Arbitration.System

/-!
# What the settlement of a case does to the stakes

The steps of `finalize_case` only rewrite the records of jurors: they take stake from some, collect
it in a pool, and pay the pool out to others.  `Adjusts` is what such steps have in common.
-/

namespace Astera.Arbitration

open Fallible Machine
open Invoices (DisputeResolution)

variable {W : Type} {s s' s₁ : State W}

def State.staked (s : State W) : ℤ := s.jurors.total fun _ info => info.stakeAmount

def State.stakeOf (s : State W) (a : Address) : ℤ := s.jurors.part (fun _ info => info.stakeAmount) a

/-- The membership of an address, if it is a juror. -/
def State.standing (s : State W) (a : Address) : Option (Bool × Option ℕ) :=
  (s.jurors.get a).map fun info => (info.isActive, info.deregisterRequestedAt)

/-- Records of jurors are rewritten: nobody joins, leaves or asks to leave, the stakes of those that
are not touched stay, and `taken` is what the stakes lose together. -/
structure Adjusts (touched : Address → Prop) (taken : ℤ) (s s' : State W) : Prop where
  state : s' = { s with jurors := s'.jurors }
  standing : ∀ a, s'.standing a = s.standing a
  frame : ∀ a, ¬ touched a → s'.stakeOf a = s.stakeOf a
  staked : s'.staked = s.staked - taken

theorem Adjusts.refl (touched : Address → Prop) (s : State W) : Adjusts touched 0 s s :=
  ⟨rfl, fun _ => rfl, fun _ _ => rfl, (sub_zero _).symm⟩

theorem Adjusts.trans {touched : Address → Prop} {taken taken' : ℤ} (h₁ : Adjusts touched taken s s₁)
    (h₂ : Adjusts touched taken' s₁ s') : Adjusts touched (taken + taken') s s' := by
  refine ⟨?_, fun a => ?_, fun a ha => ?_, ?_⟩
  · rw [h₂.state, h₁.state]
  · rw [h₂.standing, h₁.standing]
  · rw [h₂.frame a ha, h₁.frame a ha]
  · rw [h₂.staked, h₁.staked]
    ring

theorem Adjusts.mono {touched touched' : Address → Prop} {taken : ℤ} (hs : Adjusts touched taken s s')
    (himp : ∀ a, touched a → touched' a) : Adjusts touched' taken s s' :=
  ⟨hs.state, hs.standing, fun a ha => hs.frame a fun h => ha (himp a h), hs.staked⟩

theorem adjusts_setJuror {juror : Address} {info : JurorInfo} (info' : JurorInfo)
    (hget : s.jurors.get juror = some info) (hactive : info'.isActive = info.isActive)
    (hrequested : info'.deregisterRequestedAt = info.deregisterRequestedAt) :
    Adjusts (· = juror) (info.stakeAmount - info'.stakeAmount) s (s.setJuror juror info') := by
  refine ⟨rfl, fun a => ?_, fun a ha => ?_, ?_⟩
  · unfold State.standing
    show ((s.jurors.set juror info').get a).map _ = _
    rw [Store.get_set]
    split_ifs with ha
    · subst ha
      simp [hget, hactive, hrequested]
    · rfl
  · show (s.jurors.set juror info').part _ a = s.jurors.part _ a
    rw [Store.part, Store.part, Store.get_set_of_ne _ _ ha]
  · show (s.jurors.set juror info').total _ = _
    rw [Store.total_set, Store.part_of_get hget]
    show s.staked - info.stakeAmount + info'.stakeAmount = _
    ring

def State.Solvent (s : State W) : Prop := ∀ a, 0 ≤ s.stakeOf a

theorem solvent_setJuror {juror : Address} (info : JurorInfo) (hs : s.Solvent)
    (hnn : 0 ≤ info.stakeAmount) : (s.setJuror juror info).Solvent := by
  intro a
  show 0 ≤ (s.jurors.set juror info).part _ a
  by_cases ha : a = juror
  · rw [ha, Store.part_of_get (Store.get_set_self _ _ _)]
    exact hnn
  · rw [Store.part, Store.get_set_of_ne _ _ ha]
    exact hs a

/-! ## Taking -/

/-- A step that takes stake from a juror, and not more than it has. -/
structure Takes (touched : Address → Prop) (taken : ℤ) (s s' : State W) : Prop
    extends Adjusts touched taken s s' where
  nonneg : 0 ≤ taken
  solvent : s'.Solvent

theorem Takes.trans {touched : Address → Prop} {taken taken' : ℤ} (h₁ : Takes touched taken s s₁)
    (h₂ : Takes touched taken' s₁ s') : Takes touched (taken + taken') s s' :=
  ⟨h₁.toAdjusts.trans h₂.toAdjusts, add_nonneg h₁.nonneg h₂.nonneg, h₂.solvent⟩

theorem Takes.mono {touched touched' : Address → Prop} {taken : ℤ} (hs : Takes touched taken s s')
    (himp : ∀ a, touched a → touched' a) : Takes touched' taken s s' :=
  ⟨hs.toAdjusts.mono himp, hs.nonneg, hs.solvent⟩

theorem Takes.refl (touched : Address → Prop) (hs : s.Solvent) : Takes touched 0 s s :=
  ⟨.refl touched s, le_rfl, hs⟩

theorem takes_counter {juror : Address} {info : JurorInfo} (info' : JurorInfo) (hs : s.Solvent)
    (hget : s.jurors.get juror = some info) (hactive : info'.isActive = info.isActive)
    (hrequested : info'.deregisterRequestedAt = info.deregisterRequestedAt)
    (hstake : info'.stakeAmount = info.stakeAmount) (touched : Address → Prop) :
    Takes touched 0 s (s.setJuror juror info') := by
  have hadjusts := adjusts_setJuror info' hget hactive hrequested
  rw [hstake, sub_self] at hadjusts
  have hnn : 0 ≤ info.stakeAmount := by
    have hpart := hs juror
    rwa [State.stakeOf, Store.part_of_get hget] at hpart
  refine ⟨⟨rfl, hadjusts.standing, fun a _ => ?_, hadjusts.staked⟩, le_rfl,
    solvent_setJuror _ hs (hstake ▸ hnn)⟩
  by_cases ha : a = juror
  · show (s.jurors.set juror info').part _ a = s.jurors.part _ a
    rw [ha, Store.part_of_get (Store.get_set_self _ _ _), Store.part_of_get hget, hstake]
  · exact hadjusts.frame a ha

theorem bumpCasesServed_takes {juror : Address} (hs : s.Solvent)
    (hx : bumpCasesServed s juror = .ok s') (touched : Address → Prop) : Takes touched 0 s s' := by
  unfold bumpCasesServed at hx
  cases hget : s.jurors.get juror with
  | none =>
    simp only [hget, pure_eq_ok] at hx
    subst hx
    exact .refl touched hs
  | some info =>
    simp only [hget, bind_eq_ok, okOr_eq_ok, pure_eq_ok] at hx
    obtain ⟨casesServed, -, rfl⟩ := hx
    exact takes_counter { info with casesServed } hs hget rfl rfl rfl touched

theorem strike_takes {juror : Address} (hs : s.Solvent) (hx : strike s juror = .ok s')
    (touched : Address → Prop) : Takes touched 0 s s' := by
  unfold strike at hx
  cases hget : s.jurors.get juror with
  | none =>
    simp only [hget, pure_eq_ok] at hx
    subst hx
    exact .refl touched hs
  | some info =>
    simp only [hget, bind_eq_ok, okOr_eq_ok, pure_eq_ok] at hx
    obtain ⟨nonRevealStrikes, -, rfl⟩ := hx
    exact takes_counter { info with nonRevealStrikes } hs hget rfl rfl rfl touched

def afterSlash (stakeAmount : ℤ) (bps : ℕ) : ℤ := stakeAmount - (stakeAmount * bps).tdiv 10000

theorem afterSlash_zero (stakeAmount : ℤ) : afterSlash stakeAmount 0 = stakeAmount := by
  simp [afterSlash]

theorem stakeOf_setJuror (s : State W) (juror : Address) (info : JurorInfo) :
    (s.setJuror juror info).stakeOf juror = info.stakeAmount :=
  Store.part_of_get (Store.get_set_self _ _ _)

theorem slashJuror_stakeOf {juror : Address} {bps : ℕ} {amount : ℤ}
    (hx : slashJuror s juror bps = .ok (s', amount)) :
    s'.stakeOf juror = afterSlash (s.stakeOf juror) bps := by
  unfold slashJuror at hx
  cases hget : s.jurors.get juror with
  | none =>
    simp only [hget, pure_eq_ok, Prod.mk.injEq] at hx
    obtain ⟨rfl, rfl⟩ := hx
    rw [State.stakeOf, Store.part_of_get_none hget]
    simp [afterSlash]
  | some info =>
    simp only [hget, bind_eq_ok, okOr_eq_ok, checkedMul_eq_some, checkedSub_eq_some, pure_eq_ok,
      Prod.mk.injEq] at hx
    obtain ⟨_, ⟨rfl, -⟩, _, ⟨rfl, -⟩, timesSlashed, -, rfl, rfl⟩ := hx
    have hstake : s.stakeOf juror = info.stakeAmount := Store.part_of_get hget
    rw [stakeOf_setJuror, hstake]
    rfl

theorem slashJuror_takes {juror : Address} {bps : ℕ} {amount : ℤ} (hs : s.Solvent) (hbps : bps ≤ 10000)
    (hx : slashJuror s juror bps = .ok (s', amount)) : Takes (· = juror) amount s s' := by
  unfold slashJuror at hx
  cases hget : s.jurors.get juror with
  | none =>
    simp only [hget, pure_eq_ok, Prod.mk.injEq] at hx
    obtain ⟨rfl, rfl⟩ := hx
    exact .refl _ hs
  | some info =>
    simp only [hget, bind_eq_ok, okOr_eq_ok, checkedMul_eq_some, checkedSub_eq_some, pure_eq_ok,
      Prod.mk.injEq] at hx
    obtain ⟨_, ⟨rfl, -⟩, _, ⟨rfl, -⟩, timesSlashed, -, rfl, rfl⟩ := hx
    have hnn : 0 ≤ info.stakeAmount := by
      have hpart := hs juror
      rwa [State.stakeOf, Store.part_of_get hget] at hpart
    have hle : (info.stakeAmount * bps).tdiv 10000 ≤ info.stakeAmount :=
      tdiv_le_of_le_mul (by omega) (by positivity)
        (mul_le_mul_of_nonneg_left (by exact_mod_cast hbps) hnn)
    refine ⟨?_, Int.tdiv_nonneg (by positivity) (by norm_num), solvent_setJuror _ hs ?_⟩
    · have hadjusts := adjusts_setJuror { info with
        stakeAmount := info.stakeAmount - (info.stakeAmount * bps).tdiv 10000
        timesSlashed } hget rfl rfl
      rwa [sub_sub_cancel] at hadjusts
    · exact sub_nonneg.2 hle

theorem penalize_takes {acc acc' : State W × ℤ} {juror : Address} (hs : acc.1.Solvent)
    (hbps : acc.1.settings.config.nonRevealSlashBps ≤ 10000)
    (hx : penalize acc juror = .ok acc') :
    Takes (· = juror) (acc'.2 - acc.2) acc.1 acc'.1 := by
  simp only [penalize, bind_eq_ok, okOr_eq_ok, checkedAdd_eq_some, pure_eq_ok] at hx
  obtain ⟨s₁, hstrike, ⟨s₂, amount⟩, hslash, _, ⟨rfl, -⟩, rfl⟩ := hx
  have hfirst := strike_takes hs hstrike (· = juror)
  have hsettings : s₁.settings = acc.1.settings := by rw [hfirst.state]
  rw [hsettings] at hslash
  have hsecond := slashJuror_takes hfirst.solvent hbps hslash
  have hboth := hfirst.trans hsecond
  rw [zero_add] at hboth
  show Takes _ (acc.2 + amount - acc.2) _ _
  rwa [add_sub_cancel_left]

theorem penalize_stakeOf {acc acc' : State W × ℤ} {juror : Address} (hs : acc.1.Solvent)
    (hx : penalize acc juror = .ok acc') :
    acc'.1.stakeOf juror =
      afterSlash (acc.1.stakeOf juror) acc.1.settings.config.nonRevealSlashBps := by
  simp only [penalize, bind_eq_ok, okOr_eq_ok, checkedAdd_eq_some, pure_eq_ok] at hx
  obtain ⟨s₁, hstrike, ⟨s₂, amount⟩, hslash, _, ⟨rfl, -⟩, rfl⟩ := hx
  have hfirst := strike_takes hs hstrike fun _ => False
  have hsettings : s₁.settings = acc.1.settings := by rw [hfirst.state]
  rw [hsettings] at hslash
  rw [← hfirst.frame juror id]
  exact slashJuror_stakeOf hslash

theorem foldlM_takes {α : Type} {step : State W × ℤ → α → Res (State W × ℤ)} {settings : Settings}
    (touched : Address → Prop) : ∀ (xs : List α) (acc acc' : State W × ℤ),
    (∀ x ∈ xs, ∀ acc acc' : State W × ℤ, acc.1.Solvent → acc.1.settings = settings →
      step acc x = .ok acc' → Takes touched (acc'.2 - acc.2) acc.1 acc'.1) →
    acc.1.Solvent → acc.1.settings = settings → xs.foldlM step acc = .ok acc' →
      Takes touched (acc'.2 - acc.2) acc.1 acc'.1 := by
  intro xs
  induction xs with
  | nil =>
    intro acc acc' _ hs _ hx
    rw [List.foldlM_nil, pure_eq_ok] at hx
    subst hx
    rw [sub_self]
    exact .refl touched hs
  | cons x xs ih =>
    intro acc acc' hstep hs hsettings hx
    rw [List.foldlM_cons, bind_eq_ok] at hx
    obtain ⟨acc₁, hturn, hrest⟩ := hx
    have hfirst := hstep x List.mem_cons_self acc acc₁ hs hsettings hturn
    have hsettings₁ : acc₁.1.settings = settings := by rw [hfirst.state, ← hsettings]
    have hsteps := fun y hy => hstep y (List.mem_cons_of_mem x hy)
    have hboth := hfirst.trans (ih acc₁ acc' hsteps hfirst.solvent hsettings₁ hrest)
    rwa [sub_add_sub_cancel'] at hboth

theorem foldlM_stakeOf {α : Type} {step : State W × ℤ → α → Res (State W × ℤ)} {settings : Settings}
    (key : α → Address) (change : α → ℤ → ℤ) : ∀ (xs : List α) (acc acc' : State W × ℤ),
    (∀ x ∈ xs, ∀ acc acc' : State W × ℤ, acc.1.Solvent → acc.1.settings = settings →
      step acc x = .ok acc' → Takes (· = key x) (acc'.2 - acc.2) acc.1 acc'.1 ∧
        acc'.1.stakeOf (key x) = change x (acc.1.stakeOf (key x))) →
    acc.1.Solvent → acc.1.settings = settings → (xs.map key).Nodup →
    xs.foldlM step acc = .ok acc' →
      ∀ x ∈ xs, acc'.1.stakeOf (key x) = change x (acc.1.stakeOf (key x)) := by
  intro xs
  induction xs with
  | nil =>
    intro acc acc' _ _ _ _ _ x hx
    cases hx
  | cons first xs ih =>
    intro acc acc' hstep hs hsettings hnodup hx x hmem
    rw [List.map_cons, List.nodup_cons] at hnodup
    rw [List.foldlM_cons, bind_eq_ok] at hx
    obtain ⟨acc₁, hturn, hrest⟩ := hx
    obtain ⟨hfirst, hchange⟩ := hstep first List.mem_cons_self acc acc₁ hs hsettings hturn
    have hsettings₁ : acc₁.1.settings = settings := by rw [hfirst.state, ← hsettings]
    have hsteps := fun y hy => hstep y (List.mem_cons_of_mem first hy)
    have hothers : Takes (· ∈ xs.map key) (acc'.2 - acc₁.2) acc₁.1 acc'.1 := by
      refine foldlM_takes _ xs acc₁ acc' (fun y hy b b' hb hbs hstep' => ?_) hfirst.solvent hsettings₁
        hrest
      refine (hsteps y hy b b' hb hbs hstep').1.mono fun a ha => ?_
      rw [ha]
      exact List.mem_map_of_mem hy
    rcases List.mem_cons.1 hmem with rfl | hmem
    · rw [hothers.frame _ hnodup.1, hchange]
    · have hne : key x ≠ key first := fun heq => hnodup.1 (heq ▸ List.mem_map_of_mem hmem)
      rw [ih acc₁ acc' hsteps hfirst.solvent hsettings₁ hnodup.2 hrest x hmem, hfirst.frame _ hne]

theorem applyNonRevealPenalties_takes {jurors : List Address} {pool : ℤ} (hs : s.Solvent)
    (hbps : s.settings.config.nonRevealSlashBps ≤ 10000)
    (hx : applyNonRevealPenalties s jurors = .ok (s', pool)) : Takes (· ∈ jurors) pool s s' := by
  have htakes := foldlM_takes (· ∈ jurors) jurors (s, 0) (s', pool) ?_ hs rfl hx
  · simpa using htakes
  · intro juror hjuror acc acc' hsolvent hsettings hturn
    refine (penalize_takes hsolvent (hsettings ▸ hbps) hturn).mono fun a ha => ?_
    rwa [ha]

theorem applyNonRevealPenalties_stakeOf {jurors : List Address} {pool : ℤ} (hs : s.Solvent)
    (hbps : s.settings.config.nonRevealSlashBps ≤ 10000) (hnodup : jurors.Nodup)
    (hx : applyNonRevealPenalties s jurors = .ok (s', pool)) :
    ∀ a ∈ jurors, s'.stakeOf a = afterSlash (s.stakeOf a) s.settings.config.nonRevealSlashBps := by
  refine foldlM_stakeOf id (fun _ stake => afterSlash stake s.settings.config.nonRevealSlashBps)
    jurors (s, 0) (s', pool) ?_ hs rfl (by rwa [List.map_id]) hx
  intro juror hjuror acc acc' hsolvent hsettings hturn
  rw [← hsettings] at hbps ⊢
  exact ⟨penalize_takes hsolvent hbps hturn, penalize_stakeOf hsolvent hturn⟩

/-- What a counted vote leaves of a stake. -/
def afterVote (slashBps : ℕ) (outcome lopsided : Bool) (vote : Address × Bool) (stake : ℤ) : ℤ :=
  afterSlash stake (if vote.2 ≠ outcome ∧ lopsided = true then slashBps else 0)

theorem settleVote_stakeOf {acc acc' : State W × ℤ} {outcome lopsided : Bool} {vote : Address × Bool}
    (hs : acc.1.Solvent) (hx : settleVote outcome lopsided acc vote = .ok acc') :
    acc'.1.stakeOf vote.1 =
      afterVote acc.1.settings.config.slashBps outcome lopsided vote (acc.1.stakeOf vote.1) := by
  unfold settleVote at hx
  unfold afterVote
  split_ifs at hx with hvote hlopsided
  · simp only [bind_eq_ok, pure_eq_ok] at hx
    obtain ⟨s₁, hbump, rfl⟩ := hx
    rw [if_neg fun hboth => hboth.1 hvote, afterSlash_zero]
    exact (bumpCasesServed_takes hs hbump fun _ => False).frame vote.1 id
  · simp only [bind_eq_ok, okOr_eq_ok, checkedAdd_eq_some, pure_eq_ok] at hx
    obtain ⟨⟨s₁, amount⟩, hslash, _, ⟨rfl, -⟩, rfl⟩ := hx
    rw [if_pos ⟨hvote, hlopsided⟩]
    exact slashJuror_stakeOf hslash
  · rw [pure_eq_ok] at hx
    rw [if_neg fun hboth => hlopsided hboth.2, afterSlash_zero, hx]

theorem settleVote_takes {acc acc' : State W × ℤ} {outcome lopsided : Bool} {vote : Address × Bool}
    (hs : acc.1.Solvent) (hbps : acc.1.settings.config.slashBps ≤ 10000)
    (hx : settleVote outcome lopsided acc vote = .ok acc') :
    Takes (fun a => a = vote.1 ∧ vote.2 ≠ outcome) (acc'.2 - acc.2) acc.1 acc'.1 := by
  unfold settleVote at hx
  split_ifs at hx with hvote hlopsided
  · simp only [bind_eq_ok, pure_eq_ok] at hx
    obtain ⟨s₁, hbump, rfl⟩ := hx
    rw [sub_self]
    exact bumpCasesServed_takes hs hbump _
  · simp only [bind_eq_ok, okOr_eq_ok, checkedAdd_eq_some, pure_eq_ok] at hx
    obtain ⟨⟨s₁, amount⟩, hslash, _, ⟨rfl, -⟩, rfl⟩ := hx
    have htakes := slashJuror_takes hs hbps hslash
    show Takes _ (acc.2 + amount - acc.2) _ _
    rw [add_sub_cancel_left]
    exact htakes.mono fun a ha => ⟨ha, hvote⟩
  · rw [pure_eq_ok] at hx
    subst hx
    rw [sub_self]
    exact .refl _ hs

/-! ## Paying -/

def State.weights (s : State W) (majority : List Address) : List ℤ := majority.map s.stakeOf

theorem addStake_eq_ok {total total' : ℤ} {juror : Address} (hx : addStake s total juror = .ok total') :
    total' = total + s.stakeOf juror := by
  unfold addStake at hx
  cases hget : s.jurors.get juror with
  | none =>
    simp only [hget, pure_eq_ok] at hx
    rw [← hx, State.stakeOf, Store.part_of_get_none hget, add_zero]
  | some info =>
    simp only [hget, okOr_eq_ok, checkedAdd_eq_some] at hx
    rw [hx.1, State.stakeOf, Store.part_of_get hget]

theorem foldlM_addStake : ∀ (majority : List Address) (total total' : ℤ),
    majority.foldlM (addStake s) total = .ok total' → total' = total + (s.weights majority).sum := by
  intro majority
  induction majority with
  | nil =>
    intro total total' hx
    rw [List.foldlM_nil, pure_eq_ok] at hx
    simp [State.weights, hx]
  | cons juror majority ih =>
    intro total total' hx
    rw [List.foldlM_cons, bind_eq_ok] at hx
    obtain ⟨total₁, hturn, hrest⟩ := hx
    rw [ih total₁ total' hrest, addStake_eq_ok hturn]
    simp only [State.weights, List.map_cons, List.sum_cons]
    ring

theorem payShare_adjusts {pool totalStake : ℤ} {juror : Address} (hs : s.Solvent) (hpool : 0 ≤ pool)
    (htotal : 0 ≤ totalStake) (hx : payShare pool totalStake s juror = .ok s') :
    Adjusts (· = juror) (-ProRata.share pool totalStake (s.stakeOf juror)) s s' ∧ s'.Solvent ∧
      ∀ a, s.stakeOf a ≤ s'.stakeOf a := by
  unfold payShare at hx
  cases hget : s.jurors.get juror with
  | none =>
    simp only [hget, pure_eq_ok] at hx
    subst hx
    rw [State.stakeOf, Store.part_of_get_none hget, ProRata.share, mul_zero, Int.zero_tdiv, neg_zero]
    exact ⟨.refl _ s, hs, fun _ => le_rfl⟩
  | some info =>
    simp only [hget, bind_eq_ok, okOr_eq_ok, checkedMul_eq_some, checkedAdd_eq_some, pure_eq_ok] at hx
    obtain ⟨_, ⟨rfl, -⟩, _, ⟨rfl, -⟩, rfl⟩ := hx
    have hstake : s.stakeOf juror = info.stakeAmount := Store.part_of_get hget
    have hnn : 0 ≤ info.stakeAmount := hstake ▸ hs juror
    have hshare : 0 ≤ (pool * info.stakeAmount).tdiv totalStake :=
      ProRata.share_nonneg hpool htotal hnn
    have hadjusts := adjusts_setJuror { info with
      stakeAmount := info.stakeAmount + (pool * info.stakeAmount).tdiv totalStake } hget rfl rfl
    rw [sub_add_cancel_left] at hadjusts
    refine ⟨?_, solvent_setJuror _ hs (add_nonneg hnn hshare), fun a => ?_⟩
    · rwa [hstake, ProRata.share]
    · by_cases ha : a = juror
      · rw [ha, hstake, stakeOf_setJuror]
        exact le_add_of_nonneg_right hshare
      · exact (hadjusts.frame a ha).ge

/-- The shares that jurors with these weights are paid. -/
def shares (pool : ℤ) (totalStake : ℤ) (weights : List ℤ) : ℤ :=
  (weights.map (ProRata.share pool totalStake)).sum

theorem foldlM_payShare {pool totalStake : ℤ} (hpool : 0 ≤ pool) (htotal : 0 ≤ totalStake) :
    ∀ (majority : List Address) (s s' : State W), majority.Nodup → s.Solvent →
      majority.foldlM (payShare pool totalStake) s = .ok s' →
      Adjusts (· ∈ majority) (-shares pool totalStake (s.weights majority)) s s' ∧ s'.Solvent ∧
        ∀ a, s.stakeOf a ≤ s'.stakeOf a := by
  intro majority
  induction majority with
  | nil =>
    intro s s' _ hs hx
    rw [List.foldlM_nil, pure_eq_ok] at hx
    subst hx
    exact ⟨.refl _ s, hs, fun _ => le_rfl⟩
  | cons juror majority ih =>
    intro s s' hnodup hs hx
    obtain ⟨hfresh, hnodup⟩ := List.nodup_cons.1 hnodup
    rw [List.foldlM_cons, bind_eq_ok] at hx
    obtain ⟨s₁, hturn, hrest⟩ := hx
    obtain ⟨hfirst, hs₁, hgrows⟩ := payShare_adjusts hs hpool htotal hturn
    obtain ⟨hothers, hs', hgrows'⟩ := ih s₁ s' hnodup hs₁ hrest
    have hweights : s₁.weights majority = s.weights majority := by
      refine List.map_congr_left fun a ha => hfirst.frame a ?_
      rintro rfl
      exact hfresh ha
    refine ⟨?_, hs', fun a => (hgrows a).trans (hgrows' a)⟩
    rw [hweights] at hothers
    have hboth := (hfirst.mono fun a (ha : a = juror) => List.mem_cons.2 (.inl ha)).trans
      (hothers.mono fun a ha => List.mem_cons_of_mem juror ha)
    rw [← neg_add] at hboth
    exact hboth

/-- What the majority is paid: at most the pool, and of a positive total stake all but the rounding. -/
structure Pays (majority : List Address) (pool paid : ℤ) (s s' : State W) : Prop
    extends Adjusts (· ∈ majority) (-paid) s s' where
  solvent : s'.Solvent
  grows : ∀ a, s.stakeOf a ≤ s'.stakeOf a
  le : paid ≤ pool
  lt : 0 < (s.weights majority).sum → pool < paid + majority.length

theorem weights_nonneg (hs : s.Solvent) (majority : List Address) :
    ∀ weight ∈ s.weights majority, 0 ≤ weight := by
  intro weight hweight
  obtain ⟨a, -, rfl⟩ := List.mem_map.1 hweight
  exact hs a

theorem rewardMajority_pays {majority : List Address} {pool : ℤ} (hs : s.Solvent)
    (hnodup : majority.Nodup) (hpool : 0 ≤ pool) (hx : rewardMajority s majority pool = .ok s') :
    ∃ paid, Pays majority pool paid s s' := by
  have hunpaid : ∀ hsame : s = s', (0 < (s.weights majority).sum → pool < majority.length) →
      ∃ paid, Pays majority pool paid s s' := by
    rintro rfl hlt
    refine ⟨0, ⟨neg_zero (G := ℤ) ▸ .refl _ s, hs, fun _ => le_rfl, hpool, fun hpos => ?_⟩⟩
    rw [zero_add]
    exact hlt hpos
  unfold rewardMajority at hx
  split_ifs at hx with hempty
  · refine hunpaid ((pure_eq_ok _ _).1 hx) fun hpos => ?_
    have hne : majority ≠ [] := by
      rintro rfl
      simp [State.weights] at hpos
    have hlength := List.length_pos_of_ne_nil hne
    have hzero := hempty.resolve_right hne
    omega
  · rw [bind_eq_ok] at hx
    obtain ⟨totalStake, hsum, hx⟩ := hx
    have htotal := foldlM_addStake majority 0 totalStake hsum
    rw [zero_add] at htotal
    split_ifs at hx with hzero
    · exact hunpaid ((pure_eq_ok _ _).1 hx) fun hpos => by omega
    · have hpos : 0 < (s.weights majority).sum := by omega
      obtain ⟨hadjusts, hs', hgrows⟩ := foldlM_payShare hpool (by omega) majority s s' hnodup hs hx
      have hnn := weights_nonneg hs majority
      obtain ⟨hle, hlt⟩ := ProRata.sum_shares_bounds hpool hnn hpos
      rw [htotal] at hadjusts
      refine ⟨_, ⟨hadjusts, hs', hgrows, hle, fun _ => ?_⟩⟩
      rwa [State.weights, List.length_map] at hlt

/-! ## The whole settlement -/

section Verdict

variable (s : State W) (caseId : ℕ) (jurors : List Address)

/-- Whether the votes that are counted favor the debtor. -/
def State.outcome : Bool :=
  decide (favor false (s.revealed caseId jurors) < favor true (s.revealed caseId jurors))

/-- The jurors whose vote the outcome follows. -/
def State.majority : List Address :=
  ((s.revealed caseId jurors).filter fun vote => vote.2 = s.outcome caseId jurors).map Prod.fst

/-- Whether the outcome is clear enough to slash the minority. -/
def State.lopsided : Bool :=
  decide (s.settings.config.lopsidedConfidenceBps ≤
    favor (s.outcome caseId jurors) (s.revealed caseId jurors) * 10000 /
      (s.revealed caseId jurors).length)

/-- The share of its stake that a member of the committee loses. -/
def State.slashRate (a : Address) : ℕ :=
  match s.revealedVote caseId a with
  | none => s.settings.config.nonRevealSlashBps
  | some choice =>
    if s.settings.config.quorumFloor ≤ (s.revealed caseId jurors).length ∧
        choice ≠ s.outcome caseId jurors ∧ s.lopsided caseId jurors = true then
      s.settings.config.slashBps
    else 0

/-- What a settlement leaves of a stake at least. -/
def State.floor (a : Address) : ℤ :=
  if a ∈ jurors then afterSlash (s.stakeOf a) (s.slashRate caseId jurors a) else s.stakeOf a

def State.verdict : DisputeResolution :=
  if s.outcome caseId jurors then .InFavorOfDebtor else .InFavorOfSME

end Verdict

variable {caseId : ℕ} {jurors : List Address}

theorem mem_revealed {a : Address} {choice : Bool} :
    (a, choice) ∈ s.revealed caseId jurors ↔ a ∈ jurors ∧ s.revealedVote caseId a = some choice := by
  simp only [State.revealed, List.mem_filterMap, Option.map_eq_some_iff, Prod.mk.injEq]
  constructor
  · rintro ⟨a, hmem, choice, hvote, rfl, rfl⟩
    exact ⟨hmem, hvote⟩
  · rintro ⟨hmem, hvote⟩
    exact ⟨a, hmem, choice, hvote, rfl, rfl⟩

theorem nodup_revealed (hnodup : jurors.Nodup) :
    ((s.revealed caseId jurors).map Prod.fst).Nodup := by
  have hsublist : ((s.revealed caseId jurors).map Prod.fst).Sublist jurors := by
    clear hnodup
    induction jurors with
    | nil => exact List.Sublist.refl _
    | cons juror jurors ih =>
      unfold State.revealed at ih ⊢
      rw [List.filterMap_cons]
      cases hvote : s.revealedVote caseId juror with
      | none => exact ih.cons juror
      | some choice => exact ih.cons_cons juror
  exact hsublist.nodup hnodup

theorem nodup_majority (hnodup : jurors.Nodup) : (s.majority caseId jurors).Nodup :=
  (List.filter_sublist.map Prod.fst).nodup (nodup_revealed hnodup)

theorem mem_majority {a : Address} :
    a ∈ s.majority caseId jurors ↔
      a ∈ jurors ∧ s.revealedVote caseId a = some (s.outcome caseId jurors) := by
  simp only [State.majority, List.mem_map, List.mem_filter, decide_eq_true_eq, Prod.exists,
    mem_revealed]
  constructor
  · rintro ⟨a, choice, ⟨⟨hmem, hvote⟩, rfl⟩, rfl⟩
    exact ⟨hmem, hvote⟩
  · rintro ⟨hmem, hvote⟩
    exact ⟨a, _, ⟨⟨hmem, hvote⟩, rfl⟩, rfl⟩

/-- What a settlement did to the stakes: together they did not grow, and if the majority had stake,
all that was taken came back to it but for the rounding. -/
structure Settles (majority : List Address) (floor : Address → ℤ) (s s' : State W) : Prop where
  standing : ∀ a, s'.standing a = s.standing a
  solvent : s'.Solvent
  keeps : ∀ a, floor a ≤ s'.stakeOf a
  le : s'.staked ≤ s.staked
  lt : 0 < (s.weights majority).sum → s.staked - s'.staked < majority.length

theorem Takes.settles {touched : Address → Prop} {pool paid : ℤ} {majority : List Address}
    {floor : Address → ℤ} (htakes : Takes touched pool s s₁) (hfloor : ∀ a, floor a ≤ s₁.stakeOf a)
    (hmajority : ∀ a ∈ majority, ¬ touched a) (hpays : Pays majority pool paid s₁ s') :
    Settles majority floor s s' := by
  have hweights : s₁.weights majority = s.weights majority :=
    List.map_congr_left fun a ha => htakes.frame a (hmajority a ha)
  have htaken := htakes.staked
  have hpaid := hpays.staked
  have hle := hpays.le
  refine ⟨fun a => ?_, hpays.solvent, fun a => ?_, by omega, fun hpos => ?_⟩
  · rw [hpays.standing, htakes.standing]
  · exact (hfloor a).trans (hpays.grows a)
  · have hlt := hpays.lt (hweights ▸ hpos)
    omega

theorem Takes.settles_nil {touched : Address → Prop} {pool : ℤ} {floor : Address → ℤ}
    (htakes : Takes touched pool s s') (hfloor : ∀ a, floor a ≤ s'.stakeOf a) :
    Settles [] floor s s' := by
  have htaken := htakes.staked
  have hnn := htakes.nonneg
  exact ⟨htakes.standing, htakes.solvent, hfloor, by omega, fun hpos => absurd hpos (lt_irrefl 0)⟩

def State.finalizedCase (s : State W) (caseId : ℕ) (case : DisputeCase) : DisputeCase :=
  if (s.revealed caseId case.jurors).length < s.settings.config.quorumFloor then
    { case with status := .NoQuorumEscalated }
  else { case with status := .Resolved, resolution := s.verdict caseId case.jurors }

def State.winners (s : State W) (caseId : ℕ) (jurors : List Address) : List Address :=
  if (s.revealed caseId jurors).length < s.settings.config.quorumFloor then []
  else s.majority caseId jurors

/-- A case is finalized: only it and the records of jurors are rewritten. -/
structure Finalizes (s : State W) (caseId : ℕ) (case : DisputeCase) (s' : State W) : Prop where
  get : s.cases.get caseId = some case
  status : case.status = .CommitReveal
  closed : case.revealDeadline < s.now
  state : s' = { s with
    world := s'.world
    jurors := s'.jurors
    cases := s.cases.set caseId (s.finalizedCase caseId case) }
  settles : Settles (s.winners caseId case.jurors) (s.floor caseId case.jurors) s s'

theorem callInvoiceResolve_eq (h : Host W) (s : State W) (invoiceId : ℕ)
    (resolution : DisputeResolution) :
    ∃ world, callInvoiceResolve h s invoiceId resolution = { s with world := world } := by
  unfold callInvoiceResolve
  split
  · exact ⟨_, rfl⟩
  · exact ⟨s.world, rfl⟩

theorem Settles.of_jurors {majority : List Address} {floor : Address → ℤ} {s'' : State W}
    (hs : Settles majority floor s s') (hjurors : s''.jurors = s'.jurors) :
    Settles majority floor s s'' := by
  have hstaked : s''.staked = s'.staked := congrArg (Store.total _) hjurors
  refine ⟨fun a => ?_, fun a => ?_, fun a => ?_, ?_, ?_⟩
  · rw [← hs.standing, State.standing, hjurors]
    rfl
  · rw [State.stakeOf, hjurors]
    exact hs.solvent a
  · rw [State.stakeOf, hjurors]
    exact hs.keeps a
  · rw [hstaked]
    exact hs.le
  · rw [hstaked]
    exact hs.lt

theorem penalties_stakeOf {pool : ℤ} (hs : s.Solvent) (hvalid : s.settings.Valid)
    (hnodup : jurors.Nodup)
    (hx : applyNonRevealPenalties s (s.nonRevealers caseId jurors) = .ok (s', pool)) (a : Address) :
    s'.stakeOf a = if a ∈ s.nonRevealers caseId jurors then
      afterSlash (s.stakeOf a) s.settings.config.nonRevealSlashBps else s.stakeOf a := by
  split_ifs with ha
  · exact applyNonRevealPenalties_stakeOf hs hvalid.nonRevealSlashBps (hnodup.filter _) hx a ha
  · exact (applyNonRevealPenalties_takes hs hvalid.nonRevealSlashBps hx).frame a ha

theorem mem_nonRevealers {a : Address} :
    a ∈ s.nonRevealers caseId jurors ↔ a ∈ jurors ∧ s.revealedVote caseId a = none := by
  simp [State.nonRevealers]

theorem floor_of_no_quorum (hquorum : (s.revealed caseId jurors).length < s.settings.config.quorumFloor)
    (a : Address) :
    s.floor caseId jurors a = if a ∈ s.nonRevealers caseId jurors then
      afterSlash (s.stakeOf a) s.settings.config.nonRevealSlashBps else s.stakeOf a := by
  unfold State.floor State.slashRate
  simp only [mem_nonRevealers]
  cases hvote : s.revealedVote caseId a with
  | none => simp
  | some choice => simp [Nat.not_le.2 hquorum, afterSlash_zero]

/-- What the loop over the votes does, from the state that the penalties leave. -/
structure SettlesVotes (s : State W) (caseId : ℕ) (jurors : List Address) (pool : ℤ) (s₁ : State W)
    (pool' : ℤ) (s' : State W) : Prop where
  takes : Takes (· ∉ s.majority caseId jurors) (pool' - pool) s₁ s'
  frame : ∀ a, (a ∈ jurors → s.revealedVote caseId a = none) → s'.stakeOf a = s₁.stakeOf a
  slash : ∀ a ∈ jurors, ∀ choice, s.revealedVote caseId a = some choice →
    s'.stakeOf a = afterVote s.settings.config.slashBps (s.outcome caseId jurors)
      (s.lopsided caseId jurors) (a, choice) (s₁.stakeOf a)

theorem foldlM_settleVote {pool pool' : ℤ} (hs : s₁.Solvent) (hvalid : s.settings.Valid)
    (hsettings : s₁.settings = s.settings) (hnodup : jurors.Nodup)
    (hx : (s.revealed caseId jurors).foldlM
      (settleVote (s.outcome caseId jurors) (s.lopsided caseId jurors)) (s₁, pool) =
        .ok (s', pool')) :
    SettlesVotes s caseId jurors pool s₁ pool' s' := by
  have hbps := hvalid.slashBps
  refine ⟨?_, fun a hnone => ?_, fun a hmem choice hvote => ?_⟩
  · refine foldlM_takes _ _ (s₁, pool) (s', pool') ?_ hs hsettings hx
    rintro ⟨juror, choice⟩ hvote acc acc' hsolvent hsame hturn
    refine (settleVote_takes hsolvent (hsame ▸ hbps) hturn).mono ?_
    rintro a ⟨rfl, hne⟩ hmajority
    have hchoice := (mem_revealed.1 hvote).2
    rw [(mem_majority.1 hmajority).2] at hchoice
    exact hne (Option.some.inj hchoice).symm
  · -- the juror has no vote that is counted
    have htakes := foldlM_takes (fun b => ∃ choice, (b, choice) ∈ s.revealed caseId jurors) _
      (s₁, pool) (s', pool') ?_ hs hsettings hx
    · refine htakes.frame a ?_
      rintro ⟨choice, hvote⟩
      obtain ⟨hmem, hchoice⟩ := mem_revealed.1 hvote
      rw [hnone hmem] at hchoice
      cases hchoice
    · rintro ⟨juror, choice⟩ hvote acc acc' hsolvent hsame hturn
      refine (settleVote_takes hsolvent (hsame ▸ hbps) hturn).mono ?_
      rintro b ⟨rfl, -⟩
      exact ⟨choice, hvote⟩
  · refine foldlM_stakeOf Prod.fst (afterVote s.settings.config.slashBps (s.outcome caseId jurors)
      (s.lopsided caseId jurors)) _ (s₁, pool) (s', pool') ?_ hs hsettings (nodup_revealed hnodup) hx
      (a, choice) (mem_revealed.2 ⟨hmem, hvote⟩)
    intro vote _ acc acc' hsolvent hsame hturn
    rw [← hsame] at hbps ⊢
    refine ⟨(settleVote_takes hsolvent hbps hturn).mono fun b hb => hb.1, ?_⟩
    exact settleVote_stakeOf hsolvent hturn

theorem floor_of_quorum {pool pool' : ℤ} {s₂ : State W}
    (hquorum : ¬ (s.revealed caseId jurors).length < s.settings.config.quorumFloor)
    (hpenalties : ∀ a, s₁.stakeOf a = if a ∈ s.nonRevealers caseId jurors then
      afterSlash (s.stakeOf a) s.settings.config.nonRevealSlashBps else s.stakeOf a)
    (hvotes : SettlesVotes s caseId jurors pool s₁ pool' s₂) (a : Address) :
    s.floor caseId jurors a = s₂.stakeOf a := by
  have hpenalty := hpenalties a
  simp only [mem_nonRevealers] at hpenalty
  unfold State.floor State.slashRate
  by_cases hmem : a ∈ jurors
  · cases hvote : s.revealedVote caseId a with
    | none =>
      rw [hvotes.frame a fun _ => hvote, hpenalty]
      simp [hmem, hvote]
    | some choice =>
      rw [hvotes.slash a hmem choice hvote, hpenalty]
      simp [hmem, hvote, afterVote, Nat.not_lt.1 hquorum]
  · rw [hvotes.frame a fun hin => absurd hin hmem, hpenalty]
    simp [hmem]

theorem settleCase_eq_ok {h : Host W} {case : DisputeCase} {pool : ℤ} (hs : s.Solvent)
    (hvalid : s.settings.Valid) (hnodup : case.jurors.Nodup)
    (hquorum : ¬ (s.revealed caseId case.jurors).length < s.settings.config.quorumFloor)
    (hpenalties : applyNonRevealPenalties s (s.nonRevealers caseId case.jurors) = .ok (s₁, pool))
    (hx : settleCase h s₁ caseId case (s.revealed caseId case.jurors) pool = .ok s') :
    s' = { s with
      world := s'.world
      jurors := s'.jurors
      cases := s.cases.set caseId
        { case with status := .Resolved, resolution := s.verdict caseId case.jurors } } ∧
      Settles (s.majority caseId case.jurors) (s.floor caseId case.jurors) s s' := by
  have htakes := applyNonRevealPenalties_takes hs hvalid.nonRevealSlashBps hpenalties
  have hsettings : s₁.settings = s.settings := by rw [htakes.state]
  simp only [settleCase, bind_eq_ok, okOr_eq_ok, fitU_eq_some, pure_eq_ok, hsettings] at hx
  obtain ⟨_, ⟨rfl, -⟩, ⟨s₂, pool₂⟩, hloop, s₃, hreward, hs'⟩ := hx
  have hvotes : SettlesVotes s caseId case.jurors pool s₁ pool₂ s₂ :=
    foldlM_settleVote htakes.solvent hvalid hsettings hnodup hloop
  -- neither loop takes from the majority
  have hfirst : Takes (· ∉ s.majority caseId case.jurors) pool s s₁ := by
    refine htakes.mono fun a ha hmajority => ?_
    have hnone := (mem_nonRevealers.1 ha).2
    rw [(mem_majority.1 hmajority).2] at hnone
    cases hnone
  have hboth := hfirst.trans hvotes.takes
  rw [add_sub_cancel] at hboth
  have hfloor := floor_of_quorum hquorum (penalties_stakeOf hs hvalid hnodup hpenalties) hvotes
  have hmajority : (s.majority caseId case.jurors).Nodup := nodup_majority hnodup
  obtain ⟨paid, hpays⟩ := rewardMajority_pays hboth.solvent hmajority hboth.nonneg hreward
  obtain ⟨world, hworld⟩ := callInvoiceResolve_eq h
    (s₃.setCase caseId { case with status := .Resolved, resolution := s.verdict caseId case.jurors })
    case.invoiceId (s.verdict caseId case.jurors)
  have hresult := hs'.symm.trans hworld
  have hjurors : s'.jurors = s₃.jurors := by rw [hresult]; rfl
  have hstate : s₃ = { s with jurors := s₃.jurors } := by rw [hpays.state, hboth.state]
  have hsettles := hboth.settles (fun a => (hfloor a).le) (fun a ha hnot => hnot ha) hpays
  refine ⟨?_, hsettles.of_jurors hjurors⟩
  rw [hresult, hstate]
  rfl

theorem finalizeCase_eq_ok {h : Host W} (hs : s.Solvent) (hvalid : s.settings.Valid)
    (hnodup : ∀ case, s.cases.get caseId = some case → case.status = .CommitReveal →
      case.jurors.Nodup)
    (hx : finalizeCase h s caseId = .ok s') : ∃ case, Finalizes s caseId case s' := by
  simp only [finalizeCase, bind_eq_ok, exists_unit, requireNotPaused_eq_ok, loadCase_eq_ok,
    require_eq_ok] at hx
  obtain ⟨-, case, hget, hstatus, hclosed, ⟨s₁, pool⟩, hpenalties, hx⟩ := hx
  have hnodup := hnodup case hget hstatus
  have htakes := applyNonRevealPenalties_takes hs hvalid.nonRevealSlashBps hpenalties
  have hsettings : s₁.settings = s.settings := by rw [htakes.state]
  rw [hsettings] at hx
  suffices hdone : s' = { s with
        world := s'.world
        jurors := s'.jurors
        cases := s.cases.set caseId (s.finalizedCase caseId case) } ∧
      Settles (s.winners caseId case.jurors) (s.floor caseId case.jurors) s s' from
    ⟨case, hget, hstatus, hclosed, hdone.1, hdone.2⟩
  unfold State.finalizedCase State.winners
  split_ifs at hx ⊢ with hquorum
  · rw [pure_eq_ok] at hx
    subst hx
    have hfloor : ∀ a, s.floor caseId case.jurors a ≤ s₁.stakeOf a := fun a => by
      rw [floor_of_no_quorum hquorum, penalties_stakeOf hs hvalid hnodup hpenalties]
    refine ⟨?_, (htakes.settles_nil hfloor).of_jurors rfl⟩
    rw [htakes.state]
    rfl
  · exact settleCase_eq_ok hs hvalid hnodup hquorum hpenalties hx

end Astera.Arbitration
