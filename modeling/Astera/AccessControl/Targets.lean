import Astera.AccessControl.Proposals
import Astera.Compliance.System
import Astera.Oracle.System
import Astera.Pool.Settings
import Astera.Referral.Contract

/-!
# The contracts that an executed proposal reaches

The pool, the compliance registry, the referral registry and the oracle registry answer the
entrypoints with the suffix `_via_ac`.  A call is looked up by its name at the target address, so a
name that two contracts share reaches whichever is the target.
-/

namespace Astera.AccessControl

open Fallible Machine

variable {V : Type}
variable {accessControl : Address} {invocation : Invocation}

inductive Pausable
  | pool | compliance | referral | oracle
  deriving DecidableEq, Repr

/-- The contracts beside the access control contract; `others` is the world of the pool and of the
oracle registry. -/
structure Neighbours (V : Type) where
  pool : Pool.State V
  compliance : Compliance.State
  referral : Referral.Registry
  oracle : Oracle.State V
  others : V

def Neighbours.paused (w : Neighbours V) : Pausable → Bool
  | .pool => w.pool.params.paused
  | .compliance => w.compliance.paused
  | .referral => w.referral.paused
  | .oracle => w.oracle.settings.paused

structure Deployment (V : Type) where
  self : Address
  pool : Pool.Host V
  compliance : Address
  referral : Address
  oracle : Oracle.Host V
  invokeOther : V → Address → Address → Invocation → Option V
  distinct : [self, pool.self, compliance, referral, oracle.self].Nodup

def Deployment.address (d : Deployment V) : Pausable → Address
  | .pool => d.pool.self
  | .compliance => d.compliance
  | .referral => d.referral
  | .oracle => d.oracle.self

def invokePool (h : Pool.Host V) (accessControl : Address) (s : Pool.State V) (invocation : Invocation) :
    Option (Pool.State V) :=
  let write (params : Pool.Res Pool.Params) : Option (Pool.State V) :=
    params.toOption.map fun params => { s with params := params }
  match invocation with
  | .setPausedViaAc paused => write (Pool.setPausedViaAc [accessControl] s accessControl paused)
  | .setYieldViaAc bps => write (Pool.setYieldViaAc [accessControl] s accessControl bps)
  | .setTreasuryViaAc (some treasury) =>
    write (Pool.setTreasuryViaAc [accessControl] s accessControl treasury)
  | .withdrawRevenueViaAc token amount =>
    (Pool.withdrawRevenueViaAc h [accessControl] s accessControl token amount).toOption
  | .setOracleContractViaAc oracle =>
    write (Pool.setOracleContractViaAc [accessControl] s accessControl oracle)
  | .setKycRequiredViaAc required =>
    write (Pool.setKycRequiredViaAc [accessControl] s accessControl required)
  | .setInvestorKycViaAc investor approved =>
    write (Pool.setInvestorKycViaAc h [accessControl] s accessControl investor approved)
  | .setMaxUtilizationViaAc bps =>
    write (Pool.setMaxUtilizationViaAc [accessControl] s accessControl bps)
  | _ => none

def invokeCompliance (accessControl : Address) (s : Compliance.State) :
    Invocation → Option Compliance.State
  | .setPausedViaAc paused =>
    (Compliance.setPausedViaAc [accessControl] s accessControl paused).toOption
  | .registerScreenerViaAc screener =>
    (Compliance.registerScreenerViaAc [accessControl] s accessControl screener).toOption
  | .confirmScreenerViaAc screener =>
    (Compliance.confirmScreenerViaAc [accessControl] s accessControl screener).toOption
  | .deregisterScreenerViaAc screener =>
    (Compliance.deregisterScreenerViaAc [accessControl] s accessControl screener).toOption
  | .setRescreeningIntervalViaAc secs =>
    (Compliance.setRescreeningIntervalViaAc [accessControl] s accessControl secs).toOption
  | .setScreenerTimelockViaAc secs =>
    (Compliance.setScreenerTimelockViaAc [accessControl] s accessControl secs).toOption
  | .setAccessControlViaAc newAccessControl =>
    (Compliance.setAccessControlViaAc [accessControl] s accessControl newAccessControl).toOption
  | _ => none

def invokeReferral (accessControl : Address) (r : Referral.Registry) :
    Invocation → Option Referral.Registry
  | .setPausedViaAc paused =>
    (Referral.setPausedViaAc [accessControl] r accessControl paused).toOption
  | .setPoolViaAc pool => (Referral.setPoolViaAc [accessControl] r accessControl pool).toOption
  | .setBorrowRewardBpsViaAc bps =>
    (Referral.setBorrowRewardBpsViaAc [accessControl] r accessControl bps).toOption
  | .setDepositRewardBpsViaAc bps =>
    (Referral.setDepositRewardBpsViaAc [accessControl] r accessControl bps).toOption
  | .setAccessControlViaAc newAccessControl =>
    (Referral.setAccessControlViaAc [accessControl] r accessControl newAccessControl).toOption
  | _ => none

def invokeOracle (h : Oracle.Host V) (accessControl : Address) (s : Oracle.State V)
    (invocation : Invocation) : Option (Oracle.State V) :=
  let write (settings : Oracle.Res Oracle.Settings) : Option (Oracle.State V) :=
    settings.toOption.map fun settings => { s with settings := settings }
  match invocation with
  | .setPausedViaAc paused =>
    write (Oracle.setPausedViaAc [accessControl] s.settings accessControl paused)
  | .setInvoiceContractViaAc invoiceContract =>
    write (Oracle.setInvoiceContractViaAc [accessControl] s.settings accessControl invoiceContract)
  | .setTreasuryViaAc treasury =>
    write (Oracle.setTreasuryViaAc [accessControl] s.settings accessControl treasury)
  | .setRegistryConfigViaAc minStake votes quorumBps duration cooldown =>
    write (Oracle.setRegistryConfigViaAc [accessControl] s.settings accessControl minStake votes
      quorumBps duration cooldown)
  | .slashOracleViaAc operator bps roundId evidence =>
    (Oracle.slashOracleViaAc h [accessControl] s accessControl operator bps roundId
      evidence).toOption
  | .adminResolveRoundViaAc invoiceId approved _ =>
    (Oracle.adminResolveRoundViaAc h [accessControl] s accessControl invoiceId approved).toOption
  | .setAccessControlViaAc newAccessControl =>
    write (Oracle.setAccessControlViaAc [accessControl] s.settings accessControl newAccessControl)
  | _ => none

/-- A call of whatever contract stands at the target address. -/
def Deployment.invoke (d : Deployment V) (w : Neighbours V) (accessControl target : Address)
    (invocation : Invocation) : Option (Neighbours V) :=
  if target = d.pool.self then
    (invokePool d.pool accessControl { w.pool with world := w.others } invocation).map fun s =>
      { w with pool := s, others := s.world }
  else if target = d.compliance then
    (invokeCompliance accessControl w.compliance invocation).map fun s => { w with compliance := s }
  else if target = d.referral then
    (invokeReferral accessControl w.referral invocation).map fun r => { w with referral := r }
  else if target = d.oracle.self then
    (invokeOracle d.oracle accessControl { w.oracle with world := w.others } invocation).map fun s =>
      { w with oracle := s, others := s.world }
  else
    (d.invokeOther w.others accessControl target invocation).map fun v => { w with others := v }

def Deployment.host (d : Deployment V) : Host (Neighbours V) where
  self := d.self
  invoke := d.invoke

/-- The position into which a call puts the switch of its contract. -/
def Invocation.pauses : Invocation → Option Bool
  | .setPausedViaAc paused => some paused
  | _ => none

theorem invokePool_paused {h : Pool.Host V} {s s' : Pool.State V}
    (hx : invokePool h accessControl s invocation = some s') :
    s'.params.paused = invocation.pauses.getD s.params.paused := by
  have hwrite {params : Pool.Res Pool.Params} {paused : Bool}
      (hw : (params.toOption.map fun params => { s with params := params }) = some s')
      (hpaused : ∀ p, params = .ok p → p.paused = paused) : s'.params.paused = paused := by
    obtain ⟨p, hp, rfl⟩ := Option.map_eq_some_iff.1 hw
    exact hpaused p (toOption_eq_some.1 hp)
  unfold invokePool at hx
  split at hx
  case h_4 token amount =>
    obtain ⟨treasury, -, -, rfl⟩ :=
      Pool.payRevenue_eq_ok (Pool.withdrawRevenueViaAc_eq_ok (toOption_eq_some.1 hx))
    rfl
  case h_9 => cases hx
  all_goals
    refine hwrite hx fun p hp => ?_
    simp only [Pool.setPausedViaAc, Pool.setYieldViaAc, Pool.writeYield, Pool.setTreasuryViaAc,
      Pool.setOracleContractViaAc, Pool.setKycRequiredViaAc, Pool.setInvestorKycViaAc,
      Pool.writeInvestorKyc, Pool.setMaxUtilizationViaAc, Pool.write_eq_ok, Pool.writeIf_eq_ok,
      bind_eq_ok, exists_unit, pure_eq_ok] at hp
    grind [Invocation.pauses, Pool.Params.updateConfigField]

theorem invokeCompliance_paused {s s' : Compliance.State}
    (hx : invokeCompliance accessControl s invocation = some s') :
    s'.paused = invocation.pauses.getD s.paused := by
  have hkeeps (call : Compliance.Call) (hset : ∀ setting, call ≠ .set setting)
      (hcall : (Compliance.exec s ⟨[accessControl], call⟩).toOption = some s') :
      s'.paused = s.paused := (Compliance.exec_effect (toOption_eq_some.1 hcall)).paused hset
  cases invocation with
  | registerScreenerViaAc screener =>
    exact hkeeps (.registerScreenerViaAc accessControl screener) (by simp) hx
  | confirmScreenerViaAc screener =>
    exact hkeeps (.confirmScreenerViaAc accessControl screener) (by simp) hx
  | deregisterScreenerViaAc screener =>
    exact hkeeps (.deregisterScreenerViaAc accessControl screener) (by simp) hx
  | setPausedViaAc | setRescreeningIntervalViaAc | setScreenerTimelockViaAc | setAccessControlViaAc =>
    simp only [invokeCompliance, toOption_eq_some, Compliance.setPausedViaAc,
      Compliance.setRescreeningIntervalViaAc, Compliance.setScreenerTimelockViaAc,
      Compliance.setAccessControlViaAc, bind_eq_ok, exists_unit, pure_eq_ok] at hx
    grind [Invocation.pauses]
  | _ => cases hx

theorem invokeReferral_paused {r r' : Referral.Registry}
    (hx : invokeReferral accessControl r invocation = some r') :
    r'.paused = invocation.pauses.getD r.paused := by
  cases invocation with
  | setPausedViaAc | setPoolViaAc | setBorrowRewardBpsViaAc | setDepositRewardBpsViaAc
  | setAccessControlViaAc =>
    simp only [invokeReferral, toOption_eq_some, Referral.setPausedViaAc, Referral.setPoolViaAc,
      Referral.setBorrowRewardBpsViaAc, Referral.setDepositRewardBpsViaAc,
      Referral.setAccessControlViaAc, bind_eq_ok, exists_unit, pure_eq_ok] at hx
    grind [Invocation.pauses]
  | _ => cases hx

theorem invokeOracle_paused {h : Oracle.Host V} {s s' : Oracle.State V}
    (hx : invokeOracle h accessControl s invocation = some s') :
    s'.settings.paused = invocation.pauses.getD s.settings.paused := by
  cases invocation with
  | slashOracleViaAc operator bps roundId evidence =>
    simp only [invokeOracle, toOption_eq_some, Oracle.slashOracleViaAc, bind_eq_ok,
      exists_unit] at hx
    obtain ⟨info, -, -, -, rfl⟩ := Oracle.slashOracleInternal_eq_ok hx.2
    rfl
  | adminResolveRoundViaAc invoiceId approved reason =>
    simp only [invokeOracle, toOption_eq_some, Oracle.adminResolveRoundViaAc, bind_eq_ok,
      exists_unit] at hx
    obtain ⟨round, -, -, -, hfinal⟩ := Oracle.adminResolveRoundInternal_eq_ok hx.2
    obtain ⟨contract, world, -, -, rfl⟩ := Oracle.finalizeOnInvoice_eq_ok.1 hfinal
    rfl
  | setPausedViaAc | setInvoiceContractViaAc | setTreasuryViaAc | setRegistryConfigViaAc
  | setAccessControlViaAc =>
    simp only [invokeOracle, toOption_eq_some, Option.map_eq_some_iff, Oracle.setPausedViaAc,
      Oracle.setInvoiceContractViaAc, Oracle.setTreasuryViaAc, Oracle.setRegistryConfigViaAc,
      Oracle.writeRegistryConfig, Oracle.setAccessControlViaAc, bind_eq_ok, exists_unit,
      pure_eq_ok] at hx
    grind [Invocation.pauses]
  | _ => cases hx

theorem Deployment.address_injective (d : Deployment V) : Function.Injective d.address := by
  have hdistinct := d.distinct
  simp only [List.nodup_cons, List.mem_cons, List.not_mem_nil, or_false, not_or] at hdistinct
  intro c c' heq
  cases c <;> cases c' <;> first | rfl | exact absurd heq (by simp only [address]; tauto)

theorem Deployment.address_ne_self (d : Deployment V) (c : Pausable) : d.address c ≠ d.self := by
  have hdistinct := d.distinct
  simp only [List.nodup_cons, List.mem_cons, List.not_mem_nil, or_false, not_or] at hdistinct
  cases c <;> simp only [address] <;> tauto

theorem Deployment.invoke_paused {d : Deployment V} {w w' : Neighbours V}
    {accessControl target : Address} (hx : d.invoke w accessControl target invocation = some w')
    (c : Pausable) :
    w'.paused c =
      if target = d.address c then invocation.pauses.getD (w.paused c) else w.paused c := by
  -- the contract at the target is found once, and its switch is the only one written
  have hfound (c₀ : Pausable) (htarget : target = d.address c₀)
      (hown : w'.paused c₀ = invocation.pauses.getD (w.paused c₀))
      (hothers : ∀ c, c ≠ c₀ → w'.paused c = w.paused c) :
      w'.paused c =
        if target = d.address c then invocation.pauses.getD (w.paused c) else w.paused c := by
    by_cases hc : c = c₀
    · rw [hc, if_pos htarget, hown]
    · have hne : target ≠ d.address c := by
        rw [htarget]
        exact fun heq => hc (d.address_injective heq).symm
      rw [if_neg hne, hothers c hc]
  unfold Deployment.invoke at hx
  split_ifs at hx with hpool hcompliance hreferral horacle
  · obtain ⟨s, hs, rfl⟩ := Option.map_eq_some_iff.1 hx
    have hown := invokePool_paused hs
    refine hfound .pool hpool hown fun c hc => ?_
    cases c <;> first | exact absurd rfl hc | rfl
  · obtain ⟨s, hs, rfl⟩ := Option.map_eq_some_iff.1 hx
    refine hfound .compliance hcompliance (invokeCompliance_paused hs) fun c hc => ?_
    cases c <;> first | exact absurd rfl hc | rfl
  · obtain ⟨r, hr, rfl⟩ := Option.map_eq_some_iff.1 hx
    refine hfound .referral hreferral (invokeReferral_paused hr) fun c hc => ?_
    cases c <;> first | exact absurd rfl hc | rfl
  · obtain ⟨s, hs, rfl⟩ := Option.map_eq_some_iff.1 hx
    have hown := invokeOracle_paused hs
    refine hfound .oracle horacle hown fun c hc => ?_
    cases c <;> first | exact absurd rfl hc | rfl
  · obtain ⟨v, -, rfl⟩ := Option.map_eq_some_iff.1 hx
    have hne : target ≠ d.address c := by
      cases c <;> assumption
    rw [if_neg hne]
    cases c <;> rfl

end Astera.AccessControl
