import Astera.AccessControl.Targets
import Astera.Messages.Senders

/-!
# Calls of access control, received

The four contracts do with a call of access control what they do with the values they decode from
it: the lookup by name and arguments agrees with `Deployment.invoke`, which knows the entrypoint.
-/

namespace Astera.Messages

open HostCall HostCall.Codec
open AccessControl (Invocation Pausable Neighbours Deployment invokePool invokeCompliance
  invokeReferral invokeOracle)

variable {V : Type}

def runPool (h : Pool.Host V) (signers : List Address) (s : Pool.State V) :
    Inbound → Option (Pool.State V)
  | .pool setting =>
    (Pool.applySetting h signers s setting).toOption.map fun params => { s with params := params }
  | .withdrawRevenueViaAc accessControl token amount =>
    (Pool.withdrawRevenueViaAc h signers s accessControl token amount).toOption
  | _ => none

def runCompliance (signers : List Address) (s : Compliance.State) :
    Inbound → Option Compliance.State
  | .compliance setting => (Compliance.applySetting signers s setting).toOption
  | .registerScreenerViaAc accessControl screener =>
    (Compliance.registerScreenerViaAc signers s accessControl screener).toOption
  | .confirmScreenerViaAc accessControl screener =>
    (Compliance.confirmScreenerViaAc signers s accessControl screener).toOption
  | .deregisterScreenerViaAc accessControl screener =>
    (Compliance.deregisterScreenerViaAc signers s accessControl screener).toOption
  | _ => none

def runReferral (signers : List Address) (r : Referral.Registry) : Inbound → Option Referral.Registry
  | .referral setting => (Referral.applySetting signers r setting).toOption
  | _ => none

def runOracle (h : Oracle.Host V) (signers : List Address) (s : Oracle.State V) :
    Inbound → Option (Oracle.State V)
  | .oracleRegistry setting =>
    (Oracle.applySetting signers s.settings setting).toOption.map fun settings =>
      { s with settings := settings }
  | .slashOracleViaAc accessControl operator bps roundId evidence =>
    (Oracle.slashOracleViaAc h signers s accessControl operator bps roundId evidence).toOption
  | .adminResolveRoundViaAc accessControl invoiceId approved _ =>
    (Oracle.adminResolveRoundViaAc h signers s accessControl invoiceId approved).toOption
  | _ => none

attribute [local simp] invocationCall dispatch_of_ne dispatch_nil

theorem invokePool_eq (h : Pool.Host V) (accessControl : Address) (s : Pool.State V)
    (invocation : Invocation) :
    invokePool h accessControl s invocation =
      (dispatch poolEntrypoints (invocationCall accessControl invocation)).bind
        (runPool h [accessControl] s) := by
  cases invocation with
  | setTreasuryViaAc treasury =>
    simp [poolEntrypoints]
    rw [dispatch_of_eq rfl (by decide)]
    cases treasury <;> rfl
  | setPausedViaAc | setYieldViaAc | withdrawRevenueViaAc | setOracleContractViaAc
  | setKycRequiredViaAc | setInvestorKycViaAc | setMaxUtilizationViaAc =>
    simp [poolEntrypoints]
    rw [dispatch_of_eq rfl (by decide)]
    rfl
  | _ =>
    simp [poolEntrypoints]
    rfl

theorem invokeCompliance_eq (accessControl : Address) (s : Compliance.State)
    (invocation : Invocation) :
    invokeCompliance accessControl s invocation =
      (dispatch complianceEntrypoints (invocationCall accessControl invocation)).bind
        (runCompliance [accessControl] s) := by
  cases invocation with
  | setPausedViaAc | registerScreenerViaAc | confirmScreenerViaAc | deregisterScreenerViaAc
  | setRescreeningIntervalViaAc | setScreenerTimelockViaAc | setAccessControlViaAc =>
    simp [complianceEntrypoints]
    rw [dispatch_of_eq rfl (by decide)]
    rfl
  | _ =>
    simp [complianceEntrypoints]
    rfl

theorem invokeReferral_eq (accessControl : Address) (r : Referral.Registry)
    (invocation : Invocation) :
    invokeReferral accessControl r invocation =
      (dispatch referralEntrypoints (invocationCall accessControl invocation)).bind
        (runReferral [accessControl] r) := by
  cases invocation with
  | setPausedViaAc | setPoolViaAc | setBorrowRewardBpsViaAc | setDepositRewardBpsViaAc
  | setAccessControlViaAc =>
    simp [referralEntrypoints]
    rw [dispatch_of_eq rfl (by decide)]
    rfl
  | _ =>
    simp [referralEntrypoints]
    rfl

theorem invokeOracle_eq (h : Oracle.Host V) (accessControl : Address) (s : Oracle.State V)
    (invocation : Invocation) :
    invokeOracle h accessControl s invocation =
      (dispatch oracleRegistryEntrypoints (invocationCall accessControl invocation)).bind
        (runOracle h [accessControl] s) := by
  cases invocation with
  | setTreasuryViaAc treasury =>
    simp [oracleRegistryEntrypoints]
    rw [dispatch_of_eq rfl (by decide), Args.decode_encode]
    rfl
  | setPausedViaAc | setInvoiceContractViaAc | setRegistryConfigViaAc | slashOracleViaAc
  | adminResolveRoundViaAc | setAccessControlViaAc =>
    simp [oracleRegistryEntrypoints]
    rw [dispatch_of_eq rfl (by decide)]
    rfl
  | _ =>
    simp [oracleRegistryEntrypoints]
    rfl

def entrypointsOf : Pausable → List (Entrypoint Inbound)
  | .pool => poolEntrypoints
  | .compliance => complianceEntrypoints
  | .referral => referralEntrypoints
  | .oracle => oracleRegistryEntrypoints

/-- What a contract with a switch does with a call of access control. -/
def receive (d : Deployment V) (w : Neighbours V) (accessControl : Address) (inbound : Inbound) :
    Pausable → Option (Neighbours V)
  | .pool =>
    (runPool d.pool [accessControl] { w.pool with world := w.others } inbound).map fun s =>
      { w with pool := s, others := s.world }
  | .compliance =>
    (runCompliance [accessControl] w.compliance inbound).map fun s => { w with compliance := s }
  | .referral =>
    (runReferral [accessControl] w.referral inbound).map fun r => { w with referral := r }
  | .oracle =>
    (runOracle d.oracle [accessControl] { w.oracle with world := w.others } inbound).map fun s =>
      { w with oracle := s, others := s.world }

/-- A call of access control is a message: the contract at the target decodes it by its name and
does what it decodes. -/
theorem invoke_eq_dispatch (d : Deployment V) (w : Neighbours V) (accessControl : Address)
    (invocation : Invocation) (c : Pausable) :
    d.invoke w accessControl (d.address c) invocation =
      (dispatch (entrypointsOf c) (invocationCall accessControl invocation)).bind fun inbound =>
        receive d w accessControl inbound c := by
  have hne (c₁ c₂ : Pausable) (h : c₁ ≠ c₂) : d.address c₁ ≠ d.address c₂ :=
    fun heq => h (d.address_injective heq)
  cases c with
  | pool =>
    simp only [Deployment.invoke, Deployment.address, if_true, invokePool_eq, Option.map_bind]
    rfl
  | compliance =>
    have hpool : d.compliance ≠ d.pool.self := hne .compliance .pool (by decide)
    simp only [Deployment.invoke, Deployment.address, hpool, if_true, if_false,
      invokeCompliance_eq, Option.map_bind]
    rfl
  | referral =>
    have hpool : d.referral ≠ d.pool.self := hne .referral .pool (by decide)
    have hcompliance : d.referral ≠ d.compliance := hne .referral .compliance (by decide)
    simp only [Deployment.invoke, Deployment.address, hpool, hcompliance, if_true, if_false,
      invokeReferral_eq, Option.map_bind]
    rfl
  | oracle =>
    have hpool : d.oracle.self ≠ d.pool.self := hne .oracle .pool (by decide)
    have hcompliance : d.oracle.self ≠ d.compliance := hne .oracle .compliance (by decide)
    have hreferral : d.oracle.self ≠ d.referral := hne .oracle .referral (by decide)
    simp only [Deployment.invoke, Deployment.address, hpool, hcompliance, hreferral, if_true,
      if_false, invokeOracle_eq, Option.map_bind]
    rfl

end Astera.Messages
