import Astera.Indexer.Events
import Astera.Lib.Store
import Astera.Lib.Transition

/-!
# Derived tables

`recomputeTrancheApy` and `recomputeSmeRiskSignals` go once over the events of their kind, add up
per token or per SME, and write one row for each.  The column `updated_at` is left out.
-/

namespace Astera.Indexer

open Fallible Js Js.Value

/-- `toBigInt`: what is no integer counts as zero. -/
def toBigInt (v : Value) : ℤ := (bigInt (v.orElse (.num "0")).text).getD 0

/-- Why a statement failed: an `INTEGER` column does not take the number. -/
inductive DbFault
  | integerOutOfRange
  deriving DecidableEq, Repr

/-- The numbers of an `INTEGER` column. -/
def FitsInteger (n : ℤ) : Prop := -(2 : ℤ) ^ 31 ≤ n ∧ n < 2 ^ 31

instance (n : ℤ) : Decidable (FitsInteger n) := inferInstanceAs (Decidable (_ ∧ _))

/-! ## `tranche_apy` -/

inductive TrancheClass
  | Senior | Junior
  deriving DecidableEq, Repr

/-- `Acc` of `recomputeTrancheApy`. -/
structure TrancheAcc where
  principal : ℤ := 0
  ret : ℤ := 0
  closed : ℕ := 0
  deriving DecidableEq, Repr

def TrancheAcc.close (acc : TrancheAcc) (principal ret : ℤ) : TrancheAcc :=
  ⟨acc.principal + principal, acc.ret + ret, acc.closed + 1⟩

structure TrancheBucket where
  senior : TrancheAcc := {}
  junior : TrancheAcc := {}
  deriving DecidableEq, Repr

/-- `b[cls]`. -/
def TrancheBucket.of (b : TrancheBucket) : TrancheClass → TrancheAcc
  | .Senior => b.senior
  | .Junior => b.junior

/-- The kinds of events that the loop tells apart. -/
inductive TrancheKind
  | fund | repay | default
  deriving DecidableEq, Repr

structure TrancheEvent where
  kind : TrancheKind
  invoiceId : String
  token : String
  first : ℤ
  second : ℤ
  deriving DecidableEq, Repr

def trancheKind : String → Option TrancheKind
  | "fund" => some .fund
  | "repay" => some .repay
  | "default" => some .default
  | _ => none

def readTranche (evt : IndexedEvent) : Option TrancheEvent :=
  match evt.value with
  | .arr v =>
    if v.length < 4 then none
    else (trancheKind evt.eventType).map fun kind =>
      ⟨kind, (item v 0).text, (item v 1).text, toBigInt (item v 2), toBigInt (item v 3)⟩
  | _ => none

structure Deployed where
  token : String
  senior : ℤ
  junior : ℤ
  deriving DecidableEq, Repr

/-- `agg` and `deployed`. -/
structure TrancheFold where
  agg : Store String TrancheBucket := ∅
  deployed : Store String Deployed := ∅

namespace TrancheFold

variable (x : TrancheFold)

def bucket (token : String) : TrancheBucket := (x.agg.get token).getD {}

def turn (e : TrancheEvent) : TrancheFold :=
  let b := x.bucket e.token
  match e.kind with
  | .fund => { x with deployed := x.deployed.set e.invoiceId ⟨e.token, e.first, e.second⟩ }
  | .repay =>
    match x.deployed.get e.invoiceId with
    | none => x
    | some dep =>
      { agg := x.agg.set e.token
          ⟨b.senior.close dep.senior (e.first - dep.senior),
            b.junior.close dep.junior (e.second - dep.junior)⟩
        deployed := x.deployed.remove e.invoiceId }
  | .default =>
    -- the tuple of a default has the junior loss first
    let dep := x.deployed.get e.invoiceId
    { agg := x.agg.set e.token
        ⟨b.senior.close ((dep.map (·.senior)).getD e.second) (-e.second),
          b.junior.close ((dep.map (·.junior)).getD e.first) (-e.first)⟩
      deployed := x.deployed.remove e.invoiceId }

end TrancheFold

/-- The loop over the rows. -/
def foldTranches (rows : List IndexedEvent) : TrancheFold :=
  (rows.filterMap readTranche).foldl TrancheFold.turn {}

/-- A row of `tranche_apy`, apart from its key. -/
structure TrancheApyRow where
  realizedPrincipal : ℤ
  realizedReturn : ℤ
  closedPositions : ℕ
  realizedApyBps : ℤ
  deriving DecidableEq, Repr

def trancheRow (acc : TrancheAcc) : TrancheApyRow where
  realizedPrincipal := acc.principal
  realizedReturn := acc.ret
  closedPositions := acc.closed
  realizedApyBps := if 0 < acc.principal then (acc.ret * 10000).tdiv acc.principal else 0

/-- `tranche_apy`. -/
abbrev TrancheTable := Store (String × TrancheClass) TrancheApyRow

/-- The two statements for a token. -/
def upsertTranches (table : TrancheTable) (entry : Sigma fun _ : String => TrancheBucket) :
    Except DbFault TrancheTable :=
  [TrancheClass.Senior, .Junior].foldlM (fun table cls => do
    let row := trancheRow (entry.2.of cls)
    require (FitsInteger row.closedPositions ∧ FitsInteger row.realizedApyBps) .integerOutOfRange
    return table.set (entry.1, cls) row) table

/-- `LIMIT 100000`. -/
def rowLimit : ℕ := 100000

/-- `recomputeTrancheApy`, with the answer to its query; a statement that fails undoes all of them.
-/
def recomputeTrancheApy (table : TrancheTable) (rows : List IndexedEvent) :
    Except DbFault TrancheTable :=
  (foldTranches (rows.take rowLimit)).agg.entries.foldlM upsertTranches table

/-! ## `sme_risk_signals` -/

/-- `Acc` of `recomputeSmeRiskSignals`. -/
structure SmeAcc where
  total : ℤ := 0
  amounts : List ℤ := []
  byDebtor : Store String ℤ := ∅

/-- What the loop reads of an event. -/
structure CreatedInvoice where
  owner : String
  amount : ℤ
  debtor : String
  deriving DecidableEq, Repr

def readCreated (evt : IndexedEvent) : Option CreatedInvoice :=
  match evt.value with
  | .arr v =>
    let owner := ((item v 1).orElse (.str "")).text
    if v.length < 2 ∨ owner = "" then none
    else some ⟨owner, toBigInt (item v 2),
      if 5 < v.length then ((item v 5).orElse (.str "unknown")).text else "unknown"⟩
  | _ => none

def SmeAcc.add (acc : SmeAcc) (invoice : CreatedInvoice) : SmeAcc where
  total := acc.total + invoice.amount
  amounts := acc.amounts ++ [invoice.amount]
  byDebtor := acc.byDebtor.set invoice.debtor
    ((acc.byDebtor.get invoice.debtor).getD 0 + invoice.amount)

def addCreated (bySme : Store String SmeAcc) (invoice : CreatedInvoice) : Store String SmeAcc :=
  bySme.set invoice.owner (((bySme.get invoice.owner).getD {}).add invoice)

/-- The loop over the rows. -/
def foldCreated (rows : List IndexedEvent) : Store String SmeAcc :=
  (rows.filterMap readCreated).foldl addCreated ∅

/-- A row of `sme_risk_signals`, apart from its key. -/
structure SmeRiskSignalRow where
  debtorConcentrationBps : ℤ
  invoiceSizeRiskBps : ℤ
  totalVolume : ℤ
  deriving DecidableEq, Repr

def maxDebtorVolume (acc : SmeAcc) : ℤ :=
  acc.byDebtor.entries.foldl (fun largest entry => if largest < entry.2 then entry.2 else largest) 0

/-- The volume of the invoices of at least three times the mean. -/
def largeVolume (acc : SmeAcc) : ℤ :=
  let threshold := acc.total.tdiv acc.amounts.length * 3
  acc.amounts.foldl (fun volume amount => if threshold ≤ amount then volume + amount else volume) 0

/-- The row that is written for an accumulator, unless its total is zero. -/
def riskSignal (acc : SmeAcc) : Option SmeRiskSignalRow :=
  if acc.total = 0 then none
  else some {
    debtorConcentrationBps := (maxDebtorVolume acc * 10000).tdiv acc.total
    invoiceSizeRiskBps := (largeVolume acc * 10000).tdiv acc.total
    totalVolume := acc.total }

/-- `sme_risk_signals`. -/
abbrev SmeTable := Store String SmeRiskSignalRow

def upsertSme (table : SmeTable) (entry : Sigma fun _ : String => SmeAcc) : Except DbFault SmeTable :=
  match riskSignal entry.2 with
  | none => return table
  | some row => do
      require (FitsInteger row.debtorConcentrationBps ∧ FitsInteger row.invoiceSizeRiskBps)
        .integerOutOfRange
      return table.set entry.1 row

/-- `recomputeSmeRiskSignals`, with the answer to its query. -/
def recomputeSmeRiskSignals (table : SmeTable) (rows : List IndexedEvent) :
    Except DbFault SmeTable :=
  (foldCreated (rows.take rowLimit)).entries.foldlM upsertSme table

structure Database where
  events : List IndexedEvent := []
  trancheApy : TrancheTable := ∅
  smeRiskSignals : SmeTable := ∅

/-- `contract_type = 'tranche'`. -/
def ofTranches (row : IndexedEvent) : Bool := row.contractType = "tranche"

/-- `contract_type = 'invoice' AND event_type = 'created'`. -/
def ofCreated (row : IndexedEvent) : Bool :=
  row.contractType = "invoice" && row.eventType = "created"

/-- What can happen to the tables; a recomputation comes with the answer to its query. -/
inductive DbStep
  | storeEvents (events : List IndexedEvent)
  | rollbackFrom (fromLedger : ℕ)
  | recomputeTrancheApy (rows : List IndexedEvent)
  | recomputeSmeRiskSignals (rows : List IndexedEvent)

def DbStep.Answered (db : Database) : DbStep → Prop
  | .recomputeTrancheApy rows => AnswersAsc db.events ofTranches rows
  | .recomputeSmeRiskSignals rows => AnswersAsc db.events ofCreated rows
  | .storeEvents _ | .rollbackFrom _ => True

def execDb (db : Database) : DbStep → Except DbFault Database
  | .storeEvents events => .ok { db with events := storeEvents db.events events }
  | .rollbackFrom fromLedger => .ok { db with events := deleteFrom db.events fromLedger }
  | .recomputeTrancheApy rows =>
    (recomputeTrancheApy db.trancheApy rows).map fun table => { db with trancheApy := table }
  | .recomputeSmeRiskSignals rows =>
    (recomputeSmeRiskSignals db.smeRiskSignals rows).map fun table =>
      { db with smeRiskSignals := table }

end Astera.Indexer
