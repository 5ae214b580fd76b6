import Astera.Compliance.Events
import Astera.Indexer.Events
import Astera.Lib.StableSort
import Astera.Oracle.Events

/-!
# Replays of contract state

The endpoints of the indexer and the tracker of the oracle service rebuild what a contract stores
from its events.  How an event travels to them is a `Rendering`, which keeps ids, addresses and
statuses apart.
-/

namespace Astera.Indexer

open Js Js.Value
open Oracle (RoundStatus)

/-! ## `GET /oracle-registry/rounds/:invoiceId` -/

/-- Why there is no answer. -/
inductive ApiFault
  | notFound
  /-- More than `MAX_REPLAY_EVENTS` events match. -/
  | tooManyEvents
  deriving DecidableEq, Repr

def idText : Value → Option String
  | .null | .arr _ | .obj => none
  | v => some v.text

def extractInvoiceId : Value → Option String
  | .arr items => idText (item items 0)
  | v => idText v

def roundApproved : Value → Bool
  | .arr items => 2 ≤ items.length && (item items 1).truthy
  | _ => false

def consensusStatus (approved : Bool) : RoundStatus :=
  if approved then .ConsensusApproved else .ConsensusRejected

def roundStatus (evt : IndexedEvent) : Option RoundStatus :=
  match evt.eventType with
  | "rnd_open" => some .Open
  | "consensus" | "fallback" => some (consensusStatus (roundApproved evt.value))
  | "rnd_exp" => some .Expired
  | _ => none

/-- The status that the endpoint derives from the rows of the registry; without one it is `Unknown`.
The rows are those that all pages together have. -/
def getRound (maxReplayEvents : ℕ) (rows : List IndexedEvent) (invoiceId : String) :
    Except ApiFault (Option RoundStatus) :=
  if maxReplayEvents < rows.length then .error .tooManyEvents
  else
    let matching := StableSort.ascending (·.ledgerSequence)
      (rows.filter fun evt => extractInvoiceId evt.value = some invoiceId)
    if matching.isEmpty then .error .notFound
    else .ok (matching.foldl (fun status evt => (roundStatus evt).or status) none)

structure FlaggedAddress where
  address : String
  status : String
  deriving DecidableEq, Repr

def screening : Value → FlaggedAddress
  | .arr items => ⟨((item items 0).orElse (.str "")).text, ((item items 1).orElse (.str "")).text⟩
  | _ => ⟨"", ""⟩

/-- A row is added to those found so far. -/
def noteFlagged (latest : List FlaggedAddress) (evt : IndexedEvent) : List FlaggedAddress :=
  let found := screening evt.value
  if found.address = "" then latest
  else if found.status ≠ "Flagged" ∧ found.status ≠ "Blocked" then latest
  -- the rows come with the newest first, and the first one is kept
  else if latest.any fun entry => entry.address = found.address then latest
  else latest ++ [found]

def getFlagged (limit : ℕ) (rows : List IndexedEvent) : List FlaggedAddress :=
  (rows.take limit).foldl noteFlagged []

/-- `ConsensusTracker`, with the status of each round. -/
structure ConsensusTracker where
  oraclePublicKey : String
  rounds : String → Option RoundStatus := fun _ => none
  votedByMe : List String := []
  paused : Bool := false

namespace ConsensusTracker

variable (t : ConsensusTracker)

def asArray : Value → List Value
  | .arr items => items
  | v => [v]

def upsert (invoiceId : String) (status : RoundStatus) : ConsensusTracker :=
  { t with rounds := Function.update t.rounds invoiceId (some status) }

def handleEvent (topic2 : String) (value : Value) : ConsensusTracker :=
  let invoiceId := (item (asArray value) 0).text
  match topic2 with
  | "paused" => { t with paused := true }
  | "unpaused" => { t with paused := false }
  | "rnd_open" => t.upsert invoiceId .Open
  | "voted" =>
    let voted :=
      if (item (asArray value) 1).text = t.oraclePublicKey then
        { t with votedByMe := t.votedByMe.insert invoiceId }
      else t
    voted.upsert invoiceId ((t.rounds invoiceId).getD .Open)
  | "consensus" | "fallback" =>
    t.upsert invoiceId (consensusStatus (item (asArray value) 1).truthy)
  | "rnd_exp" => t.upsert invoiceId .Expired
  | _ => t

def hasVoted (invoiceId : String) : Bool := invoiceId ∈ t.votedByMe

end ConsensusTracker

/-! ## Events as values -/

/-- How what the events have in them travels. -/
structure Rendering where
  id : ℕ → Value
  address : Address → Value
  number : ℤ → Value
  status : Compliance.ComplianceStatus → Value
  id_idText : ∀ n, idText (id n) = some (id n).text
  id_injective : ∀ m n, (id m).text = (id n).text → m = n
  address_idText : ∀ a, idText (address a) = some (address a).text
  address_injective : ∀ a b, (address a).text = (address b).text → a = b
  address_ne_empty : ∀ a, (address a).text ≠ ""
  id_ne_address : ∀ n a, (id n).text ≠ (address a).text
  status_ne_null : ∀ s, status s ≠ .null
  status_text : ∀ s, (status s).text =
    match s with
    | .Unscreened => "Unscreened"
    | .Cleared => "Cleared"
    | .Flagged => "Flagged"
    | .Blocked => "Blocked"
    | .PendingReview => "PendingReview"

section Rendering

variable (r : Rendering)

/-- The second topic of an event of the registry. -/
def roundTopic : Oracle.Event → String
  | .rndOpen _ _ _ => "rnd_open"
  | .voted _ _ _ _ => "voted"
  | .consensus _ _ => "consensus"
  | .rndExp _ => "rnd_exp"
  | .fallback _ _ _ => "fallback"
  | .notice topic _ => topic

def Rendering.roundValue : Oracle.Event → Value
  | .rndOpen invoiceId activeCount totalStake =>
    .arr [r.id invoiceId, r.number activeCount, r.number totalStake]
  | .voted invoiceId oracle approved weight =>
    .arr [r.id invoiceId, r.address oracle, .bool approved, r.number weight]
  | .consensus invoiceId approved => .arr [r.id invoiceId, .bool approved]
  | .rndExp invoiceId => r.id invoiceId
  | .fallback invoiceId approved caller => .arr [r.id invoiceId, .bool approved, r.address caller]
  | .notice _ first => r.address first

/-- The second topic of an event of the compliance registry. -/
def screeningTopic : Compliance.Event → String
  | .screened _ _ _ _ _ => "screened"
  | .review _ _ _ => "review"

def Rendering.screeningValue : Compliance.Event → Value
  | .screened address status reasonCode screener expiresAt =>
    .arr [r.address address, r.status status, r.number reasonCode, r.address screener,
      r.number expiresAt]
  | .review address caller wasCleared => .arr [r.address address, r.address caller, .bool wasCleared]

/-- The tracker of a node that was fed with some events. -/
def Rendering.tracker (me : Address) (events : List Oracle.Event) : ConsensusTracker :=
  events.foldl (fun t e => t.handleEvent (roundTopic e) (r.roundValue e))
    { oraclePublicKey := (r.address me).text }

def ofRegistry (row : IndexedEvent) : Bool := row.contractType = "oracle_registry"

def ofScreenings (row : IndexedEvent) : Bool :=
  row.contractType = "compliance" && row.eventType = "screened"

def IndexedEvent.seen (row : IndexedEvent) : ℕ × String × Value :=
  (row.ledgerSequence, row.eventType, row.value)

/-- All events of the registry are in the table, and it has no other rows of the registry. -/
def Rendering.IndexesRounds (table : List IndexedEvent) (log : Oracle.Log) : Prop :=
  ((table.filter ofRegistry).map IndexedEvent.seen).Perm
    (log.map fun x => (x.1, roundTopic x.2, r.roundValue x.2))

/-- All screenings are in the table, and it has no other rows of screenings. -/
def Rendering.IndexesScreenings (table : List IndexedEvent) (log : Compliance.Log) : Prop :=
  ((table.filter ofScreenings).map IndexedEvent.seen).Perm
    ((log.filter fun x => screeningTopic x.2 = "screened").map fun x =>
      (x.1, screeningTopic x.2, r.screeningValue x.2))

end Rendering

end Astera.Indexer
