import Astera.Compliance.System

/-!
# What the compliance registry publishes

The events of a screening and of a review request, which are the only ones that tell the status of
an address; the others are left out.  In every run the last of them about an address tells the
status that is stored (`Told`).
-/

namespace Astera.Compliance

open Fallible Machine Transition

inductive Event
  | screened (address : Address) (status : ComplianceStatus) (reasonCode : ℕ) (screener : Address)
      (expiresAt : ℕ)
  | review (address caller : Address) (wasCleared : Bool)
  deriving DecidableEq, Repr

/-- `was_cleared` of `request_review`: whether an unexpired clearance is interrupted. -/
def State.wasCleared (s : State) (address : Address) : Bool :=
  match s.records.get address with
  | some record => record.status = .Cleared ∧ (record.expiresAt = 0 ∨ s.now < record.expiresAt)
  | none => false

def publishes (s : State) (tx : Tx) : List Event :=
  match tx.call with
  | .submitScreeningResult screener address status reasonCode _ expiresAt _ =>
    [.screened address status reasonCode screener
      (if expiresAt = 0 then saturatingAddU 64 s.now s.rescreeningInterval else expiresAt)]
  | .requestReview caller address _ => [.review address caller (s.wasCleared address)]
  | _ => []

/-- The events of a run with their ledgers, in the order in which they were published. -/
abbrev Log := List (ℕ × Event)

def execIn (s : State) (i : ℕ × Tx) : Res State := exec s i.2

def noteEvents (s : State) (i : ℕ × Tx) (_ : State) (log : Log) : Log :=
  log ++ (publishes s i.2).map fun e => (i.1, e)

/-- The ledgers follow each other. -/
def InOrder (x : State × Log) (i : ℕ × Tx) : Prop := ∀ e ∈ x.2, e.1 ≤ i.1

instance (x : State × Log) (i : ℕ × Tx) : Decidable (InOrder x i) :=
  inferInstanceAs (Decidable (∀ e ∈ x.2, e.1 ≤ i.1))

def Event.subject : Event → Address
  | .screened address _ _ _ _ | .review address _ _ => address

def Event.gives : Event → ComplianceStatus
  | .screened _ status _ _ _ => status
  | .review _ _ _ => .PendingReview

def replayStatus (a : Address) (events : List Event) : Option ComplianceStatus :=
  (events.filterMap fun e => if e.subject = a then some e.gives else none).getLast?

/-- The stored statuses are those that the events tell. -/
def Told (s : State) (events : List Event) : Prop := ∀ a, s.statusOf a = replayStatus a events

section Told

variable {s s' : State} {events : List Event}

theorem replayStatus_append (a : Address) (e : Event) :
    replayStatus a (events ++ [e]) =
      if e.subject = a then some e.gives else replayStatus a events := by
  unfold replayStatus
  rw [List.filterMap_append]
  split_ifs with ha
  · simp [ha]
  · simp [ha]

theorem Told.put (hs : Told s events) {record : ComplianceRecord} {e : Event}
    (hstatus : ∀ a, s'.statusOf a = (s.putRecord record).statusOf a)
    (hsubject : e.subject = record.address) (hgives : e.gives = record.status) :
    Told s' (events ++ [e]) := by
  intro a
  rw [hstatus, statusOf_putRecord, replayStatus_append, hsubject, hgives, hs a]
  simp only [eq_comm]

theorem Told.exec {tx : Tx} (hs : Told s events) (hx : exec s tx = .ok s') :
    Told s' (events ++ publishes s tx) := by
  obtain ⟨signers, call⟩ := tx
  cases call with
  | submitScreeningResult screener address status reasonCode riskTier expiresAt notesHash =>
    simp only [Compliance.exec, submitScreeningResult, bind_eq_ok, exists_unit, pure_eq_ok] at hx
    obtain ⟨-, -, -, -, -, -, rfl⟩ := hx
    exact hs.put (fun _ => rfl) rfl rfl
  | requestReview caller address reason =>
    simp only [Compliance.exec, requestReview, bind_eq_ok, exists_unit, pure_eq_ok] at hx
    obtain ⟨-, -, -, -, rfl⟩ := hx
    exact hs.put (fun _ => rfl) rfl rfl
  | _ =>
    have hkeeps : s'.records = s.records := by
      cases exec_effect hx with
      | screened hcall => cases hcall
      | reviewed hcall => cases hcall
      | configured hcall hsame => exact hsame.records
      | _ => rfl
    intro a
    rw [publishes, List.append_nil, ← hs a, State.statusOf, hkeeps, State.statusOf]

theorem told_run {now : ℕ} {admin : Address} {log : Log}
    (hrun : Reaches (track execIn noteEvents) InOrder (initializeCompliance now admin, []) (s, log)) :
    Told s (log.map Prod.snd) := by
  apply hrun.invariant (P := fun x => Told x.1 (x.2.map Prod.snd))
  · intro a
    rfl
  · intro x i x' hx _ hstep
    obtain ⟨hexec, hlog⟩ := (track_eq_ok _ _ _ _ _).1 hstep
    rw [hlog, noteEvents, List.map_append, List.map_map]
    simpa [Function.comp_def] using hx.exec hexec

end Told

end Astera.Compliance
