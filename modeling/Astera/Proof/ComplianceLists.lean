import Astera.Compliance.System

/-!
# The lists of the compliance registry

Four lists enumerate what the records say.  Each stays exact while it is below its cap; the list of
pending screeners has no eviction, so a registration that finds it full is stored but not listed.
-/

namespace Astera.Compliance

open Fallible Machine Transition Mirror

variable {s s' : State}

/-- The two lists of statuses have room. -/
def BelowCaps (s : State) : Prop :=
  s.flaggedIds.length < maxFlaggedList ∧ s.pendingReviewIds.length < maxPendingList

/-- A registration that has to wait finds room on the list of pending screeners. -/
def RoomToQueue (s : State) (tx : Tx) : Prop :=
  ∀ _screener ∈ tx.call.registers, s.screenerTimelockSecs ≠ 0 →
    s.pendingScreenerIds.length < maxScreenerList

instance (s : State) : Decidable (BelowCaps s) := inferInstanceAs (Decidable (_ ∧ _))

instance (s : State) (tx : Tx) : Decidable (RoomToQueue s tx) :=
  inferInstanceAs (Decidable (∀ _ ∈ tx.call.registers, _ → _))

structure Mirrored (s : State) : Prop where
  flagged : Mirrors s.flaggedIds s.Restricts
  pendingReview : Mirrors s.pendingReviewIds fun a => s.statusOf a = some .PendingReview
  screeners : Mirrors s.screenerIds fun a => s.hasScreener a = true
  pending : Mirrors s.pendingScreenerIds fun a => (s.pendingScreeners.get a).isSome = true
  named : ∀ a pending, s.pendingScreeners.get a = some pending → pending.address = a

theorem mirrored_initial (now : ℕ) (admin : Address) : Mirrored (initializeCompliance now admin) := by
  refine ⟨mirrors_nil ?_, mirrors_nil ?_, mirrors_nil ?_, mirrors_nil ?_, ?_⟩ <;> intro a
  · simp [State.Restricts, State.statusOf, initializeCompliance]
  · simp [State.statusOf, initializeCompliance]
  · simp [State.hasScreener, initializeCompliance]
  · simp [initializeCompliance]
  · intro pending hget
    simp [initializeCompliance] at hget

theorem flagged_putRecord (h : Mirrors s.flaggedIds s.Restricts)
    (hroom : s.flaggedIds.length < maxFlaggedList) (record : ComplianceRecord) :
    Mirrors (s.putRecord record).flaggedIds (s.putRecord record).Restricts := by
  rcases flaggedIds_putRecord s record with ⟨hstatus, hlist⟩ | ⟨hstatus, hlist⟩
  · rw [hlist, addToList_eq_add _ hroom]
    refine h.add fun a => ?_
    rw [restricts_putRecord]
    split_ifs with ha <;> simp [ha, hstatus]
  · rw [hlist, removeFromList_eq_drop]
    refine h.drop fun a => ?_
    rw [restricts_putRecord]
    split_ifs with ha <;> simp [ha, hstatus]

theorem pendingReview_putRecord
    (h : Mirrors s.pendingReviewIds fun a => s.statusOf a = some .PendingReview)
    (hroom : s.pendingReviewIds.length < maxPendingList) (record : ComplianceRecord) :
    Mirrors (s.putRecord record).pendingReviewIds
      fun a => (s.putRecord record).statusOf a = some .PendingReview := by
  rcases pendingReviewIds_putRecord s record with ⟨hstatus, hlist⟩ | ⟨hstatus, hlist⟩
  · rw [hlist, addToList_eq_add _ hroom]
    refine h.add fun a => ?_
    rw [statusOf_putRecord]
    split_ifs with ha <;> simp [ha, hstatus]
  · rw [hlist, removeFromList_eq_drop]
    refine h.drop fun a => ?_
    rw [statusOf_putRecord]
    split_ifs with ha <;> simp [ha, hstatus]

theorem Mirrored.putRecord (hs : Mirrored s) (hroom : BelowCaps s) (record : ComplianceRecord) :
    Mirrored (s.putRecord record) := by
  obtain ⟨hscreeners, hscreenerIds, hpending, hpendingIds, -⟩ := putRecord_frame s record
  refine ⟨flagged_putRecord hs.flagged hroom.1 record,
    pendingReview_putRecord hs.pendingReview hroom.2 record, ?_, ?_, ?_⟩
  · unfold State.hasScreener
    rw [hscreenerIds, hscreeners]
    exact hs.screeners
  · rw [hpendingIds, hpending]
    exact hs.pending
  · rw [hpending]
    exact hs.named

theorem Mirrored.activated (hs : Mirrored s) {screener : Address}
    (hnew : s.hasScreener screener = false) : Mirrored (s.activated screener) := by
  refine ⟨hs.flagged, hs.pendingReview, ?_, hs.pending, hs.named⟩
  refine hs.screeners.append (by simp [hnew]) fun a => ?_
  unfold State.hasScreener State.activated
  rw [Store.get_set]
  split_ifs with ha <;> simp [ha]

theorem Mirrored.queued (hs : Mirrored s) {screener : Address}
    (hroom : s.pendingScreenerIds.length < maxScreenerList) : Mirrored (s.queued screener) := by
  refine ⟨hs.flagged, hs.pendingReview, hs.screeners, ?_, ?_⟩
  · have hlist : (s.queued screener).pendingScreenerIds = add s.pendingScreenerIds screener :=
      addToList_eq_add screener hroom
    rw [hlist]
    refine hs.pending.add fun a => ?_
    unfold State.queued
    rw [Store.get_set]
    split_ifs with ha <;> simp [ha]
  · exact Store.forall_get_set hs.named rfl

theorem Mirrored.dropPending (hs : Mirrored s) (screener : Address) :
    Mirrored (s.dropPending screener) := by
  refine ⟨hs.flagged, hs.pendingReview, hs.screeners, hs.pending.drop fun a => ?_,
    fun a pending hget => hs.named a pending (Store.get_of_get_remove hget)⟩
  unfold State.dropPending
  rw [Store.get_remove]
  split_ifs with ha <;> simp [ha]

theorem Mirrored.dismissed (hs : Mirrored s) (screener : Address) :
    Mirrored (s.dismissed screener) := by
  refine ⟨hs.flagged, hs.pendingReview, hs.screeners.drop fun a => ?_, hs.pending, hs.named⟩
  unfold State.hasScreener State.dismissed
  rw [Store.get_remove]
  split_ifs with ha <;> simp [ha]

theorem Mirrored.same (hs : Mirrored s) (hsame : SameBooks s s') : Mirrored s' := by
  obtain ⟨-, hrecords, hscreeners, hscreenerIds, hpending, hpendingIds, hflagged, hreview⟩ := hsame
  constructor
  · unfold State.Restricts State.statusOf
    rw [hflagged, hrecords]
    exact hs.flagged
  · unfold State.statusOf
    rw [hreview, hrecords]
    exact hs.pendingReview
  · unfold State.hasScreener
    rw [hscreenerIds, hscreeners]
    exact hs.screeners
  · rw [hpendingIds, hpending]
    exact hs.pending
  · rw [hpending]
    exact hs.named

theorem mirrored_step {tx : Tx} (hs : Mirrored s) (hcaps : BelowCaps s) (hroom : RoomToQueue s tx)
    (hx : exec s tx = .ok s') : Mirrored s' := by
  cases exec_effect hx with
  | queued hcall hlock => exact hs.queued (hroom _ hcall hlock)
  | registered hcall hlock hnew => exact hs.activated hnew
  | @confirmed screener pending hcall hget hripe hnew => exact (hs.dropPending screener).activated hnew
  | dismissed => exact hs.dismissed _
  | cancelled => exact hs.dropPending _
  | @screened record =>
    have hput := hs.putRecord hcaps record
    exact ⟨hput.flagged, hput.pendingReview, hput.screeners, hput.pending, hput.named⟩
  | @reviewed record =>
    have hput := hs.putRecord hcaps record
    exact ⟨hput.flagged, hput.pendingReview, hput.screeners, hput.pending, hput.named⟩
  | configured hcall hsame => exact hs.same hsame
  | advanced => exact ⟨hs.flagged, hs.pendingReview, hs.screeners, hs.pending, hs.named⟩

theorem Mirrored.listPendingScreeners (hs : Mirrored s) :
    s.listPendingScreeners.Nodup ∧ ∀ pending, pending ∈ s.listPendingScreeners ↔
      ∃ a, s.pendingScreeners.get a = some pending := by
  unfold State.listPendingScreeners
  constructor
  · refine hs.pending.nodup.filterMap fun a b pending ha hb => ?_
    rw [← hs.named a pending ha, ← hs.named b pending hb]
  · intro pending
    rw [List.mem_filterMap]
    refine ⟨fun ⟨a, _, hget⟩ => ⟨a, hget⟩, fun ⟨a, hget⟩ => ⟨a, ?_, hget⟩⟩
    rw [hs.pending.mem_iff, hget]
    rfl

/-- In every run in which the two lists of statuses have room, and in which no registration has to wait
while the list of pending screeners is full, the four lists mirror the records. -/
theorem registries_mirror_records {now : ℕ} {admin : Address} {s : State}
    (hrun : Reaches exec (fun s tx => BelowCaps s ∧ RoomToQueue s tx)
      (initializeCompliance now admin) s) :
    Mirrors s.flaggedIds (fun a => s.statusOf a = some .Flagged ∨ s.statusOf a = some .Blocked) ∧
    Mirrors s.pendingReviewIds (fun a => s.statusOf a = some .PendingReview) ∧
    Mirrors s.screenerIds (fun a => (s.screeners.get a).isSome = true) ∧
    Mirrors (s.listPendingScreeners.map PendingScreener.address)
      (fun a => (s.pendingScreeners.get a).isSome = true) ∧
    Mirrors s.listPendingScreeners (fun pending => ∃ a, s.pendingScreeners.get a = some pending) := by
  have hs : Mirrored s :=
    hrun.invariant (mirrored_initial now admin) fun _ _ _ hs hok hx => mirrored_step hs hok.1 hok.2 hx
  obtain ⟨hnodup, hmem⟩ := hs.listPendingScreeners
  refine ⟨hs.flagged, hs.pendingReview, hs.screeners, ⟨?_, fun a => ?_⟩, hnodup, hmem⟩
  · refine hnodup.map_on fun p hp q hq heq => ?_
    obtain ⟨a, ha⟩ := (hmem p).1 hp
    obtain ⟨b, hb⟩ := (hmem q).1 hq
    rw [hs.named a p ha, hs.named b q hb] at heq
    rw [heq, hb] at ha
    exact (Option.some.inj ha).symm
  · rw [List.mem_map]
    constructor
    · rintro ⟨p, hp, rfl⟩
      obtain ⟨a, ha⟩ := (hmem p).1 hp
      rw [hs.named a p ha, ha]
      rfl
    · intro hsome
      obtain ⟨p, hget⟩ := Option.isSome_iff_exists.1 hsome
      exact ⟨p, (hmem p).2 ⟨a, hget⟩, hs.named a p hget⟩

/-- A screener is registered and confirmed, flags 8 and clears 9; 9 is reported, and another screener
waits. -/
def sampleScreenings : List Tx :=
  [⟨[1], .registerScreener 1 5⟩,
    ⟨[], .advance 90000⟩,
    ⟨[1], .confirmScreenerRegistration 1 5⟩,
    ⟨[5], .submitScreeningResult 5 8 .Flagged 3 .High 0 [1]⟩,
    ⟨[5], .submitScreeningResult 5 9 .Cleared 0 .Low 0 [1]⟩,
    ⟨[7], .requestReview 7 9 [2]⟩,
    ⟨[1], .registerScreener 1 6⟩]

theorem registries_mirror_records_screened :
    ∃ s, Reaches exec (fun s tx => BelowCaps s ∧ RoomToQueue s tx) (initializeCompliance 5 1) s ∧
      s.flaggedIds = [8] ∧ s.pendingReviewIds = [9] ∧ s.screenerIds = [5] ∧
      s.listPendingScreeners = [⟨6, 90000, 176400⟩] ∧
      Mirrors s.flaggedIds
        (fun a => s.statusOf a = some .Flagged ∨ s.statusOf a = some .Blocked) := by
  obtain ⟨s, hx, hp⟩ := exists_of_check
    (x := sampleScreenings.foldlM exec (initializeCompliance 5 1))
    (p := fun s => decide (s.flaggedIds = [8] ∧ s.pendingReviewIds = [9] ∧ s.screenerIds = [5] ∧
      s.listPendingScreeners = [⟨6, 90000, 176400⟩])) (by decide)
  obtain ⟨hflagged, hreview, hscreeners, hpending⟩ := of_decide_eq_true hp
  have hrun := reaches_of_along .refl
    (show Along _ (fun s tx => BelowCaps s ∧ RoomToQueue s tx) _ sampleScreenings by decide) hx
  exact ⟨s, hrun, hflagged, hreview, hscreeners, hpending, (registries_mirror_records hrun).1⟩

/-- As many registrations as the list has room for, and one more. -/
def manyRegistrations : List Tx :=
  (List.range (maxScreenerList + 1)).map fun i => ⟨[1], .registerScreener 1 (100 + i)⟩

/-- The last registration is stored and not listed. -/
theorem late_registration_unlisted :
    ∃ s, Reaches exec (fun s _ => BelowCaps s) (initializeCompliance 5 1) s ∧
      (s.pendingScreeners.get 164).isSome = true ∧
      164 ∉ s.listPendingScreeners.map PendingScreener.address := by
  obtain ⟨s, hx, hp⟩ := exists_of_check
    (x := manyRegistrations.foldlM exec (initializeCompliance 5 1))
    (p := fun s => decide ((s.pendingScreeners.get 164).isSome = true ∧
      164 ∉ s.listPendingScreeners.map PendingScreener.address)) (by decide +kernel)
  obtain ⟨hstored, hunlisted⟩ := of_decide_eq_true hp
  have hrun := reaches_of_along .refl
    (show Along _ (fun s _ => BelowCaps s) _ manyRegistrations by decide +kernel) hx
  exact ⟨s, hrun, hstored, hunlisted⟩

end Astera.Compliance
