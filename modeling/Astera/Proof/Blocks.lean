import Astera.Compliance.System

/-!
# Who lifts a block

A verdict that an address is flagged or blocked stands until a screener submits another one, as long
as nobody asks for a review: `request_review` takes any address off the list of flagged addresses.
-/

namespace Astera.Compliance

open Fallible Machine Transition Mirror

variable {s s' : State} {tx : Tx} {a : Address}

/-- A review is asked for only of an address with a `Cleared` record that has not expired. -/
def ReviewsCleared (s : State) (tx : Tx) : Prop :=
  ∀ address ∈ tx.call.reviews, s.isCleared address = true

instance (s : State) (tx : Tx) : Decidable (ReviewsCleared s tx) :=
  inferInstanceAs (Decidable (∀ _ ∈ tx.call.reviews, _))

def ByScreener (s : State) (tx : Tx) : Prop :=
  ∃ screener ∈ tx.signers, screener = s.admin ∨ s.hasScreener screener = true

/-- The verdict stands: the address is recorded as restricted, and listed. -/
structure Stands (status : ComplianceStatus) (a : Address) (s : State) : Prop where
  recorded : s.statusOf a = some status
  listed : a ∈ s.flaggedIds

theorem statusOf_of_isCleared (hcleared : s.isCleared a = true) : s.statusOf a = some .Cleared := by
  unfold State.isCleared at hcleared
  unfold State.statusOf
  cases hget : s.records.get a with
  | none =>
    rw [hget] at hcleared
    cases hcleared
  | some record =>
    rw [hget] at hcleared
    simp only [Option.map_some, Option.getD_some, ComplianceRecord.isCleared,
      Bool.and_eq_true, decide_eq_true_eq] at hcleared
    rw [Option.map_some, hcleared.1]

theorem mem_flaggedIds_putRecord (s : State) {record : ComplianceRecord}
    (hrestrictive : record.status.Restrictive) :
    record.address ∈ (s.putRecord record).flaggedIds := by
  rcases flaggedIds_putRecord s record with ⟨-, hlist⟩ | ⟨hnot, -⟩
  · rw [hlist]
    simp only [addToList, ↓reduceIte]
    split_ifs with hmem
    · exact hmem
    · exact List.mem_append_right _ (List.mem_singleton_self _)
    · exact List.mem_append_right _ (List.mem_singleton_self _)
  · exact absurd hrestrictive hnot

theorem mem_flaggedIds_putRecord_of_ne (s : State) (record : ComplianceRecord)
    (hroom : s.flaggedIds.length < maxFlaggedList) (hne : a ≠ record.address)
    (hmem : a ∈ s.flaggedIds) : a ∈ (s.putRecord record).flaggedIds := by
  rcases flaggedIds_putRecord s record with ⟨-, hlist⟩ | ⟨-, hlist⟩
  · rw [hlist, addToList_eq_add _ hroom, mem_add]
    exact .inr hmem
  · rw [hlist, removeFromList_eq_drop, mem_drop]
    exact ⟨hmem, hne⟩

theorem Stands.putRecord {status : ComplianceStatus} (hs : Stands status a s)
    (hroom : s.flaggedIds.length < maxFlaggedList) {record : ComplianceRecord}
    (hne : a ≠ record.address) : Stands status a (s.putRecord record) := by
  refine ⟨?_, mem_flaggedIds_putRecord_of_ne s record hroom hne hs.listed⟩
  rw [statusOf_putRecord, if_neg hne, hs.recorded]

theorem Stands.step {status : ComplianceStatus} (hs : Stands status a s) (hstatus : status ≠ .Cleared)
    (hroom : s.flaggedIds.length < maxFlaggedList) (hreviews : ReviewsCleared s tx)
    (hscreens : tx.call.screens ≠ some a) (hx : exec s tx = .ok s') : Stands status a s' := by
  cases exec_effect hx with
  | @screened record _ hcall =>
    have hne : a ≠ record.address := by
      rintro rfl
      exact hscreens hcall
    have hput := hs.putRecord hroom hne
    exact ⟨hput.recorded, hput.listed⟩
  | @reviewed record hcall =>
    have hne : a ≠ record.address := by
      rintro rfl
      have hcleared := statusOf_of_isCleared (hreviews _ hcall)
      rw [hs.recorded] at hcleared
      exact hstatus (Option.some.inj hcleared)
    have hput := hs.putRecord hroom hne
    exact ⟨hput.recorded, hput.listed⟩
  | configured hcall hsame =>
    refine ⟨?_, ?_⟩
    · unfold State.statusOf
      rw [hsame.records]
      exact hs.recorded
    · rw [hsame.flaggedIds]
      exact hs.listed
  | queued | registered | confirmed | dismissed | cancelled | advanced =>
    exact ⟨hs.recorded, hs.listed⟩

theorem exec_screens (hx : exec s tx = .ok s') (hscreens : tx.call.screens = some a) :
    ByScreener s tx ∧ (s'.Restricts a → a ∈ s'.flaggedIds) := by
  obtain ⟨signers, call⟩ := tx
  cases call with
  | submitScreeningResult =>
    cases exec_effect hx with
    | @screened record _ hcall hsigned hauthorized =>
      obtain rfl : record.address = a := Option.some.inj (hcall.symm.trans hscreens)
      refine ⟨⟨record.screenedBy, hsigned, hauthorized⟩, fun hrestricts => ?_⟩
      apply mem_flaggedIds_putRecord s
      have hput := (restricts_putRecord s record record.address).1 hrestricts
      rwa [if_pos rfl] at hput
    | queued hcall | registered hcall | confirmed hcall | dismissed hcall | cancelled hcall
    | reviewed hcall | configured hcall | advanced hcall => cases hcall
  | _ => cases hscreens

theorem exec_reviews (hx : exec s tx = .ok s') (hreviews : tx.call.reviews = some a) :
    s'.statusOf a = some .PendingReview ∧ a ∉ s'.flaggedIds := by
  obtain ⟨signers, call⟩ := tx
  cases call with
  | requestReview =>
    cases exec_effect hx with
    | @reviewed record hcall hstatus =>
      obtain rfl : record.address = a := Option.some.inj (hcall.symm.trans hreviews)
      constructor
      · show (s.putRecord record).statusOf record.address = _
        rw [statusOf_putRecord, if_pos rfl, hstatus]
      · show record.address ∉ (s.putRecord record).flaggedIds
        rcases flaggedIds_putRecord s record with ⟨hrestrictive, -⟩ | ⟨-, hlist⟩
        · rw [hstatus] at hrestrictive
          simp [ComplianceStatus.Restrictive] at hrestrictive
        · rw [hlist, removeFromList_eq_drop, mem_drop]
          exact fun hmem => hmem.2 rfl
    | queued hcall | registered hcall | confirmed hcall | dismissed hcall | cancelled hcall
    | screened hcall | configured hcall | advanced hcall => cases hcall
  | _ => cases hreviews

theorem statusOf_changes (hx : exec s tx = .ok s') (hchanged : s'.statusOf a ≠ s.statusOf a) :
    tx.call.screens = some a ∨ tx.call.reviews = some a := by
  -- a record of another address leaves the status
  have hwrites : ∀ record : ComplianceRecord, (s.putRecord record).statusOf a ≠ s.statusOf a →
      record.address = a := by
    intro record hne
    rw [statusOf_putRecord] at hne
    split_ifs at hne with ha
    · exact ha.symm
    · exact absurd rfl hne
  cases exec_effect hx with
  | @screened record _ hcall => exact .inl (hwrites record hchanged ▸ hcall)
  | @reviewed record hcall => exact .inr (hwrites record hchanged ▸ hcall)
  | configured hcall hsame =>
    unfold State.statusOf at hchanged
    rw [hsame.records] at hchanged
    exact absurd rfl hchanged
  | queued | registered | confirmed | dismissed | cancelled | advanced => exact absurd rfl hchanged

/-- After a screening result that flags or blocks an address, its status stays and it stays on the list
along every run in which nobody screens it again, the list has room, and reviews are asked for only of
cleared addresses; the screening result that ends the run comes from a screener or the admin.  A review
of a cleared address puts it under review and changes no other record; and a review of any address
takes it off the list. -/
theorem blocks_lifted_by_screeners (s s' : State) (tx : Tx) (a : Address)
    (hx : exec s tx = .ok s') :
    (tx.call.screens = some a → s'.Restricts a → ByScreener s tx ∧
      ∀ s'', Reaches exec (fun s tx => s.flaggedIds.length < maxFlaggedList ∧ ReviewsCleared s tx ∧
          tx.call.screens ≠ some a) s' s'' →
        s''.statusOf a = s'.statusOf a ∧ a ∈ s''.flaggedIds ∧
        ∀ tx' s₃, exec s'' tx' = .ok s₃ → ReviewsCleared s'' tx' →
          s₃.statusOf a ≠ s''.statusOf a → tx'.call.screens = some a ∧ ByScreener s'' tx') ∧
    (ReviewsCleared s tx → tx.call.reviews = some a →
      s.isCleared a = true ∧ s'.statusOf a = some .PendingReview ∧
        ∀ b ≠ a, s'.statusOf b = s.statusOf b) ∧
    (tx.call.reviews = some a → s'.statusOf a = some .PendingReview ∧ a ∉ s'.flaggedIds) := by
  refine ⟨fun hscreens hrestricts => ?_, fun hok hreviews => ?_, exec_reviews hx⟩
  · obtain ⟨hby, hlisted⟩ := exec_screens hx hscreens
    refine ⟨hby, fun s'' hrun => ?_⟩
    obtain ⟨status, hstatus, hne⟩ : ∃ status, s'.statusOf a = some status ∧ status ≠ .Cleared := by
      rcases hrestricts with hflagged | hblocked
      · exact ⟨_, hflagged, nofun⟩
      · exact ⟨_, hblocked, nofun⟩
    have hstands : Stands status a s'' :=
      hrun.invariant (P := Stands status a) ⟨hstatus, hlisted hrestricts⟩
        fun _ _ _ hs hok hstep => hs.step hne hok.1 hok.2.1 hok.2.2 hstep
    refine ⟨by rw [hstands.recorded, hstatus], hstands.listed, fun tx' s₃ hx' hok hchanged => ?_⟩
    rcases statusOf_changes hx' hchanged with hscreens' | hreviews
    · exact ⟨hscreens', (exec_screens hx' hscreens').1⟩
    · have hcleared := statusOf_of_isCleared (hok a hreviews)
      rw [hstands.recorded] at hcleared
      exact absurd (Option.some.inj hcleared) hne
  · refine ⟨hok a hreviews, (exec_reviews hx hreviews).1, fun b hb => ?_⟩
    by_contra hchanged
    rcases statusOf_changes hx hchanged with hscreens | hreviews'
    · obtain ⟨signers, call⟩ := tx
      cases call with
      | submitScreeningResult => cases hreviews
      | _ => cases hscreens
    · exact hb (Option.some.inj (hreviews'.symm.trans hreviews))

def sampleClearing : List Tx :=
  [⟨[1], .set (.setScreenerTimelock 1 0)⟩,
    ⟨[1], .registerScreener 1 5⟩,
    ⟨[5], .submitScreeningResult 5 9 .Cleared 0 .Low 0 [1]⟩]

def sampleFlag : Tx := ⟨[5], .submitScreeningResult 5 8 .Flagged 3 .High 0 [1]⟩

/-- A review of 9, the admin's verdict on it, and the dismissal of the screener who flagged 8. -/
def sampleAftermath : List Tx :=
  [⟨[7], .requestReview 7 9 [2]⟩,
    ⟨[1], .submitScreeningResult 1 9 .Blocked 4 .High 0 [1]⟩,
    ⟨[1], .deregisterScreener 1 5⟩]

theorem blocks_lifted_by_screeners_dismissed :
    ∃ s s' s'', Reaches exec (fun _ _ => True) (initializeCompliance 5 1) s ∧
      exec s sampleFlag = .ok s' ∧
      Reaches exec (fun s tx => s.flaggedIds.length < maxFlaggedList ∧ ReviewsCleared s tx ∧
        tx.call.screens ≠ some 8) s' s'' ∧
      s''.screenerIds = [] ∧ s''.statusOf 8 = some .Flagged ∧ 8 ∈ s''.flaggedIds := by
  obtain ⟨s, hs, hp⟩ := exists_of_check
    (x := sampleClearing.foldlM exec (initializeCompliance 5 1))
    (p := fun s => check (exec s sampleFlag) fun s' => decide (s'.statusOf 8 = some .Flagged ∧
      Along exec (fun s tx => s.flaggedIds.length < maxFlaggedList ∧ ReviewsCleared s tx ∧
        tx.call.screens ≠ some 8) s' sampleAftermath ∧
      check (sampleAftermath.foldlM exec s') (fun s'' => decide (s''.screenerIds = [])) = true))
    (by decide)
  obtain ⟨s', hs', hp⟩ := exists_of_check hp
  obtain ⟨hstatus, halong, hp⟩ := of_decide_eq_true hp
  obtain ⟨s'', hs'', hp⟩ := exists_of_check hp
  have hrun := reaches_of_along .refl (along_of_forall (fun _ _ => trivial) _ _) hs
  have hlater := reaches_of_along .refl halong hs''
  obtain ⟨hkept, hlisted, -⟩ :=
    ((blocks_lifted_by_screeners s s' sampleFlag 8 hs').1 rfl (.inl hstatus)).2 s'' hlater
  exact ⟨s, s', s'', hrun, hs', hlater, of_decide_eq_true hp, hkept.trans hstatus, hlisted⟩

def sampleBlock : List Tx := [⟨[1], .submitScreeningResult 1 8 .Blocked 4 .High 0 [1]⟩]

/-- Anyone lifts a block. -/
theorem review_lifts_block :
    ∃ s s', Reaches exec (fun s _ => s.flaggedIds.length < maxFlaggedList)
        (initializeCompliance 5 1) s ∧
      s.statusOf 8 = some .Blocked ∧ s.isCleared 8 = false ∧ s.hasScreener 7 = false ∧ s.admin ≠ 7 ∧
      exec s ⟨[7], .requestReview 7 8 [2]⟩ = .ok s' ∧
      s'.statusOf 8 = some .PendingReview ∧ 8 ∉ s'.flaggedIds := by
  obtain ⟨s, hs, hp⟩ := exists_of_check
    (x := sampleBlock.foldlM exec (initializeCompliance 5 1))
    (p := fun s => decide (s.statusOf 8 = some .Blocked ∧ s.isCleared 8 = false ∧
      s.hasScreener 7 = false ∧ s.admin ≠ 7 ∧
      check (exec s ⟨[7], .requestReview 7 8 [2]⟩) (fun s' => decide (
        s'.statusOf 8 = some .PendingReview ∧ 8 ∉ s'.flaggedIds)) = true)) (by decide)
  obtain ⟨hstatus, hcleared, hnot, hadmin, hp⟩ := of_decide_eq_true hp
  obtain ⟨s', hs', hp⟩ := exists_of_check hp
  obtain ⟨hreviewed, hgone⟩ := of_decide_eq_true hp
  have hrun := reaches_of_along .refl
    (show Along _ (fun s _ => s.flaggedIds.length < maxFlaggedList) _ sampleBlock
      by decide) hs
  exact ⟨s, s', hrun, hstatus, hcleared, hnot, hadmin, hs', hreviewed, hgone⟩

end Astera.Compliance
