import Astera.Auction.Custody
import Astera.Proof.GracePeriod

/-!
# Dutch sales

The price of a sale falls on a line from `start_price` to `floor_price`.  A sale is open until it is
taken, reclaimed or cancelled, and that call is the only one that moves the consigned amount.
-/

namespace Astera.Auction

open Fallible Machine Transition

variable {W : Type}

/-- The arithmetic of the price fits in an `i128`, and the prices are in order. -/
structure CollateralSale.Priced (sale : CollateralSale) : Prop where
  floor : 0 ≤ sale.floorPrice
  le : sale.floorPrice ≤ sale.startPrice
  start : sale.startPrice < 2 ^ 127
  duration : sale.durationSecs ≠ 0
  fits : (sale.startPrice - sale.floorPrice) * sale.durationSecs < 2 ^ 127

def CollateralSale.line (sale : CollateralSale) (time : ℕ) : ℤ :=
  sale.startPrice - (sale.startPrice - sale.floorPrice) *
    (min (time - sale.openedAt) sale.durationSecs : ℕ) / sale.durationSecs

section Price

variable {sale : CollateralSale}

theorem CollateralSale.Priced.line_mem (hp : sale.Priced) (time : ℕ) :
    sale.floorPrice ≤ sale.line time ∧ sale.line time ≤ sale.startPrice := by
  have hspread : 0 ≤ sale.startPrice - sale.floorPrice := sub_nonneg.2 hp.le
  have hd : (0 : ℤ) < sale.durationSecs := by have := hp.duration; omega
  have hdecay : 0 ≤ (sale.startPrice - sale.floorPrice) *
      (min (time - sale.openedAt) sale.durationSecs : ℕ) / sale.durationSecs := by positivity
  have hle : (sale.startPrice - sale.floorPrice) *
      (min (time - sale.openedAt) sale.durationSecs : ℕ) / sale.durationSecs ≤
        sale.startPrice - sale.floorPrice := by
    apply Int.ediv_le_of_le_mul hd
    exact mul_le_mul_of_nonneg_left (by exact_mod_cast min_le_right _ _) hspread
  unfold CollateralSale.line
  omega

theorem CollateralSale.Priced.priceAt_eq (hp : sale.Priced) (time : ℕ) :
    sale.priceAt time = .ok (sale.line time) := by
  obtain ⟨hlow, hhigh⟩ := hp.line_mem time
  have hspread : 0 ≤ sale.startPrice - sale.floorPrice := sub_nonneg.2 hp.le
  have hprod : (sale.startPrice - sale.floorPrice) *
      (min (time - sale.openedAt) sale.durationSecs : ℕ) < 2 ^ 127 :=
    lt_of_le_of_lt (mul_le_mul_of_nonneg_left (by exact_mod_cast min_le_right _ _) hspread) hp.fits
  have hprod₀ : 0 ≤ (sale.startPrice - sale.floorPrice) *
      (min (time - sale.openedAt) sale.durationSecs : ℕ) := by positivity
  have hfloor := hp.floor
  have hstart := hp.start
  simp only [CollateralSale.priceAt, bind_eq_ok, okOr_eq_ok, Option.bind_eq_some_iff,
    checkedSub_eq_some, checkedMul_eq_some, checkedDiv_eq_some, InI128]
  refine ⟨_, ⟨rfl, by omega, by omega⟩, _, ⟨_, ⟨rfl, by omega, hprod⟩, ?_, rfl, ?_⟩, ?_⟩
  · exact_mod_cast hp.duration
  · rw [Int.tdiv_eq_ediv_of_nonneg hprod₀]
    unfold CollateralSale.line at hlow hhigh
    omega
  · rw [Int.tdiv_eq_ediv_of_nonneg hprod₀]
    unfold CollateralSale.line at hlow hhigh ⊢
    omega

theorem CollateralSale.line_opened (sale : CollateralSale) :
    sale.line sale.openedAt = sale.startPrice := by simp [CollateralSale.line]

theorem CollateralSale.Priced.line_end (hp : sale.Priced) :
    sale.line (sale.openedAt + sale.durationSecs) = sale.floorPrice := by
  have hd : (sale.durationSecs : ℤ) ≠ 0 := by exact_mod_cast hp.duration
  rw [CollateralSale.line, Nat.add_sub_cancel_left, min_self, Int.mul_ediv_cancel _ hd]
  ring

theorem CollateralSale.Priced.line_antitone (hp : sale.Priced) {time time' : ℕ}
    (hle : time ≤ time') : sale.line time' ≤ sale.line time := by
  have hspread : 0 ≤ sale.startPrice - sale.floorPrice := sub_nonneg.2 hp.le
  unfold CollateralSale.line
  have hmin : ((min (time - sale.openedAt) sale.durationSecs : ℕ) : ℤ) ≤
      (min (time' - sale.openedAt) sale.durationSecs : ℕ) := by
    exact_mod_cast min_le_min_right _ (Nat.sub_le_sub_right hle _)
  have hdecay := Int.ediv_le_ediv (a := (sale.startPrice - sale.floorPrice) *
    (min (time - sale.openedAt) sale.durationSecs : ℕ)) (c := (sale.durationSecs : ℤ))
    (by have := hp.duration; omega) (mul_le_mul_of_nonneg_left hmin hspread)
  omega

end Price

/-- The time of the ledger is a `u64`. -/
def InTime (h : Host W) (s : State W) (_ : Tx h) : Prop := s.ledger.now < 2 ^ 64

instance (h : Host W) (s : State W) (tx : Tx h) : Decidable (InTime h s tx) :=
  inferInstanceAs (Decidable (_ < _))

/-- The calls that close an open sale, with the receiver of the consigned amount and the state they
leave. -/
inductive Leaves (h : Host W) (s : State W) (tx : Tx h) (saleId : ℕ) (sale : CollateralSale) :
    Address → State W → Prop
  | taken {taker : Address} (hcall : tx.call = .takeCollateralSale taker saleId)
      (hauth : taker ∈ tx.signers)
      (hwithin : sale.openedAt ≤ s.ledger.now ∧
        s.ledger.now ≤ sale.openedAt + sale.durationSecs) :
      Leaves h s tx saleId sale taker
        (((s.setSale saleId { sale with
            status := .Settled
            taker := some taker
            settledPrice := some (sale.line s.ledger.now) }).moved sale.proceedsToken taker
          sale.proceedsRecipient (sale.line s.ledger.now)).moved sale.token h.self taker sale.amount)
  | reclaimed {caller : Address} (hcall : tx.call = .reclaimExpiredSale caller saleId)
      (hafter : sale.openedAt + sale.durationSecs < s.ledger.now) :
      Leaves h s tx saleId sale sale.seller
        ((s.setSale saleId { sale with status := .Expired }).moved sale.token h.self sale.seller
          sale.amount)
  | cancelled (hcall : tx.call = .cancelCollateralSale sale.seller saleId)
      (hauth : sale.seller ∈ tx.signers) :
      Leaves h s tx saleId sale sale.seller
        ((s.setSale saleId { sale with status := .Cancelled }).moved sale.token h.self sale.seller
          sale.amount)

section Steps

variable {h : Host W} {s s' : State W} {tx : Tx h} {saleId : ℕ} {sale : CollateralSale}

theorem exec_now_le (hx : exec h s tx = .ok s') : s.ledger.now ≤ s'.ledger.now := by
  cases exec_effect hx with
  | opened hcall hauth hopened => rw [hopened.opened]; exact le_rfl
  | seized hcall hresult hsince hgrace hseized => exact hseized.deposit.2.2.1.ge
  | pool hcall hmem hexec => exact Pool.now_le_of_exec hexec
  | taken | reclaimed | cancelled | auctioned | bade | withdrew | settled | expired | configured
  | flagged | cleared => exact le_rfl

theorem Opened.get_sale {params : CollateralSaleParams} (hs : Sound s)
    (hopened : Opened h s params s') (hget : s.sales.get saleId = some sale) :
    s'.sales.get saleId = some sale := by
  rw [hopened.opened]
  exact (Store.get_set_of_ne _ _ (hs.sale _ _ hget).1.ne).trans hget

theorem sale_step (hs : Sound s) (hget : s.sales.get saleId = some sale) (hprice : sale.Priced)
    (hopenedAt : sale.openedAt ≤ s.ledger.now) (htime : InTime h s tx)
    (hx : exec h s tx = .ok s') :
    s'.sales.get saleId = some sale ∨
      sale.status = .Open ∧ ∃ receiver, Leaves h s tx saleId sale receiver s' := by
  have hother : ∀ {id : ℕ} (sale' : CollateralSale), saleId ≠ id →
      (s.setSale id sale').sales.get saleId = some sale := fun _ hne =>
    (Store.get_set_of_ne _ _ hne).trans hget
  cases exec_effect hx with
  | opened hcall hauth hopened => exact .inl (hopened.get_sale hs hget)
  | @seized caller invoiceId since sold hcall hresult hsince hgrace hseized =>
    obtain ⟨_, _, ledger, _, -, -, -, hopened⟩ := hseized.seized
    have hstart : Sound { s with ledger := ledger } := hs.congr rfl rfl rfl rfl rfl
    exact .inl (show sold.sales.get saleId = some sale from hopened.get_sale hstart hget)
  | @taken taker id sale₁ price hcall hauth hget₁ hopen hpriced hnn =>
    by_cases hid : saleId = id
    · subst hid
      obtain rfl := Option.some.inj (hget.symm.trans hget₁)
      rw [exec, hcall] at hx
      obtain ⟨sale₂, _, -, hget₂, -, hwindow, -⟩ := takeCollateralSale_eq_ok hx
      obtain rfl := Option.some.inj (hget.symm.trans hget₂)
      rw [hprice.priceAt_eq, Except.ok.injEq] at hpriced
      subst hpriced
      exact .inr ⟨hopen, taker, .taken hcall hauth ⟨hopenedAt, hwindow.trans (min_le_left _ _)⟩⟩
    · exact .inl (hother _ hid)
  | @reclaimed caller id sale₁ hcall hget₁ hopen =>
    by_cases hid : saleId = id
    · subst hid
      obtain rfl := Option.some.inj (hget.symm.trans hget₁)
      rw [exec, hcall] at hx
      obtain ⟨sale₂, hget₂, -, hwindow, -⟩ := reclaimExpiredSale_eq_ok hx
      obtain rfl := Option.some.inj (hget.symm.trans hget₂)
      unfold InTime at htime
      unfold windowEnd at hwindow
      exact .inr ⟨hopen, sale.seller, .reclaimed hcall (by omega)⟩
    · exact .inl (hother _ hid)
  | @cancelled id sale₁ hcall hauth hget₁ hopen =>
    by_cases hid : saleId = id
    · subst hid
      obtain rfl := Option.some.inj (hget.symm.trans hget₁)
      exact .inr ⟨hopen, sale.seller, .cancelled hcall hauth⟩
    · exact .inl (hother _ hid)
  | auctioned | bade | withdrew | settled | expired | configured | flagged | cleared | pool =>
    exact .inl hget

end Steps

/-! ## The lifecycle -/

/-- The sale is the one that was opened, whatever became of it. -/
def CollateralSale.Follows (opened sale : CollateralSale) : Prop :=
  sale = { opened with
    status := sale.status
    taker := sale.taker
    settledPrice := sale.settledPrice }

structure OnOffer (opened : CollateralSale) (saleId : ℕ) (s : State W) : Prop where
  sound : Sound s
  time : opened.openedAt ≤ s.ledger.now
  stored : ∃ sale, s.sales.get saleId = some sale ∧ opened.Follows sale

section Runs

variable {h : Host W} {s s' : State W} {tx : Tx h} {saleId : ℕ} {opened sale : CollateralSale}

theorem CollateralSale.Priced.follows (hp : opened.Priced) (hsale : opened.Follows sale) :
    sale.Priced := by
  rw [hsale]
  exact ⟨hp.floor, hp.le, hp.start, hp.duration, hp.fits⟩

theorem Leaves.follows {receiver : Address} (hleaves : Leaves h s tx saleId sale receiver s')
    (hsale : opened.Follows sale) :
    ∃ sale', s'.sales.get saleId = some sale' ∧ sale'.status ≠ .Open ∧ opened.Follows sale' := by
  unfold CollateralSale.Follows at hsale ⊢
  cases hleaves with
  | taken | reclaimed | cancelled =>
    refine ⟨_, Store.get_set_self _ _ _, SaleStatus.noConfusion, ?_⟩
    rw [hsale]

theorem OnOffer.step (ho : OnOffer opened saleId s) (hp : opened.Priced) (htime : InTime h s tx)
    (hx : exec h s tx = .ok s') : OnOffer opened saleId s' := by
  obtain ⟨sale, hget, hsale⟩ := ho.stored
  have hopenedAt : sale.openedAt ≤ s.ledger.now := by
    rw [hsale]
    exact ho.time
  refine ⟨exec_sound ho.sound hx, ho.time.trans (exec_now_le hx), ?_⟩
  rcases sale_step ho.sound hget (hp.follows hsale) hopenedAt htime hx with
    hkept | ⟨-, receiver, hleaves⟩
  · exact ⟨sale, hkept, hsale⟩
  · obtain ⟨sale', hget', -, hsale'⟩ := hleaves.follows hsale
    exact ⟨sale', hget', hsale'⟩

end Runs

/-- Every sale that is opened by `open_collateral_sale` and whose price computation fits follows this
lifecycle in every run.  Its price is on the line at any time.  A step leaves it as it is, or it is open
and the step takes it within its window, reclaims it after the window or cancels it for its seller,
and pays the consigned amount out; no step pays out what the contract owes.  Once it is closed it stays
as it is. -/
theorem dutch_sale_lifecycle {h : Host W} {ledger : Pool.State W} {admin : Address}
    {s₀ s₁ s : State W} {tx : Tx h} {params : CollateralSaleParams}
    (hstart : Reaches (exec h) (InTime h) (initializeAuction ledger admin) s₀)
    (hcall : tx.call = .openCollateralSale params) (hopen : exec h s₀ tx = .ok s₁)
    (hprice : params.startPrice < 2 ^ 127)
    (hfits : (params.startPrice - params.floorPrice) * params.durationSecs < 2 ^ 127)
    (hrun : Reaches (exec h) (InTime h) s₁ s) :
    ∃ sale, s.sales.get s₀.nextSaleId = some sale ∧
      (s₀.newSale s₀.nextSaleId params).Follows sale ∧ sale.seller ≠ h.self ∧
      (∀ tx s', InTime h s tx → exec h s tx = .ok s' →
        (∀ token, s.surplus h token ≤ s'.surplus h token) ∧
        (s'.sales.get s₀.nextSaleId = some sale ∨
          sale.status = .Open ∧
            ∃ receiver ≠ h.self, Leaves h s tx s₀.nextSaleId sale receiver s')) ∧
      (sale.status ≠ .Open → ∀ s', Reaches (exec h) (InTime h) s s' →
        s'.sales.get s₀.nextSaleId = some sale) ∧
      (∀ time, sale.priceAt time = .ok (sale.line time) ∧
        params.floorPrice ≤ sale.line time ∧ sale.line time ≤ params.startPrice) ∧
      sale.line sale.openedAt = params.startPrice ∧
      sale.line (sale.openedAt + sale.durationSecs) = params.floorPrice ∧
      ∀ time time', time ≤ time' → sale.line time' ≤ sale.line time := by
  have hrunning : ∀ {s s' : State W}, Sound s → Reaches (exec h) (InTime h) s s' → Sound s' :=
    fun hs hrun => hrun.invariant hs fun _ _ _ hs _ => exec_sound hs
  have hs₀ : Sound s₀ := hrunning (sound_initial ledger admin) hstart
  have hs₁ : Sound s₁ := exec_sound hs₀ hopen
  rw [exec, hcall] at hopen
  obtain ⟨⟨s₂, id⟩, hcalled, rfl⟩ := (map_eq_ok _ _ _).1 hopen
  obtain ⟨hauth, hopened⟩ := openCollateralSale_eq_ok hcalled
  have hseller : params.seller ≠ h.self := fun heq => tx.self_not_mem (heq ▸ hauth)
  have hp : (s₀.newSale s₀.nextSaleId params).Priced :=
    ⟨hopened.floorPrice.1, hopened.floorPrice.2, hprice, hopened.durationSecs, hfits⟩
  have hinit : OnOffer (s₀.newSale s₀.nextSaleId params) s₀.nextSaleId s₂ := by
    refine ⟨hs₁, ?_, s₀.newSale s₀.nextSaleId params, ?_, rfl⟩
    · rw [hopened.opened]
      exact le_rfl
    · rw [hopened.opened]
      exact Store.get_set_self _ _ _
  have hoffer : OnOffer (s₀.newSale s₀.nextSaleId params) s₀.nextSaleId s :=
    hrun.invariant hinit fun _ _ _ ho htime => ho.step hp htime
  obtain ⟨sale, hget, hsale⟩ := hoffer.stored
  have hpriced := hp.follows hsale
  have hsame : sale.seller = params.seller ∧ sale.startPrice = params.startPrice ∧
      sale.floorPrice = params.floorPrice ∧ sale.openedAt = s₀.ledger.now := by
    rw [hsale]
    exact ⟨rfl, rfl, rfl, rfl⟩
  obtain ⟨hsameSeller, hsameStart, hsameFloor, hsameTime⟩ := hsame
  rw [← hsameStart, ← hsameFloor]
  refine ⟨sale, hget, hsale, hsameSeller.trans_ne hseller, ?_, ?_,
    fun time => ⟨hpriced.priceAt_eq time, hpriced.line_mem time⟩, sale.line_opened, hpriced.line_end,
    fun _ _ => hpriced.line_antitone⟩
  · intro tx' s' htime hx
    refine ⟨surplus_le hoffer.sound hx, ?_⟩
    refine (sale_step hoffer.sound hget hpriced (hsameTime.trans_le hoffer.time) htime hx).imp_right ?_
    rintro ⟨hisOpen, receiver, hleaves⟩
    refine ⟨hisOpen, receiver, ?_, hleaves⟩
    cases hleaves with
    | taken _ htaker => exact fun heq => tx'.self_not_mem (heq ▸ htaker)
    | reclaimed | cancelled => exact hsameSeller.trans_ne hseller
  · intro hclosed s' hlater
    have hstays : OnOffer (s₀.newSale s₀.nextSaleId params) s₀.nextSaleId s' ∧
        s'.sales.get s₀.nextSaleId = some sale := by
      apply hlater.invariant (P := fun s' =>
        OnOffer (s₀.newSale s₀.nextSaleId params) s₀.nextSaleId s' ∧
          s'.sales.get s₀.nextSaleId = some sale) ⟨hoffer, hget⟩
      intro s₂ tx' s₃ ⟨ho, hkept⟩ htime hx
      refine ⟨ho.step hp htime hx, ?_⟩
      exact (sale_step ho.sound hkept hpriced (hsameTime.trans_le ho.time) htime hx).resolve_right
        fun hleaves => hclosed hleaves.1
    exact hstays.2

/-- 30 of a token are offered for 20 down to 10 over 100 seconds, and taken after 50. -/
def sampleOffer : Tx sampleHost :=
  ⟨[5], self_ne_five, .openCollateralSale ⟨5, 10, 30, 10, 5, 20, 10, 100⟩⟩

def sampleTaking : List (Tx sampleHost) :=
  [⟨[], self_notMem_nil, .pool (.advance 51)⟩, ⟨[6], self_ne_six, .takeCollateralSale 6 1⟩]

theorem dutch_sale_lifecycle_taken :
    ∃ s sale, Reaches (exec sampleHost) (InTime sampleHost) sampleStart s ∧
      s.sales.get 1 = some sale ∧ sale.settledPrice = some 15 ∧
      ∀ s', Reaches (exec sampleHost) (InTime sampleHost) s s' → s'.sales.get 1 = some sale := by
  obtain ⟨s₁, hopen, hp⟩ := exists_of_check (x := exec sampleHost sampleStart sampleOffer)
    (p := fun s₁ => decide (Along (exec sampleHost) (InTime sampleHost) s₁ sampleTaking) &&
      check (sampleTaking.foldlM (exec sampleHost) s₁) fun s =>
        decide (∃ sale ∈ s.sales.get 1, sale.status = .Settled ∧ sale.settledPrice = some 15))
    (by decide)
  obtain ⟨halong, hp⟩ := (Bool.and_eq_true _ _).mp hp
  obtain ⟨s, htaken, hp⟩ := exists_of_check hp
  obtain ⟨sale, hget, hstatus, hprice⟩ := of_decide_eq_true hp
  have hrun := reaches_of_along .refl (of_decide_eq_true halong) htaken
  have hstart : Reaches (exec sampleHost) (InTime sampleHost) sampleStart s₁ :=
    Reaches.refl.next (by decide) hopen
  have hrefl : Reaches (exec sampleHost) (InTime sampleHost)
    (initializeAuction sampleStart.ledger 1) sampleStart := .refl
  obtain ⟨sale', hget', -, -, -, hstays, -⟩ := dutch_sale_lifecycle hrefl
    (show sampleOffer.call = .openCollateralSale ⟨5, 10, 30, 10, 5, 20, 10, 100⟩ from rfl) hopen
    (by decide) (by decide) hrun
  obtain rfl : sale' = sale := Option.some.inj (hget'.symm.trans hget)
  have hclosed : sale'.status ≠ .Open := by simp [hstatus]
  exact ⟨s, sale', reaches_of_along hstart (of_decide_eq_true halong) htaken, hget', hprice,
    hstays hclosed⟩

end Astera.Auction
