import ThesisTrace.Strategy.OrderExecution
import ThesisTrace.Strategy.SessionExecution

/-!
# One direction per instrument

Sells and buys are two passes over different keys. Both compare the value held at the Open with
the value that the target asks for, frozen before the first order, so no instrument is on both
sides of a session.
-/

namespace ThesisTrace.Strategy
open Transaction

variable {F E : Type} {R : Rounding} {data : MarketData} {costs : Costs}

/-- The session has an order of that side for the instrument. -/
def Journal.Ordered (journal : Journal E) (id : InstrumentId) (side : Side) : Prop :=
  ∃ order ∈ journal.orders, order.instrument = id ∧ order.side = side

/-- The session has a fill that bought the instrument. -/
def Journal.Bought (journal : Journal E) (id : InstrumentId) : Prop :=
  ∃ fill ∈ journal.fills, fill.childOrder.instrument = id ∧ fill.childOrder.side = .buy

/-! ### Events of an order -/

lemma allocateFills_order (terms : FillTerms) (prior : Deltas) (net : ℚ)
    (children : List ChildCost) : ∀ fill ∈ allocateFills R terms prior net children,
      fill.childOrder.instrument = terms.order.instrument
        ∧ fill.childOrder.side = terms.order.side := by
  induction children generalizing prior net with
  | nil => exact fun _ h => absurd h List.not_mem_nil
  | cons child rest ih =>
    intro fill hfill
    unfold allocateFills at hfill
    rcases List.mem_cons.mp hfill with rfl | hrest
    · exact ⟨rfl, rfl⟩
    · exact ih _ _ fill hrest

/-- All events of an order carry its instrument and its side. -/
lemma executeOrder_events {account : Account} {order : Order} {outcome : OrderOutcome}
    (h : executeOrder R data costs account order = .ok outcome) :
    (outcome.order.instrument = order.instrument ∧ outcome.order.side = order.side)
      ∧ ∀ fill ∈ outcome.fills,
        fill.childOrder.instrument = order.instrument ∧ fill.childOrder.side = order.side := by
  rcases executeOrder_cases h with ⟨reason, rfl⟩ | ⟨price, -, hfill⟩
  · exact ⟨⟨rfl, rfl⟩, fun _ h => absurd h List.not_mem_nil⟩
  · unfold fillOrder at hfill
    simp only [bind_ok_iff, pure_ok_iff] at hfill
    obtain ⟨_, -, _, -, _, -, rfl⟩ := hfill
    exact ⟨⟨rfl, rfl⟩, allocateFills_order _ _ _ _⟩

/-- An order leaves the positions of other instruments alone. -/
lemma executeOrder_other {account : Account} {order : Order} {outcome : OrderOutcome}
    {other : InstrumentId} (h : executeOrder R data costs account order = .ok outcome)
    (hother : other ≠ order.instrument) :
    outcome.settlement.positions.lookup other = account.positions.lookup other := by
  rcases executeOrder_cases h with ⟨reason, rfl⟩ | ⟨price, -, hfill⟩
  · rfl
  · cases hside : order.side with
    | buy =>
      obtain ⟨_, _, _, _, -, -, -, -, -, hsettlement⟩ := fillOrder_buy hside hfill
      rw [hsettlement]
      simp [hother]
    | sell =>
      obtain ⟨_, _, _, _, -, -, -, -, -, -, -, hpositions⟩ := fillOrder_sell hside hfill
      rcases hpositions with ⟨-, hpositions⟩ | ⟨-, rest, -, hpositions⟩
      · rw [hpositions]
        exact AList.lookup_erase_ne hother
      · rw [hpositions]
        simp [hother]

/-! ### Sells -/

/-- A sell is intended only for a holding worth more than its target value. -/
lemma sellIntent_lt {terms : TargetTerms} {marks : Marks} {id : InstrumentId}
    {position : Position} {intent : SellIntent}
    (h : sellIntent R terms marks id position = .ok (some intent)) :
    terms.sizing.targetValues id < holdingValue R marks id position := by
  unfold sellIntent at h
  split at h
  · cases h
  · dsimp only at h
    split at h
    · cases h
    · next hlt => exact not_le.mp hlt

/-- What the orders and fills of a sell pass have in common. -/
structure SoldOnly (R : Rounding) (terms : TargetTerms) (opened : OpenedSession)
    (journal : Journal E) : Prop where
  orders : ∀ order ∈ journal.orders, order.side = .sell ∧
    ∃ position, opened.account.positions.lookup order.instrument = some position
      ∧ terms.sizing.targetValues order.instrument
        < holdingValue R opened.marks order.instrument position
  fills : ∀ fill ∈ journal.fills, fill.childOrder.side = .sell

lemma sellStep_soldOnly {terms : TargetTerms} {opened : OpenedSession} {trading next : Trading E}
    {id : InstrumentId}
    (hheld : trading.account.positions.lookup id = opened.account.positions.lookup id)
    (h : sellStep R terms opened.marks trading id = .ok next)
    (hsold : SoldOnly R terms opened trading.journal) :
    SoldOnly R terms opened next.journal ∧ ∀ other ≠ id,
      next.account.positions.lookup other = trading.account.positions.lookup other := by
  unfold sellStep at h
  simp only [bind_ok_iff, found_ok_iff] at h
  obtain ⟨position, hposition, intent?, hintent, h⟩ := h
  split at h
  · rw [pure_ok_iff] at h
    subst h
    exact ⟨hsold, fun _ _ => rfl⟩
  · next intent =>
    split at h
    · rw [pure_ok_iff] at h
      subst h
      exact ⟨⟨hsold.orders, hsold.fills⟩, fun _ _ => rfl⟩
    · unfold trade at h
      simp only [bind_ok_iff, pure_ok_iff] at h
      obtain ⟨outcome, houtcome, rfl⟩ := h
      obtain ⟨⟨hinstrument, hside⟩, hfills⟩ := executeOrder_events houtcome
      refine ⟨⟨fun order horder => ?_, fun fill hfill => ?_⟩, fun other hother =>
        executeOrder_other houtcome hother⟩
      · rcases List.mem_append.mp horder with hold | hnew
        · exact hsold.orders order hold
        · rw [List.mem_singleton.mp hnew, hside, hinstrument]
          exact ⟨rfl, position, hheld ▸ hposition, sellIntent_lt hintent⟩
      · rcases List.mem_append.mp hfill with hold | hnew
        · exact hsold.fills fill hold
        · exact (hfills fill hnew).2

lemma foldlM_soldOnly {terms : TargetTerms} {opened : OpenedSession} {ids : List InstrumentId}
    {trading next : Trading E} (hnodup : ids.Nodup)
    (hheld : ∀ id ∈ ids,
      trading.account.positions.lookup id = opened.account.positions.lookup id)
    (h : ids.foldlM (sellStep R terms opened.marks) trading = .ok next)
    (hsold : SoldOnly R terms opened trading.journal) : SoldOnly R terms opened next.journal := by
  induction ids generalizing trading with
  | nil =>
    rw [List.foldlM_nil, pure_ok_iff] at h
    exact h ▸ hsold
  | cons id ids ih =>
    obtain ⟨hnotMem, hrest⟩ := List.nodup_cons.mp hnodup
    rw [List.foldlM_cons, bind_ok_iff] at h
    obtain ⟨middle, hstep, h⟩ := h
    obtain ⟨hmiddle, hother⟩ := sellStep_soldOnly (hheld id List.mem_cons_self) hstep hsold
    refine ih hrest (fun id' hid' => ?_) h hmiddle
    rw [hother id' (fun heq => hnotMem (heq ▸ hid'))]
    exact hheld id' (List.mem_cons_of_mem id hid')

/-- The sell pass orders only sales, of holdings worth more than their target values. -/
theorem runSells_soldOnly {terms : TargetTerms} {opened : OpenedSession} {journal : Journal E}
    {sold : Trading E} (horders : journal.orders = []) (hfills : journal.fills = [])
    (h : runSells R terms opened journal = .ok sold) : SoldOnly R terms opened sold.journal := by
  refine foldlM_soldOnly (AList.keys_nodup _) (fun _ _ => rfl) h ⟨?_, ?_⟩
  · rw [horders]
    exact fun _ h => absurd h List.not_mem_nil
  · rw [hfills]
    exact fun _ h => absurd h List.not_mem_nil

/-! ### Buys -/

def buyPrice (R : Rounding) (costs : Costs) (price : ExecutionPrice) : ℚ :=
  R.accounting (price.rawOpen * executionPriceFactor R .buy costs)

/-- The deficit pays for a hundred shares, the smallest lot of every board. -/
def Affords (R : Rounding) (terms : TargetTerms) (id : InstrumentId) (deficit : ℚ) : Prop :=
  ∃ price, terms.data.executionPrices terms.session id = some price
    ∧ buyPrice R terms.costs price ≠ 0
    ∧ 100 ≤ R.accounting (deficit / buyPrice R terms.costs price)

lemma hundred_le_of_legal {board : Board} {target : ℤ} {legal : ℕ}
    (h : legalOrderQuantity board target false = .ok legal) (hpos : 0 < legal) : 100 ≤ target := by
  unfold legalOrderQuantity at h
  cases board <;> simp only [Bool.false_eq_true, if_false] at h
  · have := Except.ok.inj h
    omega
  · have := Except.ok.inj h
    omega
  · have := Except.ok.inj h
    split_ifs at this <;> omega
  · cases h

lemma le_of_le_truncate {x : ℚ} {n : ℤ} (hpos : 0 < n) (h : n ≤ truncate x) : (n : ℚ) ≤ x := by
  unfold truncate at h
  split_ifs at h with hx
  · exact Int.le_floor.mp h
  · have hceil : ⌈x⌉ ≤ 0 := Int.ceil_le.mpr (by simpa using (not_le.mp hx).le)
    omega

/-- A buy that submits shares has a deficit that pays for a hundred of them. -/
lemma buyIntent_affords {terms : TargetTerms} {netCash deficit d : ℚ} {id : InstrumentId}
    {unrounded : ℤ} {legal quantity : ℕ}
    (h : buyIntent R terms netCash deficit id = .ok (.sized d unrounded legal quantity))
    (hpos : 0 < quantity) : 0 < deficit ∧ Affords R terms id deficit := by
  unfold buyIntent at h
  split at h
  · split at h
    · cases h
    · simp only [bind_ok_iff, found_ok_iff] at h
      obtain ⟨profile, -, h⟩ := h
      split at h
      · cases h
      · cases h
      · split at h <;> cases h
  · next price hprice =>
    simp only [bind_ok_iff, found_ok_iff, pure_ok_iff, BuyIntent.sized.injEq] at h
    obtain ⟨unrounded', hunrounded, profile, -, legal', hlegal, quantity', hquantity, -, rfl, rfl,
      rfl⟩ := h
    obtain ⟨hle, -⟩ := affordableQuantity_spec hquantity hpos
    have hhundred : 100 ≤ unrounded' := by
      split_ifs at hlegal with hraw
      · exact hundred_le_of_legal hlegal (by omega)
      · have hzero := Except.ok.inj hlegal
        omega
    split_ifs at hunrounded with hdeficit
    · rw [map_ok_iff] at hunrounded
      obtain ⟨shares, hshares, rfl⟩ := hunrounded
      obtain ⟨hne, rfl⟩ := Rounding.divide_ok_iff.mp hshares
      exact ⟨hdeficit, price, hprice, hne, by exact_mod_cast le_of_le_truncate (by omega) hhundred⟩
    · have hzero := Except.ok.inj hunrounded
      omega

/-- What the orders and fills that a buy pass adds have in common. -/
structure BoughtOnly (R : Rounding) (terms : TargetTerms) (before after : Journal E) : Prop where
  orders : ∀ order ∈ after.orders, order ∈ before.orders ∨
    order.side = .buy ∧ order.instrument ∈ terms.sizing.buyCandidates
      ∧ 0 < terms.sizing.buyDeficits order.instrument
  fills : ∀ fill ∈ after.fills, fill ∈ before.fills ∨
    fill.childOrder.instrument ∈ terms.sizing.buyCandidates
      ∧ ∃ deficit, 0 < deficit ∧ deficit ≤ terms.sizing.buyDeficits fill.childOrder.instrument
        ∧ Affords R terms fill.childOrder.instrument deficit

lemma TargetTerms.deficit_le (terms : TargetTerms) (budget : ℚ) (id : InstrumentId) :
    terms.deficit budget id ≤ terms.sizing.buyDeficits id := by
  unfold TargetTerms.deficit
  dsimp only
  split_ifs
  · exact min_le_left _ _
  · exact le_rfl

lemma unavailable_pos {terms : TargetTerms} {netCash deficit d : ℚ} {id : InstrumentId}
    {reason : RejectionReason}
    (h : buyIntent R terms netCash deficit id = .ok (.unavailable d reason)) : 0 < deficit := by
  unfold buyIntent at h
  split at h
  · split at h
    · cases h
    · next hpos => exact not_le.mp hpos
  · simp only [bind_ok_iff, pure_ok_iff, reduceCtorEq, and_false, exists_false] at h

lemma buySized_boughtOnly {terms : TargetTerms} {buying next : Buying E} {id : InstrumentId}
    {before : Journal E} {deficit : ℚ} {unrounded : ℤ} {legal quantity : ℕ}
    (hid : id ∈ terms.sizing.buyCandidates)
    (hintent : buyIntent R terms buying.trading.account.netCash
      (terms.deficit buying.budget id) id = .ok (.sized deficit unrounded legal quantity))
    (h : buySized R terms buying id deficit unrounded legal quantity = .ok next)
    (hbought : BoughtOnly R terms before buying.trading.journal) :
    BoughtOnly R terms before next.trading.journal := by
  unfold buySized at h
  dsimp only at h
  have hjournal : ∀ journal : Journal E, journal.orders = buying.trading.journal.orders →
      journal.fills = buying.trading.journal.fills → BoughtOnly R terms before journal :=
    fun journal horders hfills =>
      ⟨by rw [horders]; exact hbought.orders, by rw [hfills]; exact hbought.fills⟩
  split at h
  · rw [pure_ok_iff] at h
    subst h
    apply hjournal <;> unfold buyDiagnose <;> split_ifs <;> rfl
  · next hne =>
    simp only [bind_ok_iff, pure_ok_iff] at h
    obtain ⟨outcome, houtcome, rfl⟩ := h
    obtain ⟨⟨hinstrument, hside⟩, hfills⟩ := executeOrder_events houtcome
    obtain ⟨hpos, haffords⟩ := buyIntent_affords hintent (Nat.pos_of_ne_zero hne)
    have hle := terms.deficit_le buying.budget id
    refine ⟨fun order horder => ?_, fun fill hfill => ?_⟩
    · rcases List.mem_append.mp horder with hold | hnew
      · refine hbought.orders order ?_
        split_ifs at hold <;> exact hold
      · rw [List.mem_singleton.mp hnew, hside, hinstrument]
        exact .inr ⟨rfl, hid, hpos.trans_le hle⟩
    · rcases List.mem_append.mp hfill with hold | hnew
      · refine hbought.fills fill ?_
        split_ifs at hold <;> exact hold
      · rw [(hfills fill hnew).1]
        exact .inr ⟨hid, _, hpos, hle, haffords⟩

lemma buyStep_boughtOnly {terms : TargetTerms} {buying next : Buying E} {id : InstrumentId}
    {before : Journal E} (hid : id ∈ terms.sizing.buyCandidates)
    (h : buyStep R terms buying id = .ok next)
    (hbought : BoughtOnly R terms before buying.trading.journal) :
    BoughtOnly R terms before next.trading.journal := by
  unfold buyStep at h
  simp only [bind_ok_iff] at h
  obtain ⟨intent, hintent, h⟩ := h
  cases intent with
  | skipped =>
    dsimp only at h
    rw [pure_ok_iff] at h
    exact h ▸ hbought
  | unavailable deficit reason =>
    dsimp only at h
    rw [pure_ok_iff] at h
    subst h
    refine ⟨fun order horder => ?_, hbought.fills⟩
    rcases List.mem_append.mp horder with hold | hnew
    · exact hbought.orders order hold
    · rw [List.mem_singleton.mp hnew]
      exact .inr ⟨rfl, hid,
        (unavailable_pos hintent).trans_le (terms.deficit_le buying.budget id)⟩
  | ineligible =>
    dsimp only at h
    rw [pure_ok_iff] at h
    subst h
    exact ⟨hbought.orders, hbought.fills⟩
  | sized deficit unrounded legal quantity => exact buySized_boughtOnly hid hintent h hbought

/-- The buy pass orders only candidates with a deficit, and fills only deficits that pay for a
hundred shares. -/
theorem runBuys_boughtOnly {terms : TargetTerms} {start bought : Buying E}
    (h : runBuys R terms start = .ok bought) :
    BoughtOnly R terms start.trading.journal bought.trading.journal := by
  have hloop : ∀ (ids : List InstrumentId) (buying : Buying E),
      (∀ id ∈ ids, id ∈ terms.sizing.buyCandidates) →
      BoughtOnly R terms start.trading.journal buying.trading.journal →
      ids.foldlM (buyStep R terms) buying = .ok bought →
      BoughtOnly R terms start.trading.journal bought.trading.journal := by
    intro ids
    induction ids with
    | nil =>
      intro buying _ hbuying h
      rw [List.foldlM_nil, pure_ok_iff] at h
      exact h ▸ hbuying
    | cons id ids ih =>
      intro buying hids hbuying h
      rw [List.foldlM_cons, bind_ok_iff] at h
      obtain ⟨middle, hstep, h⟩ := h
      exact ih middle (fun id' hid' => hids id' (List.mem_cons_of_mem id hid'))
        (buyStep_boughtOnly (hids id List.mem_cons_self) hstep hbuying) h
  exact hloop _ start (fun _ h => h) ⟨fun _ h => .inl h, fun _ h => .inl h⟩ h

end ThesisTrace.Strategy
