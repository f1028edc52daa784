import ThesisTrace.Strategy.OrderExecution

/-!
# Child orders

An order above the cap of its board is split into full children and a remainder. On `cap` shares
a child and `remaining` shares at the end, the quantities of the children are known, and with them
that each is legal on the board: only the residue of a complete liquidation need not be.
-/

namespace ThesisTrace.Strategy
open Transaction

variable {R : Rounding} {costs : Costs} {data : MarketData}

/-! ### Boards -/

/-- A quantity that the board takes as an order of its own. -/
def Board.Legal (board : Board) (quantity : ℕ) : Prop :=
  0 < quantity ∧ legalOrderQuantity board quantity false = .ok quantity

lemma Board.legal_iff {board : Board} {quantity : ℕ} :
    board.Legal quantity ↔ board ≠ .other ∧ 0 < quantity ∧ board.minimum ≤ quantity ∧
      (board = .star ∨ quantity % 100 = 0) := by
  cases board <;> simp [Board.Legal, legalOrderQuantity, Board.minimum] <;> omega

lemma Board.cap_eq_some_iff {board : Board} : (∃ cap, board.cap = some cap) ↔ board ≠ .other := by
  cases board <;> simp [Board.cap]

/-- The caps of the lot boards are whole lots, and every cap exceeds two minimum orders. -/
lemma Board.cap_bounds {board : Board} {cap : ℕ} (h : board.cap = some cap) :
    board ≠ .other ∧ 0 < board.minimum ∧ 2 * board.minimum ≤ cap ∧
      (board = .star ∨ cap % 100 = 0 ∧ board.minimum = 100) := by
  cases board <;> simp only [Board.cap, Option.some.injEq, reduceCtorEq] at h <;> subst h <;>
    simp [Board.minimum]

/-- What the lot rule leaves is a multiple of the lot, or at least the minimum. -/
lemma legalOrderQuantity_lot {board : Board} {target : ℤ} {quantity : ℕ}
    (h : legalOrderQuantity board target false = .ok quantity) (hpos : 0 < quantity) :
    board.Legal quantity := by
  rw [Board.legal_iff]
  cases board with
  | main | chinext =>
    simp only [legalOrderQuantity, Bool.false_eq_true, if_false, Except.ok.injEq] at h
    simp only [Board.minimum]
    refine ⟨by decide, hpos, ?_, .inr ?_⟩ <;> omega
  | star =>
    simp only [legalOrderQuantity, Bool.false_eq_true, if_false, Except.ok.injEq] at h
    simp only [Board.minimum]
    refine ⟨by decide, hpos, ?_, .inl trivial⟩
    split at h <;> omega
  | other => simp [legalOrderQuantity] at h

/-! ### Splitting -/

/-- `full` children of `cap` shares and `remaining` shares, which take what is missing to the
minimum from the last full child unless the order liquidates. -/
def childQuantities (cap minimum : ℕ) (complete : Bool) (full remaining : ℕ) : List ℕ :=
  if complete = false ∧ 0 < full ∧ remaining < minimum then
    List.replicate (full - 1) cap ++ [cap - (minimum - remaining), minimum]
  else List.replicate full cap ++ [remaining]

/-- The loop takes full children while more than a child remains. -/
lemma fullChildren_eq {cap full fuel remaining : ℕ} (hpos : 0 < remaining) (hle : remaining ≤ cap)
    (hfuel : full ≤ fuel) :
    fullChildren cap fuel (full * cap + remaining) = (List.replicate full cap, remaining) := by
  induction full generalizing fuel with
  | zero =>
    cases fuel with
    | zero => simp [fullChildren]
    | succ fuel =>
      rw [fullChildren, if_neg (by omega)]
      simp
  | succ full ih =>
    obtain ⟨fuel, rfl⟩ : ∃ n, fuel = n + 1 := ⟨fuel - 1, by omega⟩
    have hmul : (full + 1) * cap = full * cap + cap := Nat.succ_mul full cap
    have hrest : (full + 1) * cap + remaining - cap = full * cap + remaining := by omega
    rw [fullChildren, if_pos (by omega), hrest, ih (by omega)]
    rfl

lemma lastChild_replicate {cap full remaining minimum : ℕ} :
    lastChild (List.replicate full cap) remaining minimum =
      childQuantities cap minimum false full remaining := by
  unfold lastChild childQuantities
  cases full with
  | zero => simp
  | succ full =>
    by_cases hlt : remaining < minimum
    · have hlast : (List.replicate (full + 1) cap).getLast? = some cap := by
        rw [List.getLast?_replicate]
        rfl
      have hfill : remaining + (minimum - remaining) = minimum := by omega
      simp [hlt, hlast, hfill, List.dropLast_replicate]
    · simp [hlt]

/-- Every positive order is some full children and a remainder. -/
lemma exists_full_remaining {cap quantity : ℕ} (hcap : 0 < cap) (hpos : 0 < quantity) :
    ∃ full remaining, quantity = full * cap + remaining ∧ 0 < remaining ∧ remaining ≤ cap ∧
      full ≤ quantity := by
  have hdiv := Nat.div_add_mod (quantity - 1) cap
  have hmod := Nat.mod_lt (quantity - 1) hcap
  have hcomm : cap * ((quantity - 1) / cap) = (quantity - 1) / cap * cap := Nat.mul_comm _ _
  have hle := Nat.div_le_self (quantity - 1) cap
  exact ⟨(quantity - 1) / cap, (quantity - 1) % cap + 1, by omega, by omega, by omega, by omega⟩

/-- The children of an order. -/
theorem splitChildOrders_eq {board : Board} {cap full remaining : ℕ} {complete : Bool}
    (hcap : board.cap = some cap) (hpos : 0 < remaining) (hle : remaining ≤ cap)
    (hlot : complete = true ∨ board = .star ∨ (full * cap + remaining) % 100 = 0) :
    splitChildOrders board (full * cap + remaining) complete =
      .ok (childQuantities cap board.minimum complete full remaining) := by
  have hbounds := Board.cap_bounds hcap
  have hfuel : full ≤ full * cap + remaining := by
    have := Nat.le_mul_of_pos_right full (show 0 < cap by omega)
    omega
  have hne : remaining ≠ 0 := by omega
  unfold splitChildOrders
  simp only [hcap, found_ok_iff, require_ok_iff, bind_ok_iff]
  refine ⟨cap, rfl, (), hlot, ?_⟩
  rw [fullChildren_eq hpos hle hfuel]
  dsimp only
  rw [if_neg hne]
  cases complete with
  | true =>
    have hfull : childQuantities cap board.minimum true full remaining =
        List.replicate full cap ++ [remaining] := if_neg (by simp)
    rw [hfull]
    rfl
  | false =>
    rw [lastChild_replicate]
    rfl

/-- The shares of each child: positive, capped, and legal on the board apart from the residue. -/
lemma childQuantities_legal {board : Board} {cap full remaining : ℕ} {complete : Bool}
    (hcap : board.cap = some cap) (hpos : 0 < remaining) (hle : remaining ≤ cap)
    (hlegal : complete = true ∨ board.Legal (full * cap + remaining)) :
    let children := childQuantities cap board.minimum complete full remaining
    (∀ child ∈ children, 0 < child ∧ child ≤ cap) ∧
      (∀ child ∈ children.dropLast, board.Legal child) ∧
      (complete = false → ∀ child ∈ children, board.Legal child) := by
  obtain ⟨hother, hmin, hdouble, hlots⟩ := Board.cap_bounds hcap
  have hcapLegal : board.Legal cap := by
    rw [Board.legal_iff]
    exact ⟨hother, by omega, by omega, hlots.imp_right And.left⟩
  dsimp only
  unfold childQuantities
  by_cases htop : complete = false ∧ 0 < full ∧ remaining < board.minimum
  · -- A remainder below the minimum only exists where single shares are traded.
    have hstar : board = .star := by
      rcases hlegal with htrue | hlegal
      · simp [htop.1] at htrue
      · rw [Board.legal_iff] at hlegal
        rcases hlots with hstar | ⟨hlots, hlot⟩
        · exact hstar
        · refine hlegal.2.2.2.resolve_right fun hmod => ?_
          rw [Nat.add_mod, Nat.mul_mod, hlots] at hmod
          simp only [Nat.mul_zero, Nat.zero_mod, Nat.zero_add, Nat.mod_mod] at hmod
          omega
    have hlastLegal : board.Legal (cap - (board.minimum - remaining)) := by
      rw [Board.legal_iff]
      exact ⟨hother, by omega, by omega, .inl hstar⟩
    have hminLegal : board.Legal board.minimum := by
      rw [Board.legal_iff]
      exact ⟨hother, hmin, le_rfl, .inl hstar⟩
    rw [if_pos htop]
    have hall : ∀ child ∈ List.replicate (full - 1) cap ++
        [cap - (board.minimum - remaining), board.minimum],
        (0 < child ∧ child ≤ cap) ∧ board.Legal child := by
      intro child hchild
      simp only [List.mem_append, List.mem_replicate, List.mem_cons, List.not_mem_nil,
        or_false] at hchild
      rcases hchild with ⟨-, rfl⟩ | rfl | rfl
      · exact ⟨⟨by omega, le_rfl⟩, hcapLegal⟩
      · exact ⟨⟨by omega, by omega⟩, hlastLegal⟩
      · exact ⟨⟨by omega, by omega⟩, hminLegal⟩
    exact ⟨fun child h => (hall child h).1,
      fun child h => (hall child (List.dropLast_subset _ h)).2, fun _ child h => (hall child h).2⟩
  · rw [if_neg htop]
    refine ⟨fun child hchild => ?_, fun child hchild => ?_, fun hfalse child hchild => ?_⟩
    · simp only [List.mem_append, List.mem_replicate, List.mem_singleton] at hchild
      rcases hchild with ⟨-, rfl⟩ | rfl <;> omega
    · rw [List.dropLast_concat, List.mem_replicate] at hchild
      exact hchild.2 ▸ hcapLegal
    · simp only [List.mem_append, List.mem_replicate, List.mem_singleton] at hchild
      rcases hchild with ⟨-, rfl⟩ | rfl
      · exact hcapLegal
      · have horder := hlegal.resolve_left (by simp [hfalse])
        rw [Board.legal_iff] at horder ⊢
        refine ⟨hother, hpos, ?_, ?_⟩
        · by_cases hfull : 0 < full
          · exact not_lt.mp fun hlt => htop ⟨hfalse, hfull, hlt⟩
          · simp only [Nat.eq_zero_of_not_pos hfull, Nat.zero_mul, Nat.zero_add] at horder
            exact horder.2.2.1
        · rcases horder.2.2.2 with hstar | hmod
          · exact .inl hstar
          · refine hlots.imp_right fun hlots => ?_
            rw [Nat.add_mod, Nat.mul_mod, hlots.1] at hmod
            simpa using hmod

/-- The split of every order that the lot rule returns. `liquidates` is what the execution finds
by comparing the quantity with the shares that are held. -/
lemma splitChildOrders_legal {board : Board} {cap : ℕ} {target : ℤ} {complete liquidates : Bool}
    {quantity : ℕ} (hcap : board.cap = some cap)
    (hquantity : legalOrderQuantity board target complete = .ok quantity)
    (hliquidates : complete = true → liquidates = true) :
    ∃ children, splitChildOrders board quantity liquidates = .ok children ∧
      children.sum = quantity ∧ (∀ child ∈ children, 0 < child ∧ child ≤ cap) ∧
      (∀ child ∈ children.dropLast, board.Legal child) ∧
      (liquidates = false → ∀ child ∈ children, board.Legal child) := by
  have hbounds := Board.cap_bounds hcap
  rcases Nat.eq_zero_or_pos quantity with rfl | hpos
  · have hsplit : splitChildOrders board 0 liquidates = .ok [] := by
      unfold splitChildOrders
      simp only [hcap, found_ok_iff, require_ok_iff, bind_ok_iff]
      exact ⟨cap, rfl, (), .inr (.inr trivial), rfl⟩
    exact ⟨[], hsplit, by simp, by simp, by simp, by simp⟩
  · obtain ⟨full, remaining, rfl, hremaining, hle, -⟩ :=
      exists_full_remaining (show 0 < cap by omega) hpos
    have hlegal : liquidates = true ∨ board.Legal (full * cap + remaining) := by
      cases complete with
      | true => exact .inl (hliquidates rfl)
      | false => exact .inr (legalOrderQuantity_lot hquantity hpos)
    have hlot : liquidates = true ∨ board = .star ∨ (full * cap + remaining) % 100 = 0 :=
      hlegal.imp_right fun h => (Board.legal_iff.mp h).2.2.2
    have hsplit := splitChildOrders_eq hcap hremaining hle hlot
    exact ⟨_, hsplit, splitChildOrders_sum hsplit, childQuantities_legal hcap hremaining hle hlegal⟩

lemma childCosts_quantities (side : Side) (executionPrice : ℚ) (firstShare : ℕ)
    (quantities : List ℕ) :
    (childCosts R costs side executionPrice firstShare quantities).map ChildCost.quantity =
      quantities := by
  induction quantities generalizing firstShare with
  | nil => rfl
  | cons quantity quantities ih => simp [childCosts, ih]

/-- Every order that the lot rule returns is split into positive children up to the cap of the
board that add up to it. Each is legal on the board, apart from the last one of an order that
liquidates its position. The children of a filled order are these. -/
theorem child_orders_legal (board : Board) (cap : ℕ) (hcap : board.cap = some cap) (target : ℤ)
    (complete : Bool) (quantity : ℕ)
    (hquantity : legalOrderQuantity board target complete = .ok quantity) :
    (∃ children, splitChildOrders board quantity complete = .ok children ∧
      children.sum = quantity ∧ (∀ child ∈ children, 0 < child ∧ child ≤ cap) ∧
      (∀ child ∈ children.dropLast, board.Legal child) ∧
      (complete = false → ∀ child ∈ children, board.Legal child)) ∧
    ∀ (R : Rounding) (data : MarketData) (costs : Costs) (account : Account) (order : Order)
      (price : ExecutionPrice) (profile : InstrumentProfile) (outcome : OrderOutcome),
      data.instruments order.instrument = some profile → profile.board = board →
      order.quantity = quantity →
      (complete = true → order.side = .sell ∧
        (account.positions.lookup order.instrument).map Position.executionShares =
          some (quantity : ℤ)) →
      fillOrder R data costs account order price = .ok outcome →
      let children := outcome.childOrders.map ChildOrderEvent.quantity
      children.sum = quantity ∧ (∀ child ∈ children, 0 < child ∧ child ≤ cap) ∧
        (∀ child ∈ children.dropLast, board.Legal child) ∧
        ((account.positions.lookup order.instrument).map Position.executionShares ≠
            some (quantity : ℤ) → ∀ child ∈ children, board.Legal child) := by
  refine ⟨splitChildOrders_legal hcap hquantity id, ?_⟩
  rintro R data costs account order price profile outcome hprofile rfl rfl hcomplete hfill
  unfold fillOrder at hfill
  simp only [bind_ok_iff, found_ok_iff, pure_ok_iff, hprofile, Option.some.injEq] at hfill
  obtain ⟨_, rfl, quantities, hsplit, settlement, -, rfl⟩ := hfill
  obtain ⟨children, hchildren, hsum, hbounds, hlegal, hall⟩ := splitChildOrders_legal hcap
    hquantity fun h => decide_eq_true (hcomplete h)
  obtain rfl : children = quantities := Except.ok.inj (hchildren.symm.trans hsplit)
  have hquantities : (((childCosts R costs order.side (R.accounting (price.rawOpen *
      executionPriceFactor R order.side costs)) 0 children).map order.childOrder).map
        ChildOrderEvent.quantity) = children := by
    rw [List.map_map]
    exact childCosts_quantities order.side _ 0 children
  dsimp only
  rw [hquantities]
  exact ⟨hsum, hbounds, hlegal, fun hkeeps => hall (decide_eq_false fun h => hkeeps h.2)⟩

/-- A liquidation leaves a residue below the minimum of its board. -/
theorem child_orders_legal_residue :
    ∃ children, splitChildOrders .star 100150 true = .ok children ∧ children.sum = 100150 ∧
      (∀ child ∈ children, 0 < child ∧ child ≤ 100000) ∧
      (∀ child ∈ children.dropLast, Board.star.Legal child) ∧
      (true = false → ∀ child ∈ children, Board.star.Legal child) :=
  (child_orders_legal .star 100000 rfl 100150 true 100150 rfl).1

end ThesisTrace.Strategy
