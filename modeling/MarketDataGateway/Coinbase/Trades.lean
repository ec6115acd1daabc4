import MarketDataGateway.Coinbase.Events

/-!
# Trades and their sums

`Trade` is what a trade of a message says, and `IsTrade` that an object says it. The loop over the
trades of a symbol reads them one by one (`sumTrades_eq_ok`), and its totals are the sums of the
sizes, with the ids in order, the last price, and the latest time (`Sums`).
-/

namespace MarketDataGateway.Coinbase

open Lib Models

/-- What a trade says. -/
structure Trade where
  /-- `size`. -/
  size : Extended NonNegativeDecimal
  /-- `price`. -/
  price : Extended PositiveDecimal
  /-- `side`, which is that of the maker. -/
  side : MakerSide
  /-- `trade_id`. -/
  id : PyStr
  /-- `time`, if the trade has one. -/
  time : Option AwareDatetime

/-- The object says the trade. -/
structure IsTrade (py : Python) (row : Mapping) (t : Trade) : Prop where
  size : nonNegativeDecimal py (get row "size") "size" = .ok t.size
  price : positiveDecimal py (get row "price") "price" = .ok t.price
  side : makerSide py row = .ok t.side
  id : tradeId py row = .ok t.id
  time : tradeTime py row = .ok t.time

/-- Adds a trade to the totals. -/
def Totals.add (totals : Totals) (t : Trade) : Except Fault Totals := do
  let totals ← totals.addFlow t.side t.size
  let volume ← addSize totals.volume t.size
  .ok { totals with
    volume
    tradeIds := totals.tradeIds ++ [t.id]
    latestPrice := some t.price
    latestTimestamp := later totals.latestTimestamp t.time }

/-- The sum of sizes, from zero on. -/
def sumSizes (sizes : List (Extended NonNegativeDecimal)) :
    Except Fault (Extended NonNegativeDecimal) :=
  sizes.foldlM addSize (.finite zero)

/-- The sizes of the trades of a maker's side. -/
def sizesOf (side : MakerSide) (trades : List Trade) : List (Extended NonNegativeDecimal) :=
  (trades.filter fun t => t.side = side).map Trade.size

/-- The totals are those of the trades. -/
structure Sums (messageTimestamp : AwareDatetime) (trades : List Trade)
    (totals : Totals) : Prop where
  volume : sumSizes (trades.map Trade.size) = .ok totals.volume
  buyVolume : sumSizes (sizesOf .sell trades) = .ok totals.buyVolume
  sellVolume : sumSizes (sizesOf .buy trades) = .ok totals.sellVolume
  tradeIds : totals.tradeIds = trades.map Trade.id
  latestPrice : totals.latestPrice = trades.getLast?.map Trade.price
  latestTimestamp : totals.latestTimestamp =
    trades.foldl (fun latest t => later latest t.time) messageTimestamp

section Sums

variable {py : Python} {messageTimestamp : AwareDatetime} {totals totals' : Totals} {row : Mapping}
  {rows : List Mapping} {t : Trade} {trades : List Trade}

/-- A trade is added exactly if all its fields are read and the sums do not overflow. -/
theorem addTrade_eq_ok : addTrade py totals row = .ok totals' ↔
    ∃ t, IsTrade py row t ∧ totals.add t = .ok totals' := by
  unfold addTrade Totals.add
  simp only [bind_eq_ok]
  constructor
  · rintro ⟨size, hsize, price, hprice, side, hside, flow, hflow, id, hid, volume,
      hvolume, time, htime, h⟩
    exact ⟨⟨size, price, side, id, time⟩, ⟨hsize, hprice, hside, hid, htime⟩, flow,
      hflow, volume, hvolume, h⟩
  · rintro ⟨t, ht, flow, hflow, volume, hvolume, h⟩
    exact ⟨_, ht.size, _, ht.price, _, ht.side, flow, hflow, _, ht.id, volume,
      hvolume, _, ht.time, h⟩

/-- Rows are added if each one is a trade and the trades add up. -/
theorem foldlM_addTrade_eq_ok : rows.foldlM (addTrade py) totals = .ok totals' ↔
    ∃ trades, List.Forall₂ (IsTrade py) rows trades ∧
    trades.foldlM Totals.add totals = .ok totals' := by
  induction rows generalizing totals with
  | nil =>
    simp only [List.foldlM_nil, List.forall₂_nil_left_iff, exists_eq_left]
  | cons row rows ih =>
    simp only [List.foldlM_cons, List.forall₂_cons_left_iff, bind_eq_ok, addTrade_eq_ok, ih]
    constructor
    · rintro ⟨next, ⟨t, ht, hnext⟩, trades, htrades, h⟩
      exact ⟨t :: trades, ⟨t, trades, ht, htrades, rfl⟩, bind_eq_ok.2 ⟨next, hnext, h⟩⟩
    · rintro ⟨_, ⟨t, trades, ht, htrades, rfl⟩, h⟩
      rw [List.foldlM_cons] at h
      obtain ⟨next, hnext, h⟩ := bind_eq_ok.1 h
      exact ⟨next, ⟨t, ht, hnext⟩, trades, htrades, h⟩

/-- The sum of one more size. -/
theorem sumSizes_append {sizes : List (Extended NonNegativeDecimal)}
    {size sum : Extended NonNegativeDecimal} :
    sumSizes (sizes ++ [size]) = .ok sum ↔
    ∃ s, sumSizes sizes = .ok s ∧ addSize s size = .ok sum := by
  rw [sumSizes, List.foldlM_append, bind_eq_ok]
  simp only [List.foldlM_cons, List.foldlM_nil, bind_pure]
  rfl

/-- A sum over a side takes in one more trade if that is of the side. -/
theorem sumSizes_sizesOf_append {side : MakerSide} {sum : Extended NonNegativeDecimal} :
    sumSizes (sizesOf side (trades ++ [t])) = .ok sum ↔
    ∃ s, sumSizes (sizesOf side trades) = .ok s ∧
      if t.side = side then addSize s t.size = .ok sum else sum = s := by
  unfold sizesOf
  rw [List.filter_append, List.map_append]
  by_cases h : t.side = side
  · simp only [h, decide_true, List.filter_cons_of_pos, List.filter_nil, List.map_cons,
      List.map_nil, if_true]
    exact sumSizes_append
  · have hnone : (List.filter (fun t => decide (t.side = side)) [t]).map Trade.size =
      [] := by simp [h]
    rw [hnone, List.append_nil]
    simp only [h, if_false]
    constructor
    · exact fun hsum => ⟨sum, hsum, rfl⟩
    · rintro ⟨s, hs, rfl⟩
      exact hs

/-- The totals after one more trade, field by field. -/
theorem Totals.add_eq_ok : totals.add t = .ok totals' ↔
    addSize totals.volume t.size = .ok totals'.volume ∧
    (if t.side = .sell then addSize totals.buyVolume t.size = .ok totals'.buyVolume
      else totals'.buyVolume = totals.buyVolume) ∧
    (if t.side = .buy then addSize totals.sellVolume t.size = .ok totals'.sellVolume
      else totals'.sellVolume = totals.sellVolume) ∧
    totals'.tradeIds = totals.tradeIds ++ [t.id] ∧ totals'.latestPrice = some t.price ∧
    totals'.latestTimestamp = later totals.latestTimestamp t.time := by
  obtain ⟨volume, buy, sell, ids, price, time⟩ := totals'
  unfold Totals.add Totals.addFlow
  cases t.side with
  | buy =>
    simp only [bind_eq_ok, Except.ok.injEq, Totals.mk.injEq, reduceCtorEq, if_false, if_true]
    constructor
    · rintro ⟨flow, ⟨s, hs, rfl⟩, v, hv, rfl, rfl, rfl, rfl, rfl, rfl⟩
      exact ⟨hv, rfl, hs, rfl, rfl, rfl⟩
    · rintro ⟨hv, rfl, hs, rfl, rfl, rfl⟩
      exact ⟨_, ⟨_, hs, rfl⟩, _, hv, rfl, rfl, rfl, rfl, rfl, rfl⟩
  | sell =>
    simp only [bind_eq_ok, Except.ok.injEq, Totals.mk.injEq, reduceCtorEq, if_false, if_true]
    constructor
    · rintro ⟨flow, ⟨s, hs, rfl⟩, v, hv, rfl, rfl, rfl, rfl, rfl, rfl⟩
      exact ⟨hv, hs, rfl, rfl, rfl, rfl⟩
    · rintro ⟨hv, hs, rfl, rfl, rfl, rfl⟩
      exact ⟨_, ⟨_, hs, rfl⟩, _, hv, rfl, rfl, rfl, rfl, rfl, rfl⟩

/-- The loop over trades sums them. -/
theorem foldlM_add_eq_ok : trades.foldlM Totals.add (.initial messageTimestamp) = .ok totals ↔
    Sums messageTimestamp trades totals := by
  induction trades using List.reverseRecOn generalizing totals with
  | nil =>
    obtain ⟨volume, buy, sell, ids, price, time⟩ := totals
    constructor
    · intro h
      obtain ⟨rfl, rfl, rfl, rfl, rfl, rfl⟩ := Totals.mk.inj (Except.ok.inj h)
      exact ⟨rfl, rfl, rfl, rfl, rfl, rfl⟩
    · rintro ⟨hvolume, hbuy, hsell, rfl, rfl, rfl⟩
      obtain rfl := Except.ok.inj hvolume
      obtain rfl := Except.ok.inj hbuy
      obtain rfl := Except.ok.inj hsell
      rfl
  | append_singleton trades t ih =>
    -- The last trade is added to the sums of those before it.
    have hloop : (trades ++ [t]).foldlM Totals.add (.initial messageTimestamp) = .ok totals ↔
        ∃ before, Sums messageTimestamp trades before ∧ before.add t = .ok totals := by
      rw [List.foldlM_append, bind_eq_ok]
      simp only [ih, List.foldlM_cons, List.foldlM_nil, bind_pure]
    have hlast : (trades ++ [t]).getLast?.map Trade.price = some t.price := by
      rw [List.getLast?_append_of_ne_nil _ (List.cons_ne_nil _ _)]
      rfl
    rw [hloop]
    simp only [Totals.add_eq_ok]
    constructor
    · rintro ⟨before, hsums, hvolume, hbuy, hsell, hids, hprice, htime⟩
      refine ⟨?_, ?_, ?_, ?_, ?_, ?_⟩
      · rw [List.map_append]
        exact sumSizes_append.2 ⟨_, hsums.volume, hvolume⟩
      · exact sumSizes_sizesOf_append.2 ⟨_, hsums.buyVolume, hbuy⟩
      · exact sumSizes_sizesOf_append.2 ⟨_, hsums.sellVolume, hsell⟩
      · rw [hids, hsums.tradeIds, List.map_append]
        rfl
      · rw [hprice, hlast]
      · rw [htime, hsums.latestTimestamp, List.foldl_append]
        rfl
    · intro h
      have hvolume := h.volume
      rw [List.map_append] at hvolume
      obtain ⟨volume, hv, hvolume⟩ := sumSizes_append.1 hvolume
      obtain ⟨buy, hb, hbuy⟩ := sumSizes_sizesOf_append.1 h.buyVolume
      obtain ⟨sell, hs, hsell⟩ := sumSizes_sizesOf_append.1 h.sellVolume
      refine ⟨⟨volume, buy, sell, _, _, _⟩, ⟨hv, hb, hs, rfl, rfl, rfl⟩, hvolume,
        hbuy, hsell, ?_, ?_, ?_⟩
      · rw [h.tradeIds, List.map_append]
        rfl
      · rw [h.latestPrice, hlast]
      · rw [h.latestTimestamp, List.foldl_append]
        rfl

/-- The loop over the trades of a symbol reads all of them, and sums them. -/
theorem sumTrades_eq_ok : sumTrades py messageTimestamp rows = .ok totals ↔
    ∃ trades, List.Forall₂ (IsTrade py) rows trades ∧ Sums messageTimestamp trades totals := by
  rw [sumTrades, foldlM_addTrade_eq_ok]
  simp only [foldlM_add_eq_ok]

/-- An object says one trade at most. -/
theorem IsTrade.unique {t' : Trade} (h : IsTrade py row t) (h' : IsTrade py row t') : t = t' := by
  obtain ⟨size, price, side, id, time⟩ := t
  obtain ⟨size', price', side', id', time'⟩ := t'
  have hsize : size = size' := Except.ok.inj (h.size.symm.trans h'.size)
  have hprice : price = price' := Except.ok.inj (h.price.symm.trans h'.price)
  have hside : side = side' := Except.ok.inj (h.side.symm.trans h'.side)
  have hid : id = id' := Except.ok.inj (h.id.symm.trans h'.id)
  have htime : time = time' := Except.ok.inj (h.time.symm.trans h'.time)
  rw [hsize, hprice, hside, hid, htime]

end Sums

/-! ## Exact sums -/

/-- What a size amounts to, if it is finite. -/
def sizeValue : Extended NonNegativeDecimal → ℚ
  | .finite d => d.1.value
  | .infinite => 0

/-- No addition of the sum rounds. -/
def ExactSum (sizes : List (Extended NonNegativeDecimal)) : Prop :=
  ∀ before size after total sum, sizes = before ++ .finite size :: after →
    sumSizes before = .ok (.finite total) → PyDecimal.add total.1 size.1 = some sum →
    sum.value = total.1.value + size.1.value

section Exact

variable {sizes : List (Extended NonNegativeDecimal)} {size total : Extended NonNegativeDecimal}
  {sum : NonNegativeDecimal}

/-- A sum is finite only if both summands are. -/
theorem addSize_eq_finite (h : addSize total size = .ok (.finite sum)) :
    ∃ a b, total = .finite a ∧ size = .finite b ∧ PyDecimal.add a.1 b.1 = some sum.1 := by
  unfold addSize at h
  split at h
  · split at h
    · cases h
    · rename_i a b s hs
      refine ⟨a, b, rfl, rfl, ?_⟩
      rw [hs, ← Extended.finite.inj (Except.ok.inj h)]
  · cases h

/-- Finite sizes have the sum of their decimals. -/
theorem addSize_finite {a b : NonNegativeDecimal} {s : PyDecimal}
    (h : PyDecimal.add a.1 b.1 = some s) :
    addSize (.finite a) (.finite b) = .ok (.finite ⟨s, PyDecimal.add_nonneg h a.2 b.2⟩) := by
  rw [addSize]
  split
  · rename_i hnone
    cases h.symm.trans hnone
  · rename_i s' hs
    simp only [Option.some.inj (h.symm.trans hs)]

/-- A finite sum is one of finite sizes, and without rounding it amounts to what they amount to. -/
theorem sumSizes_eq_finite (h : sumSizes sizes = .ok (.finite sum)) :
    (∀ size ∈ sizes, size ≠ .infinite) ∧
      (ExactSum sizes → sum.1.value = (sizes.map sizeValue).sum) := by
  induction sizes using List.reverseRecOn generalizing sum with
  | nil =>
    have hsum : zero = sum := Extended.finite.inj (Except.ok.inj h)
    rw [← hsum]
    exact ⟨by simp, fun _ => by simp [zero, PyDecimal.value, PyDecimal.signed]⟩
  | append_singleton sizes size ih =>
    obtain ⟨total, htotal, hadd⟩ := sumSizes_append.1 h
    obtain ⟨a, b, rfl, rfl, hsum⟩ := addSize_eq_finite hadd
    obtain ⟨hfinite, hvalue⟩ := ih htotal
    refine ⟨fun size hsize => ?_, fun hexact => ?_⟩
    · rcases List.mem_append.1 hsize with hsize | hsize
      · exact hfinite size hsize
      · rw [List.mem_singleton.1 hsize]
        exact nofun
    · have hbefore : ExactSum sizes := by
        intro before x after t s hsizes
        refine hexact before x (after ++ [.finite b]) t s ?_
        rw [hsizes, List.append_assoc, List.cons_append]
      calc sum.1.value = a.1.value + b.1.value := hexact sizes b [] a sum.1 rfl htotal hsum
        _ = (sizes.map sizeValue).sum + b.1.value := by rw [hvalue hbefore]
        _ = ((sizes ++ [Extended.finite b]).map sizeValue).sum := by
          rw [List.map_append, List.sum_append, List.map_singleton, List.sum_singleton]
          rfl

/-- The sizes fit the precision of the context: they are finite multiples of a power of ten, and
their sum has no more digits above it than the precision allows. -/
def FitsPrecision (sizes : List (Extended NonNegativeDecimal)) : Prop :=
  ∃ e : ℤ, PyDecimal.etiny ≤ e ∧ e ≤ 0 ∧
    (∀ size ∈ sizes, ∃ d : NonNegativeDecimal, size = .finite d ∧ e ≤ d.1.exponent) ∧
    (sizes.map sizeValue).sum < 10 ^ (PyDecimal.prec + e)

/-- A size is not negative. -/
theorem sizeValue_nonneg (size : Extended NonNegativeDecimal) : 0 ≤ sizeValue size := by
  cases size with
  | finite d => exact d.2
  | infinite => exact le_refl _

/-- Sizes do not add up to less than zero. -/
theorem sum_sizeValue_nonneg (sizes : List (Extended NonNegativeDecimal)) :
    0 ≤ (sizes.map sizeValue).sum := by
  apply List.sum_nonneg
  intro x hx
  obtain ⟨size, -, rfl⟩ := List.mem_map.1 hx
  exact sizeValue_nonneg size

/-- Sizes that fit the precision have a sum, which is exact. -/
theorem sumSizes_of_fits {e : ℤ} (hetiny : PyDecimal.etiny ≤ e) (he : e ≤ 0)
    (hsizes : ∀ size ∈ sizes, ∃ d : NonNegativeDecimal, size = .finite d ∧ e ≤ d.1.exponent)
    (hsum : (sizes.map sizeValue).sum < 10 ^ (PyDecimal.prec + e)) :
    ∃ sum, sumSizes sizes = .ok (.finite sum) ∧ sum.1.value = (sizes.map sizeValue).sum ∧
      e ≤ sum.1.exponent := by
  induction sizes using List.reverseRecOn with
  | nil => exact ⟨zero, rfl, by simp [zero, PyDecimal.value, PyDecimal.signed], he⟩
  | append_singleton sizes size ih =>
    obtain ⟨d, rfl, hd⟩ := hsizes size (by simp)
    have hsplit : ((sizes ++ [Extended.finite d]).map sizeValue).sum =
        (sizes.map sizeValue).sum + d.1.value := by
      rw [List.map_append, List.sum_append, List.map_singleton, List.sum_singleton]
      rfl
    rw [hsplit] at hsum ⊢
    have hbefore : (sizes.map sizeValue).sum < 10 ^ (PyDecimal.prec + e) :=
      lt_of_le_of_lt (le_add_of_nonneg_right d.2) hsum
    obtain ⟨total, htotal, hvalue, hexponent⟩ :=
      ih (fun size hsize => hsizes size (List.mem_append_left _ hsize)) hbefore
    rw [← hvalue] at hsum ⊢
    obtain ⟨sum, hadd, hexact, hle⟩ :=
      PyDecimal.add_of_fits hetiny he hexponent hd total.2 d.2 hsum
    exact ⟨⟨sum, _⟩, sumSizes_append.2 ⟨_, htotal, addSize_finite hadd⟩, hexact, hle⟩

/-- Within the precision of the context, sums are exact. -/
theorem FitsPrecision.exactSum (h : FitsPrecision sizes) : ExactSum sizes := by
  obtain ⟨e, hetiny, he, hsizes, hsum⟩ := h
  rintro before size after total sum rfl htotal hadd
  obtain ⟨d, hd, hle⟩ := hsizes (.finite size) (by simp)
  obtain rfl := Extended.finite.inj hd
  have hrest := sum_sizeValue_nonneg after
  have hsplit : ((before ++ Extended.finite size :: after).map sizeValue).sum =
      (before.map sizeValue).sum + size.1.value + (after.map sizeValue).sum := by
    rw [List.map_append, List.sum_append, List.map_cons, List.sum_cons, ← add_assoc]
    rfl
  rw [hsplit] at hsum
  have hsize : 0 ≤ size.1.value := size.2
  obtain ⟨total', htotal', hvalue, hexponent⟩ := sumSizes_of_fits hetiny he
    (fun s hs => hsizes s (List.mem_append_left _ hs)) (by linarith)
  obtain rfl := Extended.finite.inj (Except.ok.inj (htotal.symm.trans htotal'))
  obtain ⟨sum', hadd', hexact, -⟩ := PyDecimal.add_of_fits hetiny he hexponent hle total.2 size.2
    (by linarith)
  rw [Option.some.inj (hadd.symm.trans hadd'), hexact]

end Exact

/-- The sizes of the trades are those of both sides. -/
theorem sum_sizes (trades : List Trade) : (trades.map fun t => sizeValue t.size).sum =
    ((sizesOf .sell trades).map sizeValue).sum + ((sizesOf .buy trades).map sizeValue).sum := by
  induction trades with
  | nil => simp [sizesOf]
  | cons t trades ih =>
    rw [List.map_cons, List.sum_cons, ih]
    unfold sizesOf
    cases hside : t.side <;> simp [hside] <;> ring

end MarketDataGateway.Coinbase
