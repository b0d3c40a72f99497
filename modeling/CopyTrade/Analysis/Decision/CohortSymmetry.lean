import CopyTrade.Foundation.Pruning
import CopyTrade.Foundation.Maps
import CopyTrade.Model.Core.Cohort

/-!
# The symmetries of the cohort

Over exact decimals the order in which the wallets are added up does not matter, negated positions
go to the other side, and the pass commutes with the exchange of the sides.
-/

namespace CopyTrade.Analysis

open Foundation Model Model.Cohort
open Model.ExactDecimal
open Std (ExtTreeMap ExtTreeSet)

variable {asset : String} {observedAtMs : ℕ} {allowed : ExtTreeSet String}
  {wallet : FilteredCohortWallet ℚ} {totals : WalletTotals ℚ}

def heldPosition (asset : String) (wallet : FilteredCohortWallet ℚ) :
    Option (AuthoritativeWalletPosition ℚ) :=
  wallet.positions[asset]?.filter fun position => position.signedNotional ≠ 0

/-- A wallet that is accepted if it has not been seen. -/
structure WalletFits (asset : String) (observedAtMs : ℕ) (allowed : ExtTreeSet String)
    (wallet : FilteredCohortWallet ℚ) : Prop where
  accepted : walletAccepted observedAtMs allowed ∅ wallet = true
  entry_pos : ∀ position, heldPosition asset wallet = some position → 0 < position.entryPrice

def sideWith (side : SideTotals ℚ) (raw weighted entryPrice : ℚ) : SideTotals ℚ :=
  ⟨side.traderCount + 1, side.notional + raw, side.weightedNotional + weighted,
    side.entryNumerator + entryPrice * weighted, side.entryDenominator + weighted⟩

def withPosition (totals : WalletTotals ℚ) (wallet : FilteredCohortWallet ℚ)
    (position : AuthoritativeWalletPosition ℚ) : WalletTotals ℚ :=
  let raw := |position.signedNotional|
  let weighted := raw * wallet.boundedWalletWeight
  let isLong := decide (0 ≤ position.signedNotional)
  { seen := totals.seen
    long := if isLong then sideWith totals.long raw weighted position.entryPrice else totals.long
    short := if isLong then totals.short
      else sideWith totals.short raw weighted position.entryPrice
    positionedWalletCount := totals.positionedWalletCount + 1
    dominantNotional := max totals.dominantNotional weighted
    signedWeightedQuality := totals.signedWeightedQuality +
      wallet.realizedQualityScore * wallet.boundedWalletWeight * (if isLong then 1 else -1)
    walletWeightTotal := totals.walletWeightTotal + wallet.boundedWalletWeight
    weightedPositiveUnrealizedPnl := totals.weightedPositiveUnrealizedPnl +
      max position.unrealizedPnl 0 * wallet.boundedWalletWeight }

def marked (totals : WalletTotals ℚ) (wallet : FilteredCohortWallet ℚ) : WalletTotals ℚ :=
  { totals with seen := totals.seen.insert wallet.address.toLower }

def withWallet (asset : String) (totals : WalletTotals ℚ) (wallet : FilteredCohortWallet ℚ) :
    WalletTotals ℚ :=
  match heldPosition asset wallet with
  | none => marked totals wallet
  | some position => withPosition (marked totals wallet) wallet position

theorem addPosition_eq (position : AuthoritativeWalletPosition ℚ) :
    totals.addPosition wallet position = .ok (withPosition totals wallet position) := by
  have hlong : Decimal.isSignPositive position.signedNotional =
      decide (0 ≤ position.signedNotional) := rfl
  unfold WalletTotals.addPosition withPosition SideTotals.add
  simp only [abs_eq, checkedMul_eq, checkedAdd_eq, checkedAddMul, Option.bind_some, max_eq, zero_eq,
    one_eq, neg_eq, orArithmetic, ok_bind, hlong]
  split <;> rfl

theorem walletAccepted_iff (seen : ExtTreeSet String) :
    walletAccepted observedAtMs allowed seen wallet = true ↔
      walletAccepted observedAtMs allowed ∅ wallet = true ∧ wallet.address.toLower ∉ seen := by
  have hempty : (∅ : ExtTreeSet String).contains wallet.address.toLower = false := by
    simp
  unfold walletAccepted
  rw [ExtTreeSet.mem_iff_contains]
  simp only [hempty, Bool.and_eq_true, Bool.not_eq_true', Bool.not_eq_true, Bool.not_false,
    and_true]
  tauto

theorem WalletFits.weight_nonneg (h : WalletFits asset observedAtMs allowed wallet) :
    0 ≤ wallet.boundedWalletWeight := by
  have haccepted := h.accepted
  simp only [walletAccepted, within, Bool.and_eq_true, le_iff_le, zero_eq] at haccepted
  exact haccepted.1.2.1

variable {next last : WalletTotals ℚ} {wallets : List (FilteredCohortWallet ℚ)}

theorem addWallet_eq_ok_iff :
    totals.addWallet asset observedAtMs allowed wallet = .ok next ↔
      WalletFits asset observedAtMs allowed wallet ∧ wallet.address.toLower ∉ totals.seen ∧
        next = withWallet asset totals wallet := by
  unfold WalletTotals.addWallet withWallet
  by_cases haccepted : walletAccepted observedAtMs allowed totals.seen wallet = true
  · obtain ⟨hfits, hunseen⟩ := (walletAccepted_iff totals.seen).mp haccepted
    simp only [haccepted, Bool.not_true, Bool.false_eq_true, if_false, hunseen, not_false_eq_true,
      true_and]
    have hiff : WalletFits asset observedAtMs allowed wallet ↔
        ∀ position, heldPosition asset wallet = some position → 0 < position.entryPrice :=
      ⟨WalletFits.entry_pos, fun h => ⟨hfits, h⟩⟩
    rw [hiff]
    cases hposition : wallet.positions[asset]? with
    | none =>
      simp only [heldPosition, hposition, Option.filter_none, reduceCtorEq, false_imp_iff,
        implies_true, true_and, Except.ok.injEq]
      exact eq_comm
    | some position =>
      by_cases hzero : position.signedNotional = 0
      · simp only [heldPosition, hposition, hzero, Option.filter_some, ne_eq, not_true_eq_false,
          decide_false, Bool.false_eq_true, if_false, reduceCtorEq, false_imp_iff, implies_true,
          true_and, (isZero_iff_eq_zero 0).mpr rfl, if_true, Except.ok.injEq]
        exact eq_comm
      · by_cases hentry : position.entryPrice ≤ 0
        · simp [heldPosition, hposition, hzero, hentry]
        · simp only [heldPosition, hposition, hzero, Option.filter_some, ne_eq, not_false_eq_true,
            decide_true, if_true, Option.some.injEq, forall_eq', not_le.mp hentry, true_and,
            (isZero_eq_false_iff_ne _).mpr hzero, Bool.false_eq_true, if_false, le_iff_le, zero_eq,
            hentry, addPosition_eq, Except.ok.injEq]
          exact eq_comm
  · have hnot : ¬ (WalletFits asset observedAtMs allowed wallet ∧
        wallet.address.toLower ∉ totals.seen) :=
      fun h => haccepted ((walletAccepted_iff totals.seen).mpr ⟨h.1.accepted, h.2⟩)
    rw [← and_assoc]
    simp [haccepted, hnot]

theorem withPosition_comm (other : FilteredCohortWallet ℚ)
    (first second : AuthoritativeWalletPosition ℚ) :
    withPosition (withPosition totals wallet first) other second =
      withPosition (withPosition totals other second) wallet first := by
  have hside (side : SideTotals ℚ) (a b c d e f : ℚ) :
      sideWith (sideWith side a b c) d e f = sideWith (sideWith side d e f) a b c := by
    simp only [sideWith, SideTotals.mk.injEq, true_and]
    exact ⟨add_right_comm .., add_right_comm .., add_right_comm .., add_right_comm ..⟩
  unfold withPosition
  simp only [WalletTotals.mk.injEq, true_and]
  refine ⟨?_, ?_, max_right_comm .., add_right_comm .., add_right_comm .., add_right_comm ..⟩
  · split <;> split <;> first | rfl | exact hside ..
  · split <;> split <;> first | rfl | exact hside ..

theorem withWallet_comm (other : FilteredCohortWallet ℚ) :
    withWallet asset (withWallet asset totals wallet) other =
      withWallet asset (withWallet asset totals other) wallet := by
  have hmarked : marked (marked totals wallet) other = marked (marked totals other) wallet := by
    have hseen : (totals.seen.insert wallet.address.toLower).insert other.address.toLower =
        (totals.seen.insert other.address.toLower).insert wallet.address.toLower := by
      ext address
      simp only [mem_set_insert]
      tauto
    simp only [marked, hseen]
  have hpasses (totals : WalletTotals ℚ) (a b : FilteredCohortWallet ℚ)
      (position : AuthoritativeWalletPosition ℚ) :
      marked (withPosition totals a position) b = withPosition (marked totals b) a position := rfl
  unfold withWallet
  cases heldPosition asset wallet with
  | none =>
    cases heldPosition asset other with
    | none => exact hmarked
    | some second => simp only [hpasses, hmarked]
  | some first =>
    cases heldPosition asset other with
    | none => simp only [hpasses, hmarked]
    | some second =>
      simp only [hpasses, hmarked]
      exact withPosition_comm other first second

theorem withWallet_seen :
    (withWallet asset totals wallet).seen = totals.seen.insert wallet.address.toLower := by
  unfold withWallet
  cases heldPosition asset wallet with
  | none => rfl
  | some position => rfl

theorem addWallet_exchange {other : FilteredCohortWallet ℚ} {middle : WalletTotals ℚ}
    (hfirst : totals.addWallet asset observedAtMs allowed wallet = .ok middle)
    (hsecond : middle.addWallet asset observedAtMs allowed other = .ok last) :
    ∃ middle, totals.addWallet asset observedAtMs allowed other = .ok middle ∧
      middle.addWallet asset observedAtMs allowed wallet = .ok last := by
  simp only [addWallet_eq_ok_iff] at *
  obtain ⟨hfits, hunseen, rfl⟩ := hfirst
  obtain ⟨hother, hnew, rfl⟩ := hsecond
  rw [withWallet_seen, mem_set_insert, not_or] at hnew
  refine ⟨_, ⟨hother, hnew.2, rfl⟩, hfits, ?_, withWallet_comm other⟩
  rw [withWallet_seen, mem_set_insert, not_or]
  exact ⟨Ne.symm hnew.1, hunseen⟩

def negated (wallet : FilteredCohortWallet ℚ) : FilteredCohortWallet ℚ :=
  { wallet with
    positions := wallet.positions.map fun _ position =>
      { position with signedNotional := -position.signedNotional } }

def mirrored (totals : WalletTotals ℚ) : WalletTotals ℚ :=
  { totals with
    long := totals.short
    short := totals.long
    signedWeightedQuality := -totals.signedWeightedQuality }

theorem heldPosition_negated : heldPosition asset (negated wallet) =
    (heldPosition asset wallet).map fun position =>
      { position with signedNotional := -position.signedNotional } := by
  unfold heldPosition negated
  rw [ExtTreeMap.getElem?_map]
  cases wallet.positions[asset]? with
  | none => rfl
  | some position =>
    by_cases hzero : position.signedNotional = 0 <;> simp [Option.filter_some, hzero]

theorem WalletFits.negated (h : WalletFits asset observedAtMs allowed wallet) :
    WalletFits asset observedAtMs allowed (negated wallet) := by
  refine ⟨h.accepted, fun position hposition => ?_⟩
  rw [heldPosition_negated, Option.map_eq_some_iff] at hposition
  obtain ⟨held, hheld, rfl⟩ := hposition
  exact h.entry_pos held hheld

theorem withWallet_negated : withWallet asset (mirrored totals) (negated wallet) =
    mirrored (withWallet asset totals wallet) := by
  unfold withWallet
  rw [heldPosition_negated]
  cases hheld : heldPosition asset wallet with
  | none => rfl
  | some position =>
    have hne : position.signedNotional ≠ 0 := by
      have hsome := (Option.filter_eq_some_iff.mp hheld).2
      simpa using hsome
    rcases lt_or_gt_of_ne hne with hside | hside
    · simp [withPosition, marked, mirrored, negated, hside.le, not_le.mpr hside]
      exact add_comm _ _
    · simp [withPosition, marked, mirrored, negated, hside.le, not_le.mpr hside, add_comm]

theorem addWallet_negated (h : totals.addWallet asset observedAtMs allowed wallet = .ok next) :
    (mirrored totals).addWallet asset observedAtMs allowed (negated wallet) =
      .ok (mirrored next) := by
  obtain ⟨hfits, hunseen, rfl⟩ := addWallet_eq_ok_iff.mp h
  exact addWallet_eq_ok_iff.mpr ⟨hfits.negated, hunseen, withWallet_negated.symm⟩

structure SumsBounded (totals : WalletTotals ℚ) : Prop where
  long_nonneg : 0 ≤ totals.long.weightedNotional
  short_nonneg : 0 ≤ totals.short.weightedNotional
  dominant_nonneg : 0 ≤ totals.dominantNotional
  dominant_le : totals.dominantNotional ≤
    totals.long.weightedNotional + totals.short.weightedNotional

theorem SumsBounded.add (hbounded : SumsBounded totals)
    (h : totals.addWallet asset observedAtMs allowed wallet = .ok next) : SumsBounded next := by
  obtain ⟨hfits, -, rfl⟩ := addWallet_eq_ok_iff.mp h
  unfold withWallet
  cases heldPosition asset wallet with
  | none => exact ⟨hbounded.1, hbounded.2, hbounded.3, hbounded.4⟩
  | some position =>
    have hweighted : 0 ≤ |position.signedNotional| * wallet.boundedWalletWeight :=
      mul_nonneg (abs_nonneg _) hfits.weight_nonneg
    obtain ⟨hlong, hshort, hdominant, hle⟩ := hbounded
    by_cases hside : 0 ≤ position.signedNotional
    · simp only [withPosition, marked, sideWith, hside, decide_true, if_true]
      exact ⟨add_nonneg hlong hweighted, hshort, le_max_of_le_left hdominant,
        max_le (by linarith) (by linarith)⟩
    · simp only [withPosition, marked, sideWith, hside, decide_false, Bool.false_eq_true, if_false]
      exact ⟨hlong, add_nonneg hshort hweighted, le_max_of_le_left hdominant,
        max_le (by linarith) (by linarith)⟩

theorem foldlM_perm {ε S α : Type} {f : S → α → Except ε S}
    (hexchange : ∀ s a b t u, f s a = .ok t → f t b = .ok u →
      ∃ r, f s b = .ok r ∧ f r a = .ok u)
    {l m : List α} (hperm : l.Perm m) {s t : S} (h : l.foldlM f s = .ok t) :
    m.foldlM f s = .ok t := by
  induction hperm generalizing s with
  | nil => exact h
  | cons a _ ih =>
    obtain ⟨r, hr, h⟩ := foldlM_cons_eq_ok_iff.mp h
    exact foldlM_cons_eq_ok_iff.mpr ⟨r, hr, ih h⟩
  | swap a b l =>
    obtain ⟨first, hfirst, h⟩ := foldlM_cons_eq_ok_iff.mp h
    obtain ⟨second, hsecond, h⟩ := foldlM_cons_eq_ok_iff.mp h
    obtain ⟨other, hother, hlast⟩ := hexchange s b a first second hfirst hsecond
    exact foldlM_cons_eq_ok_iff.mpr ⟨other, hother, foldlM_cons_eq_ok_iff.mpr ⟨second, hlast, h⟩⟩
  | trans _ _ ih₁ ih₂ => exact ih₂ (ih₁ h)

theorem addWallets_negated
    (h : wallets.foldlM (WalletTotals.addWallet asset observedAtMs allowed) totals = .ok last) :
    (wallets.map negated).foldlM (WalletTotals.addWallet asset observedAtMs allowed)
      (mirrored totals) = .ok (mirrored last) := by
  induction wallets generalizing totals with
  | nil =>
    rw [List.foldlM_nil, pure_eq_ok_iff] at h
    rw [h]
    rfl
  | cons wallet wallets ih =>
    obtain ⟨next, hnext, h⟩ := foldlM_cons_eq_ok_iff.mp h
    exact foldlM_cons_eq_ok_iff.mpr ⟨_, addWallet_negated hnext, ih h⟩

theorem SumsBounded.addAll (hbounded : SumsBounded totals)
    (h : wallets.foldlM (WalletTotals.addWallet asset observedAtMs allowed) totals = .ok last) :
    SumsBounded last := by
  induction wallets generalizing totals with
  | nil =>
    rw [List.foldlM_nil, pure_eq_ok_iff] at h
    rwa [← h]
  | cons wallet wallets ih =>
    obtain ⟨next, hnext, h⟩ := foldlM_cons_eq_ok_iff.mp h
    exact ih (hbounded.add hnext) h

def traderBias (long short : ℕ) : ℚ := ((long : ℚ) - short) / ((long : ℚ) + short)

def sideBias (totals : WalletTotals ℚ) : ℚ :=
  (totals.long.weightedNotional - totals.short.weightedNotional) /
    (totals.long.weightedNotional + totals.short.weightedNotional)

def positionOf (totals : WalletTotals ℚ) : ℚ :=
  clampUnit (70 / 100 * sideBias totals +
    30 / 100 * traderBias totals.long.traderCount totals.short.traderCount)

def sideEntry (side : SideTotals ℚ) : Option ℚ :=
  if side.entryDenominator = 0 then none else some (side.entryNumerator / side.entryDenominator)

theorem clampUnit_eq (value : ℚ) : clampUnit value = clampTo 1 value := by
  unfold clampUnit Decimal.clamp clampTo
  simp only [lt_iff_lt, neg_eq, one_eq]
  split
  · rename_i hlow
    rw [max_eq_left ((min_le_left value 1).trans hlow.le)]
  · rename_i hlow
    rw [max_eq_right (le_min (not_lt.mp hlow) (by norm_num))]
    split
    · rename_i hhigh
      exact (min_eq_right hhigh.le).symm
    · rename_i hhigh
      exact (min_eq_left (not_lt.mp hhigh)).symm

theorem ratioOrZero_eq (numerator denominator : ℚ) :
    ratioOrZero (some numerator) denominator = .ok (numerator / denominator) := by
  unfold ratioOrZero
  by_cases hzero : denominator = 0
  · simp [hzero]
  · simp [hzero, checkedDiv_eq hzero, orArithmetic]

theorem countBias_eq (long short : ℕ) :
    (countBias long short : Except CohortError ℚ) = .ok (traderBias long short) := by
  have hvalue (value : ℤ) : (Decimal.new value 0 : ℚ) = value := by simp [Decimal.new]
  unfold countBias traderBias
  split
  · rename_i hnone
    obtain ⟨rfl, rfl⟩ := Nat.add_eq_zero_iff.mp hnone
    simp
  · rename_i hsome
    have hne : (((long + short : ℕ) : ℤ) : ℚ) ≠ 0 := by exact_mod_cast hsome
    rw [hvalue, hvalue, checkedDiv_eq hne, orArithmetic]
    push_cast
    rfl

theorem observedEntryOpportunity_eq (position : ℚ) (long short : SideTotals ℚ) :
    observedEntryOpportunity position long short =
      .ok (if 0 ≤ position then sideEntry long else sideEntry short) := by
  have hentry (side : SideTotals ℚ) (h : side.entryDenominator ≠ 0) :
      side.entry = .ok (some (side.entryNumerator / side.entryDenominator)) := by
    unfold SideTotals.entry
    rw [checkedDiv_eq h]
    rfl
  unfold observedEntryOpportunity sideEntry
  by_cases hside : 0 ≤ position
  · by_cases hzero : long.entryDenominator = 0
    · simp [hside, hzero]
    · simp [hside, hzero, hentry]
  · by_cases hzero : short.entryDenominator = 0
    · simp [hside, hzero]
    · simp [hside, hzero, hentry]

theorem aggregate_eq (walletCount : ℕ) :
    totals.aggregate asset observedAtMs walletCount = .ok
      { asset
        observedAtMs
        walletCountAfterFiltering := walletCount
        positionedWalletCount := totals.positionedWalletCount
        longNotional := totals.long.notional
        shortNotional := totals.short.notional
        weightedLongNotional := totals.long.weightedNotional
        weightedShortNotional := totals.short.weightedNotional
        longTraderCount := totals.long.traderCount
        shortTraderCount := totals.short.traderCount
        notionalBias := sideBias totals
        traderCountBias := traderBias totals.long.traderCount totals.short.traderCount
        cohortPosition := positionOf totals
        weightedRealizedQuality :=
          clampUnit (totals.signedWeightedQuality / totals.walletWeightTotal)
        unrealizedProfitFraction := totals.weightedPositiveUnrealizedPnl /
          (totals.long.weightedNotional + totals.short.weightedNotional)
        dominantWalletPercentage := totals.dominantNotional * 100 /
          (totals.long.weightedNotional + totals.short.weightedNotional)
        observedEntryOpportunity := if 0 ≤ positionOf totals then sideEntry totals.long
          else sideEntry totals.short } := by
  have hcents (value : ℤ) : (Decimal.new value 2 : ℚ) = value / 100 := by
    simp only [Decimal.new]
    norm_num
  have hhundred : (Decimal.new 100 0 : ℚ) = 100 := by simp [Decimal.new]
  unfold WalletTotals.aggregate
  simp only [checkedAdd_eq, checkedSub_eq, checkedMul_eq, orArithmetic, ok_bind, ratioOrZero_eq,
    checkedAddMul, Option.bind_some, hcents, hhundred, countBias_eq, observedEntryOpportunity_eq]
  rfl

/-- The aggregate of the wallets whose positions are negated. -/
structure MirrorImage (a b : CohortAssetAggregate ℚ) : Prop where
  notionals : b.longNotional = a.shortNotional ∧ b.shortNotional = a.longNotional
  weighted : b.weightedLongNotional = a.weightedShortNotional ∧
    b.weightedShortNotional = a.weightedLongNotional
  counts : b.longTraderCount = a.shortTraderCount ∧ b.shortTraderCount = a.longTraderCount
  notional_bias : b.notionalBias = -a.notionalBias
  trader_count_bias : b.traderCountBias = -a.traderCountBias
  position : b.cohortPosition = -a.cohortPosition
  quality : b.weightedRealizedQuality = -a.weightedRealizedQuality
  dominant : b.dominantWalletPercentage = a.dominantWalletPercentage
  unrealized : b.unrealizedProfitFraction = a.unrealizedProfitFraction
  entry : a.cohortPosition ≠ 0 → b.observedEntryOpportunity = a.observedEntryOpportunity

structure RatiosBounded (a : CohortAssetAggregate ℚ) : Prop where
  notional_bias : a.notionalBias ∈ Set.Icc (-1) 1
  trader_count_bias : a.traderCountBias ∈ Set.Icc (-1) 1
  position : a.cohortPosition ∈ Set.Icc (-1) 1
  dominant : a.dominantWalletPercentage ∈ Set.Icc 0 100

theorem abs_bias_le {a b : ℚ} (ha : 0 ≤ a) (hb : 0 ≤ b) : |(a - b) / (a + b)| ≤ 1 := by
  rw [abs_div, abs_of_nonneg (add_nonneg ha hb)]
  apply div_le_one_of_le₀ _ (add_nonneg ha hb)
  exact abs_le.mpr ⟨by linarith, by linarith⟩

theorem bias_swap (a b : ℚ) : (b - a) / (b + a) = -((a - b) / (a + b)) := by
  rw [add_comm b a, ← neg_div, neg_sub]

theorem positionOf_mirrored : positionOf (mirrored totals) = -positionOf totals := by
  have hside : sideBias (mirrored totals) = -sideBias totals := bias_swap _ _
  have hcount : traderBias totals.short.traderCount totals.long.traderCount =
    -traderBias totals.long.traderCount totals.short.traderCount := bias_swap _ _
  unfold positionOf
  rw [hside, show (mirrored totals).long = totals.short from rfl,
    show (mirrored totals).short = totals.long from rfl, hcount, clampUnit_eq, clampUnit_eq,
    ← clampTo_neg zero_le_one]
  congr 1
  ring

/-- **The aggregation is symmetric.**  The order of the wallets does not matter, negated positions
give the mirror image, and the ratios keep to their ranges. -/
theorem cohort_aggregation_symmetric (asset : String) (observedAtMs : ℕ)
    (allowed : ExtTreeSet String) (wallets : List (FilteredCohortWallet ℚ))
    {a : CohortAssetAggregate ℚ}
    (h : aggregateAuthoritativePositions asset observedAtMs allowed wallets = .ok a) :
    (∀ others, wallets.Perm others →
      aggregateAuthoritativePositions asset observedAtMs allowed others = .ok a) ∧
    (∃ b, aggregateAuthoritativePositions asset observedAtMs allowed (wallets.map negated) = .ok b ∧
      MirrorImage a b) ∧
    RatiosBounded a := by
  unfold aggregateAuthoritativePositions at h ⊢
  split at h
  · cases h
  rename_i hguard
  simp only [hguard, Bool.false_eq_true, if_false]
  obtain ⟨totals, htotals, h⟩ := of_bind h
  have hstart : SumsBounded WalletTotals.zero := by
    constructor <;> simp [WalletTotals.zero, SideTotals.zero]
  have hbounded := hstart.addAll htotals
  have hmirrored : (mirrored WalletTotals.zero : WalletTotals ℚ) = WalletTotals.zero := by
    simp [mirrored, WalletTotals.zero]
  have hnegated := addWallets_negated htotals
  rw [hmirrored] at hnegated
  rw [aggregate_eq, Except.ok.injEq] at h
  refine ⟨fun others hperm => ?_,
    ⟨_, bind_eq_ok_iff.mpr ⟨mirrored totals, hnegated, aggregate_eq _⟩, ?_⟩, ?_⟩
  · refine bind_eq_ok_iff.mpr ⟨totals, foldlM_perm ?_ hperm htotals, ?_⟩
    · intro s first second t u hfirst hsecond
      exact addWallet_exchange hfirst hsecond
    · rw [← hperm.length_eq, aggregate_eq, h]
  · subst h
    have hquality : -totals.signedWeightedQuality / totals.walletWeightTotal =
      -(totals.signedWeightedQuality / totals.walletWeightTotal) := neg_div _ _
    constructor
    · exact ⟨rfl, rfl⟩
    · exact ⟨rfl, rfl⟩
    · exact ⟨rfl, rfl⟩
    · exact bias_swap _ _
    · exact bias_swap _ _
    · exact positionOf_mirrored
    · simp only [mirrored, hquality, clampUnit_eq, clampTo_neg zero_le_one]
    · simp only [mirrored, add_comm]
    · simp only [mirrored, add_comm]
    · intro hne
      have hposition : positionOf totals ≠ 0 := hne
      simp only [positionOf_mirrored, Left.nonneg_neg_iff]
      rcases lt_or_gt_of_ne hposition with hside | hside
      · rw [if_pos hside.le, if_neg (not_le.mpr hside)]
        rfl
      · rw [if_neg (not_le.mpr hside), if_pos hside.le]
        rfl
  · subst h
    have hgross := add_nonneg hbounded.long_nonneg hbounded.short_nonneg
    constructor
    · exact abs_le.mp (abs_bias_le hbounded.long_nonneg hbounded.short_nonneg)
    · exact abs_le.mp (abs_bias_le (Nat.cast_nonneg _) (Nat.cast_nonneg _))
    · simp only [positionOf, clampUnit_eq]
      exact abs_le.mp (abs_clampTo_le_bound zero_le_one)
    · have hdominant := hbounded.dominant_le
      refine ⟨div_nonneg (mul_nonneg hbounded.dominant_nonneg (by norm_num)) hgross, ?_⟩
      rw [mul_comm, mul_div_assoc]
      exact mul_le_of_le_one_right (by norm_num) (div_le_one_of_le₀ hdominant hgross)

def memberAddress : String := "0x0000000000000000000000000000000000000001"

def memberWallet : FilteredCohortWallet ℚ :=
  ⟨memberAddress, 1, 1, 1, ExtTreeMap.ofList [("BTC", ⟨1000, 100, 0⟩)] compare⟩

theorem cohort_aggregation_symmetric_long : ∃ a,
    aggregateAuthoritativePositions "BTC" 1 (ExtTreeSet.ofList [memberAddress] compare)
      [memberWallet] = .ok a ∧ a.cohortPosition = 1 ∧ RatiosBounded a := by
  have hsome : (aggregateAuthoritativePositions "BTC" 1
      (ExtTreeSet.ofList [memberAddress] compare) [memberWallet]).toOption.map
        CohortAssetAggregate.cohortPosition = some 1 := by
    decide +kernel
  obtain ⟨a, ha, hposition⟩ := Option.map_eq_some_iff.mp hsome
  have hok := eq_ok_of_toOption ha
  exact ⟨a, hok, hposition, (cohort_aggregation_symmetric _ _ _ _ hok).2.2⟩

end CopyTrade.Analysis
