import CopyTrade.Analysis.Risk.FinalValidation
import CopyTrade.Foundation.MapLoops
import CopyTrade.Foundation.Pruning
import Mathlib.Data.String.Basic

/-!
# The staged deltas of a portfolio without open orders

Staging keeps the deltas that do not enlarge the position of their asset, and then removes the
smallest of them on each side until the net exposure cannot get worse.  Of each side those stay that
fit, with all larger ones, into twice the net exposure on the other.
-/

namespace CopyTrade.Analysis

open Foundation Model Model.PortfolioRisk
open Model.ExactDecimal
open Std (ExtTreeMap ExtTreeSet)

def NoOpenOrders {D : Type} (input : PortfolioProjectionInput D) : Prop :=
  ∀ order ∈ input.acknowledgedOpenOrders, order.lifecycle = .cancelConfirmed

theorem activeOpenExposure_of_noOpenOrders {D : Type} [Decimal D]
    {input : PortfolioProjectionInput D} (h : NoOpenOrders input) :
    activeOpenExposure input = .ok ∅ := by
  unfold activeOpenExposure
  unfold NoOpenOrders at h
  generalize input.acknowledgedOpenOrders = orders at h
  induction orders with
  | nil => rfl
  | cons order orders ih =>
    rw [List.forall_mem_cons] at h
    rw [List.foldlM_cons, addOpenOrder, h.1]
    exact ih h.2

def assetsOf (input : PortfolioProjectionInput ℚ) : Finset String :=
  (portfolioAssets input).toList.toFinset

def filledOf (input : PortfolioProjectionInput ℚ) (asset : String) : ℚ :=
  valueAt input.filledPositions asset

def filledNet (input : PortfolioProjectionInput ℚ) : ℚ := ∑ asset ∈ assetsOf input, filledOf input asset

def OnSide (sells : Bool) (delta : ℚ) : Prop := if sells then delta < 0 else 0 < delta

instance (sells : Bool) (delta : ℚ) : Decidable (OnSide sells delta) :=
  inferInstanceAs (Decidable (if sells then delta < 0 else 0 < delta))

theorem onSide_true {delta : ℚ} : OnSide true delta ↔ delta < 0 := Iff.rfl

theorem onSide_false {delta : ℚ} : OnSide false delta ↔ 0 < delta := Iff.rfl

def sideOf (input : PortfolioProjectionInput ℚ) (sells : Bool) (delta : String → ℚ) :
    Finset String :=
  (assetsOf input).filter fun asset => OnSide sells (delta asset)

/-- The room for the sells of a long portfolio, or for the buys of a short one. -/
def roomFor (input : PortfolioProjectionInput ℚ) (sells : Bool) : ℚ :=
  room (if sells then filledNet input else -filledNet input)

/-- The deltas that staging keeps: they leave the position of their asset no larger. -/
def stagedDelta (input : PortfolioProjectionInput ℚ) (delta : String → ℚ) (asset : String) : ℚ :=
  if |filledOf input asset + delta asset| ≤ |filledOf input asset| then delta asset else 0

/-- The deltas of a side that fit, with all larger ones, into the room of the portfolio. -/
def keptOn (input : PortfolioProjectionInput ℚ) (sells : Bool) (delta : String → ℚ) :
    Finset String :=
  survivors (fun asset => |delta asset|) (roomFor input sells) (sideOf input sells delta)

def prunedDelta (input : PortfolioProjectionInput ℚ) (delta : String → ℚ) (asset : String) : ℚ :=
  if asset ∈ keptOn input true delta ∨ asset ∈ keptOn input false delta then delta asset else 0

section

variable {input : PortfolioProjectionInput ℚ} {delta : String → ℚ}

theorem mem_assetsOf {asset : String} : asset ∈ assetsOf input ↔ asset ∈ portfolioAssets input := by
  unfold assetsOf
  rw [List.mem_toFinset, ExtTreeSet.mem_toList]

theorem sum_assets (f : String → ℚ) :
    ((portfolioAssets input).toList.map f).sum = ∑ asset ∈ assetsOf input, f asset :=
  (List.sum_toFinset f (nodup_set_toList _)).symm

theorem sum_sells :
    ∑ asset ∈ assetsOf input, max (-delta asset) 0 = ∑ asset ∈ sideOf input true delta, |delta asset| := by
  unfold sideOf
  rw [Finset.sum_filter]
  refine Finset.sum_congr rfl fun asset _ => ?_
  split
  · rename_i hsell
    rw [onSide_true] at hsell
    rw [abs_of_neg hsell, max_eq_left (by linarith)]
  · rename_i hnot
    rw [onSide_true, not_lt] at hnot
    rw [max_eq_right (by linarith)]

theorem sum_buys :
    ∑ asset ∈ assetsOf input, max (delta asset) 0 = ∑ asset ∈ sideOf input false delta, |delta asset| := by
  unfold sideOf
  rw [Finset.sum_filter]
  refine Finset.sum_congr rfl fun asset _ => ?_
  split
  · rename_i hbuy
    rw [onSide_false] at hbuy
    rw [abs_of_pos hbuy, max_eq_left hbuy.le]
  · rename_i hnot
    rw [onSide_false, not_lt] at hnot
    rw [max_eq_right hnot]

theorem sum_abs_nonneg (side : Finset String) : 0 ≤ ∑ asset ∈ side, |delta asset| :=
  Finset.sum_nonneg fun asset _ => abs_nonneg (delta asset)

theorem exists_rangeMetrics (ranges : ExtTreeMap String (ExposureRange ℚ)) :
    ∃ metrics, rangeMetrics ranges = .ok metrics := by
  unfold rangeMetrics
  simp only [sumChecked_eq_ok, ok_bind]
  exact ⟨_, rfl⟩

theorem rangeMetrics_of_noOpenOrders {deltas : ExtTreeMap String ℚ}
    {ranges : ExtTreeMap String (ExposureRange ℚ)} {metrics : ℚ × ℚ × ℚ}
    (h : projectedRanges input (portfolioAssets input) ∅ deltas = .ok ranges)
    (hmetrics : rangeMetrics ranges = .ok metrics) :
    metrics.1 = ∑ asset ∈ assetsOf input,
        peak (filledOf input asset - max (-valueAt deltas asset) 0)
          (filledOf input asset + max (valueAt deltas asset) 0) ∧
      metrics.2.1 = filledNet input - ∑ asset ∈ sideOf input true (valueAt deltas),
        |valueAt deltas asset| ∧
      metrics.2.2 = filledNet input + ∑ asset ∈ sideOf input false (valueAt deltas),
        |valueAt deltas asset| := by
  obtain ⟨hgross, hlow, hhigh⟩ := rangeMetrics_eq_ok h hmetrics
  have hlows : rangeLow input ∅ deltas = fun asset =>
      filledOf input asset - max (-valueAt deltas asset) 0 := by
    funext asset
    unfold rangeLow openAt filledOf
    rw [ExtTreeMap.getElem?_empty, Option.getD_none, sub_zero]
  have hhighs : rangeHigh input ∅ deltas = fun asset =>
      filledOf input asset + max (valueAt deltas asset) 0 := by
    funext asset
    unfold rangeHigh openAt filledOf
    rw [ExtTreeMap.getElem?_empty, Option.getD_none, add_zero]
  rw [hlows, hhighs, sum_assets] at hgross
  rw [hlows, sum_assets, Finset.sum_sub_distrib, sum_sells] at hlow
  rw [hhighs, sum_assets, Finset.sum_add_distrib, sum_buys] at hhigh
  exact ⟨hgross, hlow, hhigh⟩

theorem mem_sideOf {sells : Bool} {asset : String} :
    asset ∈ sideOf input sells delta ↔ asset ∈ assetsOf input ∧ OnSide sells (delta asset) :=
  Finset.mem_filter

theorem OnSide.ne_zero {sells : Bool} {delta : ℚ} (h : OnSide sells delta) : delta ≠ 0 := by
  unfold OnSide at h
  cases sells with
  | true => exact ne_of_lt h
  | false => exact ne_of_gt h

theorem OnSide.unique {value : ℚ} {first second : Bool} (h : OnSide first value)
    (h' : OnSide second value) : first = second := by
  cases first <;> cases second
  · rfl
  · exact absurd (onSide_false.mp h) (not_lt.mpr (onSide_true.mp h').le)
  · exact absurd (onSide_false.mp h') (not_lt.mpr (onSide_true.mp h).le)
  · rfl

end

section

variable {input : PortfolioProjectionInput ℚ} {delta : String → ℚ}
  {staged : ExtTreeMap String ℚ}

def offendingOn (staged : ExtTreeMap String ℚ) (sells : Bool) : List (String × ℚ) :=
  staged.toList.filter fun entry =>
    if sells then Decimal.lt entry.2 (Decimal.zero : ℚ) else Decimal.lt Decimal.zero entry.2

theorem smallestOffending_eq_leastOf (staged : ExtTreeMap String ℚ) (sells : Bool) :
    smallestOffending staged sells = leastOf (fun first second : String × ℚ =>
      Decimal.lt (Decimal.abs first.2) (Decimal.abs second.2)) (offendingOn staged sells) := by
  unfold smallestOffending leastOf
  refine congrArg (fun pick => List.foldl pick none (offendingOn staged sells))
    (funext fun best => ?_)
  cases best <;> rfl

variable {asset : String} {sells : Bool}

theorem mem_offendingOn {value : ℚ} :
    (asset, value) ∈ offendingOn staged sells ↔
      staged[asset]? = some value ∧ OnSide sells value := by
  unfold offendingOn OnSide
  rw [List.mem_filter, ExtTreeMap.mem_toList_iff_getElem?_eq_some]
  cases sells <;> simp

theorem mem_offendingOn_of_onSide (h : OnSide sells (valueAt staged asset)) :
    (asset, valueAt staged asset) ∈ offendingOn staged sells := by
  rw [mem_offendingOn]
  refine ⟨?_, h⟩
  unfold valueAt at *
  cases hget : staged[asset]? with
  | some value => rfl
  | none =>
    rw [hget, Option.getD_none, zero_eq] at h
    exact absurd rfl h.ne_zero

theorem smallestOffending_eq_none (h : smallestOffending staged sells = none) (asset : String) :
    ¬ OnSide sells (valueAt staged asset) := by
  intro hside
  have hmem := mem_offendingOn_of_onSide hside
  rw [smallestOffending_eq_leastOf] at h
  rw [leastOf_eq_none h] at hmem
  cases hmem

theorem smallestOffending_spec {value : ℚ}
    (h : smallestOffending staged sells = some (asset, value)) :
    staged[asset]? = some value ∧ OnSide sells (valueAt staged asset) ∧
      ∀ other, OnSide sells (valueAt staged other) → other ≠ asset →
        Before (fun asset => |valueAt staged asset|) asset other := by
  have hordered : (offendingOn staged sells).Pairwise fun first second =>
      first.1 < second.1 := by
    refine List.Pairwise.filter _ ((ExtTreeMap.ordered_keys_toList (t := staged)).imp ?_)
    intro first second hkeys
    exact compare_lt_iff_lt.mp hkeys
  rw [smallestOffending_eq_leastOf] at h
  obtain ⟨hmem, hfirst⟩ := leastOf_spec (f := fun entry : String × ℚ => |entry.2|)
    (by intro first second; rw [lt_iff_lt, ExactDecimal.abs_eq, ExactDecimal.abs_eq])
    hordered h
  obtain ⟨hentry, hside⟩ := mem_offendingOn.mp hmem
  have hvalue : valueAt staged asset = value := by
    unfold valueAt
    rw [hentry, Option.getD_some]
  refine ⟨hentry, hvalue ▸ hside, fun other hother hne => ?_⟩
  unfold Before
  dsimp only
  rw [hvalue]
  rcases hfirst _ (mem_offendingOn_of_onSide hother) with hsame | hsmaller | ⟨hequal, hkeys⟩
  · exact absurd (congrArg Prod.fst hsame) hne
  · exact .inl hsmaller
  · exact .inr ⟨hequal, hkeys⟩

theorem valueAt_insert (staged : ExtTreeMap String ℚ) (asset other : String) (value : ℚ) :
    valueAt (staged.insert asset value) other =
      if asset = other then value else valueAt staged other := by
  unfold valueAt
  rw [getElem?_insert_eq]
  split <;> rfl

/-- Some deltas have been removed, on each side the smallest ones. -/
structure Pruning (input : PortfolioProjectionInput ℚ) (delta : String → ℚ)
    (staged : ExtTreeMap String ℚ) : Prop where
  value : ∀ asset, valueAt staged asset = delta asset ∨ valueAt staged asset = 0
  sides : ∀ sells, PrunedTo (fun asset => |delta asset|) (roomFor input sells)
    (sideOf input sells delta) (sideOf input sells (valueAt staged))

theorem Pruning.value_of_onSide (h : Pruning input delta staged)
    (hside : OnSide sells (valueAt staged asset)) : valueAt staged asset = delta asset := by
  rcases h.value asset with hvalue | hzero
  · exact hvalue
  · exact absurd hzero hside.ne_zero

theorem Pruning.sum_side (h : Pruning input delta staged) (sells : Bool) :
    ∑ asset ∈ sideOf input sells (valueAt staged), |valueAt staged asset| =
      ∑ asset ∈ sideOf input sells (valueAt staged), |delta asset| := by
  refine Finset.sum_congr rfl fun asset hasset => ?_
  rw [h.value_of_onSide (mem_sideOf.mp hasset).2]

theorem Pruning.remove (h : Pruning input delta staged) (hmem : asset ∈ assetsOf input)
    (hside : OnSide sells (valueAt staged asset))
    (hleast : ∀ other, OnSide sells (valueAt staged other) → other ≠ asset →
      Before (fun asset => |valueAt staged asset|) asset other) (hlarge : roomFor input sells <
      ∑ asset ∈ sideOf input sells (valueAt staged), |valueAt staged asset|) :
    Pruning input delta (staged.insert asset 0) where
  value other := by
    rw [valueAt_insert]
    split
    · exact .inr rfl
    · exact h.value other
  sides side := by
    by_cases hsame : side = sells
    · subst hsame
      have herase : sideOf input side (valueAt (staged.insert asset 0)) =
          (sideOf input side (valueAt staged)).erase asset := by
        ext other
        rw [Finset.mem_erase, mem_sideOf, mem_sideOf, valueAt_insert]
        by_cases hother : asset = other
        · rw [if_pos hother]
          exact iff_of_false (fun hzero => hzero.2.ne_zero rfl) fun hne => hne.1 hother.symm
        · rw [if_neg hother]
          exact ⟨fun hon => ⟨Ne.symm hother, hon⟩, fun hon => hon.2⟩
      rw [herase]
      refine (h.sides side).erase (mem_sideOf.mpr ⟨hmem, hside⟩) ?_ (h.sum_side side ▸ hlarge)
      intro other hother hne
      have hon := (mem_sideOf.mp hother).2
      have hbefore := hleast other hon hne
      unfold Before at *
      dsimp only at *
      rwa [h.value_of_onSide hside, h.value_of_onSide hon] at hbefore
    · have hkept : sideOf input side (valueAt (staged.insert asset 0)) =
          sideOf input side (valueAt staged) := by
        ext other
        rw [mem_sideOf, mem_sideOf, valueAt_insert]
        by_cases hother : asset = other
        · subst hother
          rw [if_pos rfl]
          refine iff_of_false (fun hzero => hzero.2.ne_zero rfl) fun hon => ?_
          have hopposite := hon.2
          cases side <;> cases sells
          · exact hsame rfl
          · exact absurd hside (not_lt.mpr (onSide_false.mp hopposite).le)
          · exact absurd hside (not_lt.mpr (onSide_true.mp hopposite).le)
          · exact hsame rfl
        · rw [if_neg hother]
      rw [hkept]
      exact h.sides side

theorem Pruning.pruned (h : Pruning input delta staged)
    (hroom : ∀ sells, ∑ asset ∈ sideOf input sells (valueAt staged), |valueAt staged asset| ≤
      roomFor input sells) (hasset : asset ∈ assetsOf input) :
    valueAt staged asset = prunedDelta input delta asset := by
  have hkept (sells : Bool) :
      sideOf input sells (valueAt staged) = keptOn input sells delta :=
    (h.sides sells).eq_survivors (fun _ _ => abs_nonneg _) (h.sum_side sells ▸ hroom sells)
  unfold prunedDelta
  rw [← hkept, ← hkept]
  split
  · rename_i hside
    rcases hside with hside | hside
    · exact h.value_of_onSide (mem_sideOf.mp hside).2
    · exact h.value_of_onSide (mem_sideOf.mp hside).2
  · rename_i hnone
    rw [not_or] at hnone
    by_contra hne
    rcases lt_or_gt_of_ne hne with hsell | hbuy
    · exact hnone.1 (mem_sideOf.mpr ⟨hasset, hsell⟩)
    · exact hnone.2 (mem_sideOf.mpr ⟨hasset, hbuy⟩)

def leftCount (input : PortfolioProjectionInput ℚ) (staged : ExtTreeMap String ℚ) : ℕ :=
  (sideOf input true (valueAt staged)).card + (sideOf input false (valueAt staged)).card

theorem leftCount_le_card (staged : ExtTreeMap String ℚ) :
    leftCount input staged ≤ (assetsOf input).card := by
  have hdisjoint : Disjoint (sideOf input true (valueAt staged))
      (sideOf input false (valueAt staged)) := by
    rw [Finset.disjoint_left]
    intro asset hsell hbuy
    exact lt_asymm (onSide_true.mp (mem_sideOf.mp hsell).2) (onSide_false.mp (mem_sideOf.mp hbuy).2)
  unfold leftCount
  rw [← Finset.card_union_of_disjoint hdisjoint]
  exact Finset.card_le_card (Finset.union_subset (Finset.filter_subset _ _)
    (Finset.filter_subset _ _))

theorem leftCount_remove (hmem : asset ∈ assetsOf input)
    (hside : OnSide sells (valueAt staged asset)) :
    leftCount input (staged.insert asset 0) < leftCount input staged := by
  have hsubset (side : Bool) : sideOf input side (valueAt (staged.insert asset 0)) ⊆
      sideOf input side (valueAt staged) := by
    intro other hother
    rw [mem_sideOf, valueAt_insert] at hother
    split at hother
    · exact absurd rfl hother.2.ne_zero
    · exact mem_sideOf.mpr hother
  have hremoved : sideOf input sells (valueAt (staged.insert asset 0)) ⊂
      sideOf input sells (valueAt staged) := by
    refine Finset.ssubset_iff_subset_ne.mpr ⟨hsubset sells, fun hsame => ?_⟩
    have hin : asset ∈ sideOf input sells (valueAt staged) := mem_sideOf.mpr ⟨hmem, hside⟩
    rw [← hsame, mem_sideOf, valueAt_insert, if_pos rfl] at hin
    exact hin.2.ne_zero rfl
  unfold leftCount
  cases sells with
  | true =>
    exact Nat.add_lt_add_of_lt_of_le (Finset.card_lt_card hremoved)
      (Finset.card_le_card (hsubset false))
  | false =>
    exact Nat.add_lt_add_of_le_of_lt (Finset.card_le_card (hsubset true))
      (Finset.card_lt_card hremoved)

/-- **The pruning loop.**  With as many rounds as there are deltas, and one more, it leaves the
deltas that fit. -/
theorem pruneStaged_spec {rounds : ℕ} (h : Pruning input delta staged)
    (hwithin : DeltasWithin (portfolioAssets input) staged)
    (hrounds : leftCount input staged < rounds) :
    ∃ next, pruneStaged input (portfolioAssets input) ∅ |filledNet input| rounds staged = .ok next ∧
      DeltasWithin (portfolioAssets input) next ∧
      ∀ asset ∈ assetsOf input, valueAt next asset = prunedDelta input delta asset := by
  induction rounds generalizing staged with
  | zero => exact absurd hrounds (Nat.not_lt_zero _)
  | succ rounds ih =>
    obtain ⟨ranges, hranges⟩ := @exists_projectedRanges input ∅ staged (portfolioAssets input)
    obtain ⟨metrics, hmetrics⟩ := exists_rangeMetrics ranges
    obtain ⟨-, hlow, hhigh⟩ := rangeMetrics_of_noOpenOrders hranges hmetrics
    unfold pruneStaged
    rw [hranges, ok_bind, hmetrics, ok_bind]
    dsimp only
    rw [worstNet_eq_peak, hlow, hhigh]
    set sold := ∑ asset ∈ sideOf input true (valueAt staged), |valueAt staged asset| with hsold
    set bought := ∑ asset ∈ sideOf input false (valueAt staged), |valueAt staged asset| with hbought
    have hsells : 0 ≤ sold := sum_abs_nonneg _
    have hbuys : 0 ≤ bought := sum_abs_nonneg _
    by_cases hfits : peak (filledNet input - sold) (filledNet input + bought) ≤ |filledNet input|
    · rw [if_pos ((le_iff_le _ _).mpr hfits)]
      refine ⟨staged, rfl, hwithin, fun asset hasset => h.pruned ?_ hasset⟩
      obtain ⟨hlows, hhighs⟩ := (peak_le_abs_iff hsells hbuys).mp hfits
      intro sells
      cases sells with
      | true => exact hlows
      | false => exact hhighs
    · rw [if_neg (mt (le_iff_le _ _).mp hfits)]
      rw [not_le] at hfits
      -- The side of the worse end has no room, so it has a smallest delta.
      obtain ⟨sells, hside⟩ : ∃ sells, sells =
          (Decimal.le (Decimal.abs (filledNet input + bought))
            (Decimal.abs (filledNet input - sold)) &&
              Decimal.lt (filledNet input - sold) Decimal.zero) := ⟨_, rfl⟩
      rw [← hside]
      have hlarge : roomFor input sells <
          ∑ asset ∈ sideOf input sells (valueAt staged), |valueAt staged asset| := by
        cases sells with
        | true =>
          rw [eq_comm, Bool.and_eq_true, le_iff_le, lt_iff_lt, ExactDecimal.abs_eq,
            ExactDecimal.abs_eq, zero_eq] at hside
          exact room_lt_low hfits hside.1 hside.2
        | false =>
          rw [eq_comm, ← Bool.not_eq_true, Bool.and_eq_true, le_iff_le, lt_iff_lt,
            ExactDecimal.abs_eq, ExactDecimal.abs_eq, zero_eq] at hside
          exact room_lt_high hsells hbuys hfits hside
      cases hsmallest : smallestOffending staged sells with
      | none =>
        have hempty : sideOf input sells (valueAt staged) = ∅ := by
          refine Finset.eq_empty_of_forall_notMem fun asset hasset => ?_
          exact smallestOffending_eq_none hsmallest asset (mem_sideOf.mp hasset).2
        rw [hempty, Finset.sum_empty] at hlarge
        exact absurd hlarge (not_lt.mpr (room_nonneg _))
      | some entry =>
        obtain ⟨asset, value⟩ := entry
        obtain ⟨hentry, honSide, hleast⟩ := smallestOffending_spec hsmallest
        have hmem : asset ∈ assetsOf input := by
          by_contra hout
          rw [hwithin asset (mt mem_assetsOf.mpr hout)] at hentry
          cases hentry
        rw [zero_eq]
        refine ih (h.remove hmem honSide hleast hlarge)
          (hwithin.insert (mem_assetsOf.mp hmem) 0) ?_
        exact Nat.lt_of_lt_of_le (leftCount_remove hmem honSide) (Nat.lt_succ_iff.mp hrounds)

end

variable {input : PortfolioProjectionInput ℚ} {deltas : ExtTreeMap String ℚ}

theorem peak_delta (filled delta : ℚ) :
    peak (filled - max (-delta) 0) (filled + max delta 0) = max |filled| |filled + delta| := by
  unfold peak
  rcases le_total 0 delta with h | h
  · have hnone : max (-delta) 0 = 0 := max_eq_right (neg_nonpos.mpr h)
    rw [hnone, max_eq_left h, sub_zero]
  · have hnone : max delta 0 = 0 := max_eq_right h
    rw [hnone, max_eq_left (neg_nonneg.mpr h), sub_neg_eq_add, add_zero, max_comm]

theorem magnitudeAt_eq {ranges : ExtTreeMap String (ExposureRange ℚ)} {asset : String}
    (h : projectedRanges input (portfolioAssets input) ∅ deltas = .ok ranges)
    (hasset : asset ∈ portfolioAssets input) :
    magnitudeAt ranges asset =
      max |filledOf input asset| |filledOf input asset + valueAt deltas asset| := by
  unfold magnitudeAt
  rw [projectedRanges_eq_ok h, if_pos hasset, Option.getD_some, magnitude_eq_peak, ← peak_delta]
  unfold assetRange rangeLow rangeHigh openAt filledOf
  rw [ExtTreeMap.getElem?_empty, Option.getD_none, sub_zero, add_zero]

theorem valueAt_empty (asset : String) : valueAt ∅ asset = (0 : ℚ) := by
  unfold valueAt
  rw [ExtTreeMap.getElem?_empty, Option.getD_none, zero_eq]

theorem stageAsset_eq {baseline : ExtTreeMap String (ExposureRange ℚ)} {asset : String}
    (hbaseline : projectedRanges input (portfolioAssets input) ∅ ∅ = .ok baseline)
    (hasset : asset ∈ portfolioAssets input) :
    stageAsset input (portfolioAssets input) ∅ baseline (valueAt deltas asset) asset =
      .ok (stagedDelta input (valueAt deltas) asset,
        decide (stagedDelta input (valueAt deltas) asset ≠ 0)) := by
  unfold stageAsset stagedDelta
  by_cases hzero : valueAt deltas asset = 0
  · rw [if_pos ((isZero_iff_eq_zero _).mpr hzero), hzero]
    simp
  · rw [if_neg (mt (isZero_iff_eq_zero _).mp hzero)]
    obtain ⟨withDelta, hwithDelta⟩ := @exists_projectedRanges input ∅
      ((∅ : ExtTreeMap String ℚ).insert asset (valueAt deltas asset)) (portfolioAssets input)
    rw [hwithDelta, ok_bind, magnitudeAt_eq hwithDelta hasset, magnitudeAt_eq hbaseline hasset,
      valueAt_insert, if_pos rfl, valueAt_empty, add_zero, max_self]
    by_cases hreduces : |filledOf input asset + valueAt deltas asset| ≤ |filledOf input asset|
    · rw [if_pos ((le_iff_le _ _).mpr (max_le le_rfl hreduces)), if_pos hreduces,
        decide_eq_true hzero]
      rfl
    · rw [if_neg, if_neg hreduces]
      · simp
      · rw [le_iff_le, max_le_iff, not_and]
        exact fun _ => hreduces

theorem foldl_or_eq_true {α : Type} {p : α → Bool} {l : List α} {flag : Bool}
    (h : ∃ a ∈ l, p a = true) : l.foldl (fun flag a => flag || p a) flag = true := by
  obtain ⟨a, ha, hp⟩ := h
  induction l generalizing flag with
  | nil => cases ha
  | cons first rest ih =>
    rw [List.foldl_cons]
    rcases List.mem_cons.mp ha with rfl | hrest
    · rw [hp, Bool.or_true]
      clear ih ha
      induction rest with
      | nil => rfl
      | cons next rest ih => rwa [List.foldl_cons, Bool.true_or]
    · exact ih hrest

/-- **Staging.**  Without open orders, the deltas that leave no position larger are kept, and of these
the ones that fit into the room of the portfolio. -/
theorem stageRiskReducingDeltas_eq :
    ∃ next, stageRiskReducingDeltas input (portfolioAssets input) ∅ deltas = .ok next ∧
      ∀ asset ∈ assetsOf input,
        valueAt next asset = prunedDelta input (stagedDelta input (valueAt deltas)) asset := by
  obtain ⟨baseline, hbaseline⟩ := @exists_projectedRanges input ∅ ∅ (portfolioAssets input)
  obtain ⟨metrics, hmetrics⟩ := exists_rangeMetrics baseline
  let kept := stagedDelta input (valueAt deltas)
  let staged := (portfolioAssets input).toList.foldl (fun staged asset =>
    staged.insert asset (kept asset)) (∅ : ExtTreeMap String ℚ)
  let hasReduction := (portfolioAssets input).toList.foldl (fun reduces asset =>
    reduces || decide (kept asset ≠ 0)) false
  have hstages : (portfolioAssets input).toList.foldlM
      (fun (acc : ExtTreeMap String ℚ × Bool) asset => do
        let (delta, reduces) ← stageAsset input (portfolioAssets input) ∅ baseline
          (valueAt deltas asset) asset
        pure (acc.1.insert asset delta, acc.2 || reduces)) (∅, false) =
      .ok (staged, hasReduction) :=
    foldlM_insert_eq_ok (fun asset => (kept asset, decide (kept asset ≠ 0)))
      (fun reduces _ reducesToo => reduces || reducesToo)
      (fun asset hasset => stageAsset_eq hbaseline (ExtTreeSet.mem_toList.mp hasset)) (∅, false)
  have hstaged (asset : String) : staged[asset]? =
      if asset ∈ portfolioAssets input then some (kept asset) else none := by
    rw [getElem?_foldl_insert, ExtTreeMap.getElem?_empty]
    simp only [ExtTreeSet.mem_toList]
  have hvalue {asset : String} (hasset : asset ∈ assetsOf input) :
      valueAt staged asset = kept asset := by
    unfold valueAt
    rw [hstaged, if_pos (mem_assetsOf.mp hasset), Option.getD_some]
  unfold stageRiskReducingDeltas
  rw [hbaseline, ok_bind, hstages, ok_bind]
  dsimp only
  split
  · rw [hmetrics, ok_bind]
    have hwithin : DeltasWithin (portfolioAssets input) staged := by
      intro asset hout
      rw [hstaged, if_neg hout]
    have hsides (sells : Bool) : sideOf input sells (valueAt staged) = sideOf input sells kept := by
      ext asset
      rw [mem_sideOf, mem_sideOf]
      refine and_congr_right fun hasset => ?_
      rw [hvalue hasset]
    have hstart : Pruning input kept staged := by
      refine ⟨fun asset => ?_, fun sells => ?_⟩
      · by_cases hasset : asset ∈ assetsOf input
        · exact .inl (hvalue hasset)
        · unfold valueAt
          rw [hstaged, if_neg (mt mem_assetsOf.mpr hasset)]
          exact .inr zero_eq
      · rw [hsides]
        exact prunedTo_self
    have hrounds : leftCount input staged < staged.size + 1 := by
      rw [size_eq_card (s := assetsOf input), Nat.lt_succ_iff]
      · exact leftCount_le_card staged
      · intro asset
        rw [mem_iff_exists, mem_assetsOf]
        constructor
        · rintro ⟨value, hget⟩
          by_contra hout
          rw [hstaged, if_neg hout] at hget
          cases hget
        · intro hasset
          exact ⟨kept asset, by rw [hstaged, if_pos hasset]⟩
    obtain ⟨-, hlow, hhigh⟩ := rangeMetrics_of_noOpenOrders hbaseline hmetrics
    have hnothing (sells : Bool) :
        ∑ asset ∈ sideOf input sells (valueAt (∅ : ExtTreeMap String ℚ)),
          |valueAt (∅ : ExtTreeMap String ℚ) asset| = (0 : ℚ) :=
      Finset.sum_eq_zero fun asset _ => by rw [valueAt_empty asset, abs_zero]
    rw [hnothing, sub_zero] at hlow
    rw [hnothing, add_zero] at hhigh
    rw [hlow, hhigh, worstNet_eq_peak, peak, max_self]
    obtain ⟨next, hnext, -, hpruned⟩ := pruneStaged_spec hstart hwithin hrounds
    exact ⟨next, hnext, hpruned⟩
  · rename_i hnone
    refine ⟨staged, rfl, fun asset hasset => ?_⟩
    have hzero : kept asset = 0 := by
      by_contra hne
      refine hnone (foldl_or_eq_true ?_)
      exact ⟨asset, ExtTreeSet.mem_toList.mpr (mem_assetsOf.mp hasset), decide_eq_true hne⟩
    rw [hvalue hasset, hzero]
    unfold prunedDelta
    split
    · exact hzero.symm
    · rfl

end CopyTrade.Analysis
