import CopyTrade.Analysis.Risk.StagedReductions
import CopyTrade.Foundation.Displacement
import CopyTrade.Foundation.StableSort
import CopyTrade.Model.Core.Allocation

/-!
# The loop of the sparse allocation

In exact arithmetic the loop over the candidates never fails.  All exits and reductions are written,
so that the book after them is known from the input; an increase or a new position is a step of a
checked loop, and what the refused new positions close is `displaced`.
-/

namespace CopyTrade.Analysis

open Foundation Model Model.Allocation
open Model.ExactDecimal
open PortfolioRisk (Caps valueAt)
open Std (ExtTreeMap ExtTreeSet)

def capsOf (input : SparseAllocationInput ℚ) : Caps ℚ where
  asset := input.currentEquity * input.maxSingleAssetEquityPct
  gross := input.currentEquity * input.curveLeverage * input.globalRiskScale
  net := input.currentEquity * input.maxNetEquityPct

theorem allocationCaps_eq (input : SparseAllocationInput ℚ) :
    allocationCaps input = .ok (capsOf input) := by
  simp [allocationCaps, Allocation.checkedMul, orAllocationOverflow, ok_bind, capsOf, pure,
    Except.pure]

def bookGross (book : ExtTreeMap String ℚ) : ℚ := total (fun _ value => |value|) book

def bookNet (book : ExtTreeMap String ℚ) : ℚ := total (fun _ value => value) book

/-- A book respects the caps on one asset, on the gross and on the net exposure. -/
structure BookWithin (caps : Caps ℚ) (book : ExtTreeMap String ℚ) : Prop where
  asset : ∀ value ∈ book.values, |value| ≤ caps.asset
  gross : bookGross book ≤ caps.gross
  net : |bookNet book| ≤ caps.net

instance (caps : Caps ℚ) (book : ExtTreeMap String ℚ) : Decidable (BookWithin caps book) :=
  decidable_of_iff ((∀ value ∈ book.values, |value| ≤ caps.asset) ∧ bookGross book ≤ caps.gross ∧
      |bookNet book| ≤ caps.net)
    ⟨fun ⟨hasset, hgross, hnet⟩ => ⟨hasset, hgross, hnet⟩,
      fun ⟨hasset, hgross, hnet⟩ => ⟨hasset, hgross, hnet⟩⟩

theorem sumsWithin_eq (cap : ℚ) (values : List ℚ) (gross net : ℚ) :
    sumsWithin cap values gross net = .ok (if ∀ value ∈ values, |value| ≤ cap then
      some (gross + (values.map fun value => |value|).sum, net + values.sum) else none) := by
  induction values generalizing gross net with
  | nil => simp [sumsWithin]
  | cons value values ih =>
    unfold sumsWithin
    by_cases hlarge : cap < |value|
    · simp [hlarge]
    · simp only [lt_iff_lt, ExactDecimal.abs_eq, hlarge, if_false, checkedAdd_eq,
        orAllocationOverflow, ok_bind, ih, List.forall_mem_cons, not_lt.mp hlarge, true_and,
        List.map_cons, List.sum_cons, add_assoc]

theorem withinCaps_eq (book : ExtTreeMap String ℚ) (caps : Caps ℚ) :
    withinCaps book caps = .ok (decide (BookWithin caps book)) := by
  have hgross : bookGross book = (book.values.map fun value => |value|).sum := by
    unfold bookGross total
    rw [values_eq_map_toList, List.map_map]
    rfl
  have hnet : bookNet book = book.values.sum := by
    unfold bookNet total
    rw [values_eq_map_toList]
  unfold withinCaps
  rw [sumsWithin_eq, ok_bind, zero_eq, zero_add, zero_add, ← hgross, ← hnet]
  by_cases hasset : ∀ value ∈ book.values, |value| ≤ caps.asset
  · rw [if_pos hasset]
    apply congrArg Except.ok
    rw [Bool.eq_iff_iff, Bool.and_eq_true, le_iff_le, le_iff_le, ExactDecimal.abs_eq,
      decide_eq_true_eq]
    exact ⟨fun ⟨hgross, hnet⟩ => ⟨hasset, hgross, hnet⟩, fun h => ⟨h.gross, h.net⟩⟩
  · rw [if_neg hasset]
    apply congrArg Except.ok
    symm
    rw [decide_eq_false_iff_not]
    intro h
    exact hasset h.asset

theorem total_insert {f : ℚ → ℚ} (hf : f 0 = 0) (book : ExtTreeMap String ℚ) (asset : String)
    (value : ℚ) : total (fun _ value => f value) (book.insert asset value) =
      total (fun _ value => f value) book - f (valueAt book asset) + f value := by
  have hput := total_put (fun (_ : String) value => f value) book asset (some value)
  have htaken := total_eq_share_add (fun (_ : String) value => f value) book asset
  unfold put at hput
  rw [hput, htaken]
  unfold valueAt
  cases book[asset]? with
  | none => simp [hf, add_comm]
  | some old =>
    simp only [share_some, Option.getD_some]
    ring

theorem bookNet_insert (book : ExtTreeMap String ℚ) (asset : String) (value : ℚ) :
    bookNet (book.insert asset value) = bookNet book - valueAt book asset + value :=
  @total_insert (fun value => value) rfl book asset value

theorem bookGross_insert (book : ExtTreeMap String ℚ) (asset : String) (value : ℚ) :
    bookGross (book.insert asset value) = bookGross book - |valueAt book asset| + |value| :=
  @total_insert (fun value => |value|) abs_zero book asset value

structure Validated (input : SparseAllocationInput ℚ) : Prop where
  equity : 0 < input.currentEquity
  leverage : 0 < input.curveLeverage
  scale : 0 < input.globalRiskScale
  hysteresis : 0 ≤ input.rankHysteresis
  floor : ∀ asset ∈ allocationAssets input, (input.executionFloors[asset]?).isSome
  assetPct : 0 ≤ input.maxSingleAssetEquityPct ∧ input.maxSingleAssetEquityPct ≤ 1
  netPct : 0 ≤ input.maxNetEquityPct ∧ input.maxNetEquityPct ≤ 1

theorem mem_allocationAssets {input : SparseAllocationInput ℚ} {asset : String} :
    asset ∈ allocationAssets input ↔
      asset ∈ input.rawTargets.keys ++ input.filledPositions.keys := by
  unfold allocationAssets
  rw [ExtTreeSet.mem_ofList, List.contains_iff_mem]

theorem validate_eq_ok_iff (input : SparseAllocationInput ℚ) :
    validate input = .ok () ↔ Validated input := by
  have hfloors : ((input.rawTargets.keys ++ input.filledPositions.keys).any fun asset =>
      !input.executionFloors.contains asset) = false ↔
        ∀ asset ∈ allocationAssets input, (input.executionFloors[asset]?).isSome := by
    rw [List.any_eq_false]
    simp [mem_allocationAssets]
  unfold validate
  constructor
  · intro h
    split at h
    · cases h
    · rename_i hsigns
      split at h
      · cases h
      · rename_i hfloor
        split at h
        · cases h
        · rename_i hpercentages
          simp only [Bool.or_eq_true, le_iff_le, lt_iff_lt, zero_eq, not_or, not_le, not_lt]
            at hsigns
          simp only [Bool.or_eq_true, Bool.not_eq_true', Bool.and_eq_false_iff, not_or,
            Bool.not_eq_false, le_iff_le, zero_eq, one_eq] at hpercentages
          obtain ⟨⟨⟨hequity, hleverage⟩, hscale⟩, hhysteresis⟩ := hsigns
          refine ⟨hequity, hleverage, hscale, hhysteresis, hfloors.mp (by simpa using hfloor), ?_, ?_⟩
          · exact hpercentages.1
          · exact hpercentages.2
  · intro h
    rw [if_neg, if_neg, if_neg]
    · simp [h.assetPct, h.netPct]
    · rw [hfloors.mpr h.floor]
      simp
    · simp [h.equity, h.leverage, h.scale, h.hysteresis]

theorem Validated.assetCap_nonneg {input : SparseAllocationInput ℚ} (h : Validated input) :
    0 ≤ (capsOf input).asset :=
  mul_nonneg h.equity.le h.assetPct.1

/-- The target of an asset, clamped to the cap on one asset. -/
def desiredAt (input : SparseAllocationInput ℚ) (asset : String) : ℚ :=
  Decimal.clamp (valueAt input.rawTargets asset) (Decimal.neg (capsOf input).asset)
    (capsOf input).asset

/-- The class of the transition of an asset from its position to its target. -/
def classAt (input : SparseAllocationInput ℚ) (asset : String) : ℕ :=
  transitionClass (valueAt input.filledPositions asset) (desiredAt input asset)

/-- The residual of an asset is too small to add to its exposure. -/
def BelowMinimum (input : SparseAllocationInput ℚ) (floor : AssetExecutionFloor ℚ)
    (asset : String) : Prop :=
  2 ≤ classAt input asset ∧ |desiredAt input asset - valueAt input.filledPositions asset| <
    if valueAt input.filledPositions asset = 0 then floor.minimumOpeningNotional
    else floor.minimumOrderNotional

instance (input : SparseAllocationInput ℚ) (floor : AssetExecutionFloor ℚ) (asset : String) :
    Decidable (BelowMinimum input floor asset) :=
  inferInstanceAs (Decidable (_ ∧ _))

def candidateAt (input : SparseAllocationInput ℚ) (asset : String) : Option (Candidate ℚ) :=
  if desiredAt input asset = valueAt input.filledPositions asset then none
  else input.executionFloors[asset]?.bind fun floor =>
    if BelowMinimum input floor asset then none
    else some {
      asset
      desired := stagedDesired (valueAt input.filledPositions asset) (desiredAt input asset)
        floor.minimumOpeningNotional
      current := valueAt input.filledPositions asset
      conviction := valueAt input.convictions asset
      agreementWeight := valueAt input.agreementWeights asset
      transition := classAt input asset }

variable {input : SparseAllocationInput ℚ}

variable {asset : String} {candidate : Candidate ℚ} {book : ExtTreeMap String ℚ}

theorem collectCandidate_eq (hfloor : (input.executionFloors[asset]?).isSome)
    (acc : List (Candidate ℚ) × ExtTreeMap String ℚ) :
    ∃ retained, collectCandidate input (capsOf input).asset acc asset =
      .ok (acc.1 ++ (candidateAt input asset).toList, retained) := by
  obtain ⟨floor, hfloor⟩ := Option.isSome_iff_exists.mp hfloor
  unfold collectCandidate candidateAt
  rw [hfloor, Option.bind_some]
  simp only [Allocation.checkedSub, orAllocationOverflow, checkedSub_eq, ok_bind,
    isZero_iff_eq_zero, sub_eq_zero]
  change ∃ retained, (if desiredAt input asset = valueAt input.filledPositions asset then _ else _) =
    _
  by_cases hsame : desiredAt input asset = valueAt input.filledPositions asset
  · rw [if_pos hsame, if_pos hsame]
    exact ⟨acc.2, by simp [pure, Except.pure]⟩
  · rw [if_neg hsame, if_neg hsame]
    by_cases hbelow : BelowMinimum input floor asset
    · refine ⟨acc.2.insert asset (desiredAt input asset - valueAt input.filledPositions asset), ?_⟩
      rw [if_pos hbelow, if_pos]
      · simp [pure, Except.pure, desiredAt]
      · simpa [BelowMinimum, classAt, desiredAt] using hbelow
    · refine ⟨acc.2, ?_⟩
      rw [if_neg hbelow, if_neg]
      · simp [pure, Except.pure, desiredAt, classAt]
      · simpa [BelowMinimum, classAt, desiredAt] using hbelow

theorem foldlM_collectCandidate {assets : List String}
    (hfloor : ∀ asset ∈ assets, (input.executionFloors[asset]?).isSome)
    (acc : List (Candidate ℚ) × ExtTreeMap String ℚ) :
    ∃ retained, assets.foldlM (collectCandidate input (capsOf input).asset) acc =
      .ok (acc.1 ++ assets.filterMap (candidateAt input), retained) := by
  induction assets generalizing acc with
  | nil => exact ⟨acc.2, by simp [pure, Except.pure]⟩
  | cons asset assets ih =>
    rw [List.forall_mem_cons] at hfloor
    obtain ⟨first, hfirst⟩ := collectCandidate_eq hfloor.1 acc
    obtain ⟨retained, hrest⟩ := ih hfloor.2 (acc.1 ++ (candidateAt input asset).toList, first)
    refine ⟨retained, ?_⟩
    rw [List.foldlM_cons, hfirst, ok_bind, hrest]
    cases hcandidate : candidateAt input asset with
    | none => simp [hcandidate]
    | some candidate => simp [hcandidate]

def ranked (input : SparseAllocationInput ℚ) : List (Candidate ℚ) :=
  ((allocationAssets input).toList.filterMap (candidateAt input)).insertionSort fun left right =>
    (compareCandidates left right).isLE

theorem rankedCandidates_eq (h : Validated input) :
    ∃ retained, rankedCandidates input (capsOf input).asset = .ok (ranked input, retained) := by
  obtain ⟨retained, hcollected⟩ := @foldlM_collectCandidate input (allocationAssets input).toList
    (fun asset hasset => h.floor asset (ExtTreeSet.mem_toList.mp hasset)) ([], ∅)
  refine ⟨retained, ?_⟩
  unfold rankedCandidates
  rw [hcollected, ok_bind]
  simp [pure, Except.pure, ranked]

theorem mem_ranked : candidate ∈ ranked input ↔
    ∃ asset ∈ allocationAssets input, candidateAt input asset = some candidate := by
  unfold ranked
  rw [(List.perm_insertionSort _ _).mem_iff, List.mem_filterMap]
  simp

theorem asset_of_candidateAt (h : candidateAt input asset = some candidate) :
    candidate.asset = asset := by
  unfold candidateAt at h
  split at h
  · cases h
  · obtain ⟨floor, -, h⟩ := Option.bind_eq_some_iff.mp h
    split at h
    · cases h
    · cases h
      rfl

theorem candidateAt_of_mem_ranked (h : candidate ∈ ranked input) :
    candidate.asset ∈ allocationAssets input ∧
      candidateAt input candidate.asset = some candidate := by
  obtain ⟨asset, hasset, hcandidate⟩ := mem_ranked.mp h
  rw [asset_of_candidateAt hcandidate]
  exact ⟨hasset, hcandidate⟩

theorem nodup_ranked : ((ranked input).map (·.asset)).Nodup := by
  unfold ranked
  rw [((List.perm_insertionSort _ _).map _).nodup_iff]
  refine List.Nodup.sublist ?_ (nodup_set_toList (allocationAssets input))
  generalize (allocationAssets input).toList = assets
  induction assets with
  | nil => simp
  | cons asset assets ih =>
    cases hcandidate : candidateAt input asset with
    | none =>
      rw [List.filterMap_cons_none hcandidate]
      exact ih.trans (List.sublist_cons_self asset assets)
    | some candidate =>
      rw [List.filterMap_cons_some hcandidate, List.map_cons, asset_of_candidateAt hcandidate]
      exact ih.cons_cons asset

theorem compareCandidates_eq : (compareCandidates : Candidate ℚ → Candidate ℚ → Ordering) =
    compareLex (compareOn fun candidate => candidate.transition)
      (compareLex (fun left right => compareOn (fun candidate : Candidate ℚ =>
          Decimal.abs candidate.conviction) right left)
        (compareLex (fun left right => compareOn (fun candidate : Candidate ℚ =>
            candidate.agreementWeight) right left)
          (compareLex (fun left right => compareOn (fun candidate : Candidate ℚ =>
              candidate.change) right left)
            (compareOn fun candidate => candidate.asset)))) :=
  rfl

instance : Std.TransCmp (compareCandidates : Candidate ℚ → Candidate ℚ → Ordering) := by
  rw [compareCandidates_eq]
  infer_instance

/-- A candidate ranks no later than another: its class is no higher, and within the class its
conviction is no weaker. -/
theorem rank_of_compareCandidates {left right : Candidate ℚ}
    (h : compareCandidates left right ≠ .gt) : left.transition ≤ right.transition ∧
      (left.transition = right.transition → |right.conviction| ≤ |left.conviction|) := by
  unfold compareCandidates compareDecimal at h
  simp only [toRat_eq, ExactDecimal.abs_eq] at h
  rcases lt_trichotomy left.transition right.transition with hclass | hclass | hclass
  · exact ⟨hclass.le, fun hsame => absurd hsame hclass.ne⟩
  · refine ⟨hclass.le, fun _ => ?_⟩
    rw [compare_eq_iff_eq.mpr hclass, Ordering.then] at h
    by_contra hweaker
    rw [not_le, ← compare_gt_iff_gt] at hweaker
    rw [hweaker] at h
    exact h rfl
  · rw [compare_gt_iff_gt.mpr hclass] at h
    exact absurd rfl h

theorem pairwise_compare_ranked : (ranked input).Pairwise fun left right =>
    compareCandidates left right ≠ .gt := by
  have htrans : IsTrans (Candidate ℚ) fun left right => (compareCandidates left right).isLE :=
    ⟨fun _ _ _ hab hbc => Std.TransCmp.isLE_trans hab hbc⟩
  have htotal : Std.Total fun left right : Candidate ℚ => (compareCandidates left right).isLE := by
    refine ⟨fun a b => ?_⟩
    rw [@Std.OrientedCmp.eq_swap _ compareCandidates _ a b]
    cases compareCandidates b a with
    | lt => simp
    | eq => simp
    | gt => simp
  exact (List.pairwise_insertionSort _ _).imp Ordering.isLE_iff_ne_gt.mp

theorem pairwise_ranked : (ranked input).Pairwise fun left right =>
    left.transition ≤ right.transition ∧
      (left.transition = right.transition → |right.conviction| ≤ |left.conviction|) :=
  pairwise_compare_ranked.imp rank_of_compareCandidates

/-- What an asset holds once all exits and reductions are written. -/
def reducedAt (input : SparseAllocationInput ℚ) (asset : String) : ℚ :=
  ((candidateAt input asset).filter fun candidate => candidate.transition ≤ 1).elim
    (valueAt input.filledPositions asset) (·.desired)

/-- The positions with all exits and reductions written. -/
def reducedTargets (input : SparseAllocationInput ℚ) : ExtTreeMap String ℚ :=
  (allocationAssets input).toList.foldl
    (fun book asset => book.insert asset (reducedAt input asset)) ∅

def reductions (input : SparseAllocationInput ℚ) : List (Candidate ℚ) :=
  (ranked input).filter fun candidate => candidate.transition ≤ 1

/-- The increases and the new positions among the candidates. -/
def additions (input : SparseAllocationInput ℚ) : List (Candidate ℚ) :=
  (ranked input).filter fun candidate => !decide (candidate.transition ≤ 1)

theorem reductions_append_additions : reductions input ++ additions input = ranked input :=
  filter_append_filter_not (pairwise_ranked.imp fun h hlow => by simp at *; omega)

theorem getElem?_initialTargets (asset : String) : (initialTargets input)[asset]? =
    if asset ∈ allocationAssets input then some (valueAt input.filledPositions asset) else none := by
  unfold initialTargets
  rw [getElem?_foldl_insert]
  simp only [ExtTreeSet.mem_toList, ExtTreeMap.getElem?_empty]

theorem getElem?_reducedTargets (asset : String) : (reducedTargets input)[asset]? =
    if asset ∈ allocationAssets input then some (reducedAt input asset) else none := by
  unfold reducedTargets
  rw [getElem?_foldl_insert]
  simp only [ExtTreeSet.mem_toList, ExtTreeMap.getElem?_empty]

theorem foldl_reductions : (reductions input).foldl
    (fun book candidate => book.insert candidate.asset candidate.desired) (initialTargets input) =
      reducedTargets input := by
  have hdesired : ∀ candidate ∈ reductions input,
      candidate.desired = reducedAt input candidate.asset := by
    intro candidate hmem
    obtain ⟨hranked, hlow⟩ := List.mem_filter.mp hmem
    unfold reducedAt
    rw [(candidateAt_of_mem_ranked hranked).2, Option.filter_some, if_pos hlow, Option.elim_some]
  have hfold : (reductions input).foldl
      (fun book candidate => book.insert candidate.asset candidate.desired) (initialTargets input) =
        ((reductions input).map (·.asset)).foldl
          (fun book asset => book.insert asset (reducedAt input asset)) (initialTargets input) := by
    rw [List.foldl_map]
    apply List.foldl_ext
    intro book candidate hmem
    rw [hdesired candidate hmem]
  apply ExtTreeMap.ext_getElem?
  intro asset
  rw [hfold, getElem?_foldl_insert, getElem?_initialTargets, getElem?_reducedTargets]
  by_cases hreduced : asset ∈ (reductions input).map (·.asset)
  · obtain ⟨candidate, hmem, rfl⟩ := List.mem_map.mp hreduced
    rw [if_pos hreduced,
      if_pos (candidateAt_of_mem_ranked (List.mem_of_mem_filter hmem)).1]
  · rw [if_neg hreduced]
    by_cases hasset : asset ∈ allocationAssets input
    · rw [if_pos hasset, if_pos hasset]
      apply congrArg some
      unfold reducedAt
      cases hcandidate : candidateAt input asset with
      | none => rfl
      | some candidate =>
        have hhigh : ¬ candidate.transition ≤ 1 := by
          intro hlow
          apply hreduced
          rw [← asset_of_candidateAt hcandidate]
          apply List.mem_map_of_mem
          exact List.mem_filter.mpr ⟨mem_ranked.mpr ⟨asset, hasset, hcandidate⟩, by simpa using hlow⟩
        rw [Option.filter_some, if_neg (by simpa using hhigh), Option.elim_none]
    · rw [if_neg hasset, if_neg hasset]

/-- What a candidate leaves of a book that has no room for it: a new position closes the weakest
slot that it displaces. -/
def withoutRoom (input : SparseAllocationInput ℚ) (book : ExtTreeMap String ℚ)
    (candidate : Candidate ℚ) : ExtTreeMap String ℚ :=
  if candidate.transition = 3 then
    (weakestDisplaceableSlot input book candidate).elim book fun victim => book.insert victim 0
  else book

def additionLoop (input : SparseAllocationInput ℚ) :
    CheckedLoop (ExtTreeMap String ℚ) (Candidate ℚ) where
  passes book candidate :=
    decide (BookWithin (capsOf input) (book.insert candidate.asset candidate.desired))
  take book candidate := book.insert candidate.asset candidate.desired
  skip := withoutRoom input

theorem step_of_within
    (h : BookWithin (capsOf input) (book.insert candidate.asset candidate.desired)) :
    (additionLoop input).step book candidate = book.insert candidate.asset candidate.desired :=
  if_pos (decide_eq_true h)

theorem step_of_not_within
    (h : ¬ BookWithin (capsOf input) (book.insert candidate.asset candidate.desired)) :
    (additionLoop input).step book candidate = withoutRoom input book candidate :=
  if_neg (by simpa [additionLoop] using h)

theorem admitCandidate_of_reduces (book : ExtTreeMap String ℚ) (h : candidate.transition ≤ 1) :
    admitCandidate input (capsOf input) book candidate =
      .ok (book.insert candidate.asset candidate.desired) := by
  unfold admitCandidate
  dsimp only
  rw [withinCaps_eq, ok_bind, if_pos h]
  split
  · rfl
  · rfl

theorem admitCandidate_of_adds (book : ExtTreeMap String ℚ) (h : ¬ candidate.transition ≤ 1) :
    admitCandidate input (capsOf input) book candidate =
      .ok ((additionLoop input).step book candidate) := by
  unfold admitCandidate CheckedLoop.step additionLoop
  dsimp only
  rw [withinCaps_eq, ok_bind]
  by_cases hroom : decide (BookWithin (capsOf input)
      (book.insert candidate.asset candidate.desired)) = true
  · rw [if_pos hroom, if_pos hroom]
    rfl
  · rw [if_neg hroom, if_neg hroom, if_neg h]
    unfold withoutRoom
    by_cases hnew : candidate.transition = 3
    · rw [if_pos (by simp [hnew]), if_pos hnew]
      cases weakestDisplaceableSlot input book candidate with
      | none => rfl
      | some victim =>
        rw [zero_eq]
        rfl
    · rw [if_neg (by simp [hnew]), if_neg hnew]
      rfl

theorem foldlM_eq_foldl {ε S C : Type} {f : S → C → Except ε S} {g : S → C → S} {l : List C}
    (h : ∀ c ∈ l, ∀ s, f s c = .ok (g s c)) (s : S) : l.foldlM f s = .ok (l.foldl g s) := by
  induction l generalizing s with
  | nil => simp [pure, Except.pure]
  | cons c l ih =>
    rw [List.forall_mem_cons] at h
    rw [List.foldlM_cons, h.1, ok_bind, ih h.2, List.foldl_cons]

/-- **The allocation.**  All exits and reductions are written; the rest is the loop over the
increases and the new positions. -/
theorem allocateSparsePortfolio_eq (h : Validated input) : ∃ retained,
    allocateSparsePortfolio input = .ok ⟨(additions input).foldl (additionLoop input).step
      (reducedTargets input), retained⟩ := by
  obtain ⟨retained, hranked⟩ := rankedCandidates_eq h
  refine ⟨retained, ?_⟩
  have hreduce : (reductions input).foldlM (admitCandidate input (capsOf input))
      (initialTargets input) = .ok (reducedTargets input) := by
    rw [← foldl_reductions]
    apply foldlM_eq_foldl
    intro candidate hmem book
    exact admitCandidate_of_reduces book (by simpa using (List.mem_filter.mp hmem).2)
  have hadd : (additions input).foldlM (admitCandidate input (capsOf input))
      (reducedTargets input) =
        .ok ((additions input).foldl (additionLoop input).step (reducedTargets input)) := by
    apply foldlM_eq_foldl
    intro candidate hmem book
    exact admitCandidate_of_adds book (by simpa using (List.mem_filter.mp hmem).2)
  unfold allocateSparsePortfolio
  rw [(validate_eq_ok_iff input).mpr h, ok_bind, allocationCaps_eq, ok_bind, hranked, ok_bind,
    ← reductions_append_additions]
  simp only [List.foldlM_append]
  rw [hreduce, ok_bind, hadd, ok_bind]
  rfl

/-- The slots of a book: a target and a position that are not zero, with a conviction. -/
def slots (input : SparseAllocationInput ℚ) (book : ExtTreeMap String ℚ) : Finset String :=
  (book.keys.filter fun asset => valueAt book asset ≠ 0 ∧ valueAt input.filledPositions asset ≠ 0 ∧
    (input.convictions[asset]?).isSome).toFinset

def convictionAt (input : SparseAllocationInput ℚ) (asset : String) : ℚ :=
  |valueAt input.convictions asset|

def slotKey (input : SparseAllocationInput ℚ) (asset : String) : ℚ ×ₗ ℚ ×ₗ String :=
  toLex (convictionAt input asset, toLex (valueAt input.agreementWeights asset, asset))

/-- The thresholds of the new positions among some candidates. -/
def thresholdsOf (input : SparseAllocationInput ℚ) (candidates : List (Candidate ℚ)) : List ℚ :=
  (candidates.filter fun candidate => candidate.transition = 3).map (displacementThreshold input)

/-- The slots of a book that candidates without room close. -/
def closedSlots (input : SparseAllocationInput ℚ) (book : ExtTreeMap String ℚ)
    (candidates : List (Candidate ℚ)) : Finset String :=
  displaced (slotKey input) (convictionAt input) (slots input book) (thresholdsOf input candidates)

theorem mem_slots : asset ∈ slots input book ↔
    valueAt book asset ≠ (0 : ℚ) ∧ valueAt input.filledPositions asset ≠ (0 : ℚ) ∧
      (input.convictions[asset]?).isSome := by
  unfold slots
  rw [List.mem_toFinset, List.mem_filter, decide_eq_true_eq, ExtTreeMap.mem_keys]
  constructor
  · exact fun h => h.2
  · intro h
    refine ⟨?_, h⟩
    by_contra hnone
    apply h.1
    unfold valueAt
    rw [ExtTreeMap.getElem?_eq_none hnone, Option.getD_none, zero_eq]

theorem slotKey_injective : Function.Injective (slotKey input) := by
  intro first second h
  unfold slotKey at h
  simpa using congrArg (fun key => (ofLex (ofLex key).2).2) h

theorem compareSlots_eq_lt_iff (left right : String) :
    (compareSlots input left right == .lt) = true ↔ slotKey input left < slotKey input right := by
  unfold slotKey convictionAt compareSlots compareDecimal
  rw [beq_iff_eq, Prod.Lex.toLex_lt_toLex, Prod.Lex.toLex_lt_toLex]
  simp only [toRat_eq, ExactDecimal.abs_eq, Ordering.then_eq_lt, compare_lt_iff_lt,
    compare_eq_iff_eq]

theorem convictionAt_le_of_slotKey_le {left right : String}
    (h : slotKey input left ≤ slotKey input right) :
    convictionAt input left ≤ convictionAt input right := by
  unfold slotKey at h
  rw [Prod.Lex.toLex_le_toLex] at h
  rcases h with h | h
  · exact h.le
  · exact h.1.le

theorem mem_displaceable_iff {threshold : ℚ} :
    asset ∈ (book.toList.filter (isDisplaceable input threshold)).map Prod.fst ↔
      asset ∈ slots input book ∧ convictionAt input asset < threshold := by
  rw [mem_slots]
  unfold isDisplaceable convictionAt
  constructor
  · intro h
    obtain ⟨entry, hentry, rfl⟩ := List.mem_map.mp h
    rw [List.mem_filter, ExtTreeMap.mem_toList_iff_getElem?_eq_some] at hentry
    obtain ⟨hget, hslot⟩ := hentry
    rw [Bool.and_eq_true, Bool.and_eq_true, Option.any_eq_true, Option.any_eq_true] at hslot
    obtain ⟨⟨htarget, filled, hfilled, hnonzero⟩, conviction, hconviction, hweak⟩ := hslot
    unfold valueAt
    rw [hget, hfilled, hconviction]
    simp at htarget hnonzero hweak
    exact ⟨⟨htarget, hnonzero, rfl⟩, hweak⟩
  · rintro ⟨⟨htarget, hfilled, hconviction⟩, hweak⟩
    obtain ⟨conviction, hconviction⟩ := Option.isSome_iff_exists.mp hconviction
    have hstored {m : ExtTreeMap String ℚ} (h : valueAt m asset ≠ (0 : ℚ)) :
        m[asset]? = some (valueAt m asset) := by
      unfold valueAt at h ⊢
      cases hget : m[asset]? with
      | none => simp [hget] at h
      | some value => rfl
    refine List.mem_map.mpr ⟨(asset, valueAt book asset), List.mem_filter.mpr ⟨?_, ?_⟩, rfl⟩
    · exact ExtTreeMap.mem_toList_iff_getElem?_eq_some.mpr (hstored htarget)
    · rw [hstored hfilled, hconviction]
      unfold valueAt at hweak
      rw [hconviction] at hweak
      simp at hweak
      simp [htarget, hfilled, hweak]

theorem weakestDisplaceableSlot_eq_some {victim : String}
    (h : weakestDisplaceableSlot input book candidate = some victim) :
    victim ∈ slots input book ∧ (∀ asset ∈ slots input book,
      slotKey input victim ≤ slotKey input asset) ∧
        convictionAt input victim < displacementThreshold input candidate := by
  unfold weakestDisplaceableSlot at h
  obtain ⟨hmem, hleast⟩ := @leastOf_spec _ _ _ _ (slotKey input) (fun _ _ => True)
    compareSlots_eq_lt_iff _ (List.pairwise_of_forall fun _ _ => trivial) _ h
  rw [mem_displaceable_iff] at hmem
  refine ⟨hmem.1, fun asset hasset => ?_, hmem.2⟩
  by_contra hweaker
  rw [not_le] at hweaker
  have hlow := (convictionAt_le_of_slotKey_le hweaker.le).trans_lt hmem.2
  rcases hleast asset (mem_displaceable_iff.mpr ⟨hasset, hlow⟩) with rfl | hlater | ⟨hsame, -⟩
  · exact lt_irrefl _ hweaker
  · exact lt_asymm hweaker hlater
  · exact hweaker.ne hsame.symm

theorem weakestDisplaceableSlot_eq_none (h : weakestDisplaceableSlot input book candidate = none) :
    ∀ asset ∈ slots input book, displacementThreshold input candidate ≤ convictionAt input asset := by
  intro asset hasset
  by_contra hlow
  rw [not_le] at hlow
  unfold weakestDisplaceableSlot at h
  have hmem := mem_displaceable_iff.mpr ⟨hasset, hlow⟩
  rw [leastOf_eq_none h] at hmem
  cases hmem

theorem slots_insert_zero (book : ExtTreeMap String ℚ) (victim : String) :
    slots input (book.insert victim 0) = (slots input book).erase victim := by
  ext asset
  rw [Finset.mem_erase, mem_slots, mem_slots, valueAt_insert]
  by_cases hsame : victim = asset
  · simp [hsame]
  · simp [hsame, Ne.symm hsame]

/-- What the closing of some slots leaves of a book. -/
structure Closes (book next : ExtTreeMap String ℚ) (closed : Finset String) : Prop where
  value : ∀ asset, next[asset]? = if asset ∈ closed then some 0 else book[asset]?
  gross : bookGross next = bookGross book - ∑ asset ∈ closed, |valueAt book asset|
  net : bookNet next = bookNet book - ∑ asset ∈ closed, valueAt book asset

theorem closes_none (book : ExtTreeMap String ℚ) : Closes book book ∅ where
  value := by simp
  gross := by simp
  net := by simp

theorem Closes.cons {next : ExtTreeMap String ℚ} {victim : String} {closed : Finset String}
    (h : Closes (book.insert victim 0) next closed) (hfresh : victim ∉ closed) :
    Closes book next (insert victim closed) := by
  have hother : ∀ asset ∈ closed, valueAt (book.insert victim 0) asset = valueAt book asset := by
    intro asset hasset
    rw [valueAt_insert, if_neg]
    rintro rfl
    exact hfresh hasset
  refine ⟨fun asset => ?_, ?_, ?_⟩
  · rw [h.value, getElem?_insert_eq]
    by_cases hsame : victim = asset
    · simp [hsame]
    · simp [hsame, Ne.symm hsame]
  · rw [h.gross, bookGross_insert, Finset.sum_insert hfresh, abs_zero,
      Finset.sum_congr rfl fun asset hasset => by rw [hother asset hasset]]
    ring
  · rw [h.net, bookNet_insert, Finset.sum_insert hfresh, Finset.sum_congr rfl hother]
    ring

theorem foldl_withoutRoom {candidates : List (Candidate ℚ)}
    (hfalling : (thresholdsOf input candidates).Pairwise fun first second => second ≤ first)
    (book : ExtTreeMap String ℚ) :
    Closes book (candidates.foldl (withoutRoom input) book)
      (closedSlots input book candidates) := by
  induction candidates generalizing book with
  | nil =>
    have hnone : closedSlots input book [] = ∅ := by simp [closedSlots, thresholdsOf]
    rw [hnone]
    exact closes_none book
  | cons candidate candidates ih =>
    rw [List.foldl_cons]
    unfold closedSlots
    by_cases hnew : candidate.transition = 3
    · have hthresholds : thresholdsOf input (candidate :: candidates) =
          displacementThreshold input candidate :: thresholdsOf input candidates := by
        simp [thresholdsOf, hnew]
      rw [hthresholds] at hfalling ⊢
      obtain ⟨hfirst, hrest⟩ := List.pairwise_cons.mp hfalling
      unfold withoutRoom
      rw [if_pos hnew]
      cases hvictim : weakestDisplaceableSlot input book candidate with
      | none =>
        have hstrong := weakestDisplaceableSlot_eq_none hvictim
        have hclosed := ih hrest book
        unfold closedSlots at hclosed
        rw [displaced_eq_empty fun asset hasset threshold hmem =>
          (hfirst threshold hmem).trans (hstrong asset hasset)] at hclosed
        rw [displaced_eq_empty]
        · exact hclosed
        · intro asset hasset threshold hmem
          rcases List.mem_cons.mp hmem with rfl | hmem
          · exact hstrong asset hasset
          · exact (hfirst threshold hmem).trans (hstrong asset hasset)
      | some victim =>
        obtain ⟨hslot, hweakest, hlow⟩ := weakestDisplaceableSlot_eq_some hvictim
        rw [displaced_cons slotKey_injective hslot hweakest hlow, ← slots_insert_zero]
        apply (ih hrest (book.insert victim 0)).cons
        intro hmem
        have hgone := displaced_subset hmem
        rw [slots_insert_zero] at hgone
        exact absurd rfl (Finset.mem_erase.mp hgone).1
    · have hthresholds : thresholdsOf input (candidate :: candidates) =
          thresholdsOf input candidates := by
        simp [thresholdsOf, hnew]
      rw [hthresholds] at hfalling ⊢
      have hkept : withoutRoom input book candidate = book := by
        unfold withoutRoom
        rw [if_neg hnew]
      rw [hkept]
      exact ih hfalling book

end CopyTrade.Analysis
