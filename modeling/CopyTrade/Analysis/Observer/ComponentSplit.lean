import CopyTrade.Foundation.Spread
import CopyTrade.Model.Observer.ShadowFill

/-!
# When the split of a fill keeps the components aligned

The components of an asset are aligned with the portfolio when their positions add up to its
position and all of them have its sign.  From there the partition of a fill is sound exactly under
`SplitAligns`, which is stated in the direction of the fill: `sideSign` turns a sale into a
purchase.  Over `ℚ` the proportional allocations of the loops are a spread of the quantity over the
weights.
-/

namespace CopyTrade.Analysis

open Foundation Model Model.ExactDecimal
open Std (ExtTreeMap)

section

theorem sumValues_exact (quantities : ExtTreeMap String ℚ) :
    sumValues quantities = .ok (sumOf quantities) := by
  unfold sumValues
  rw [foldlM_checkedAdd, zero_eq, zero_add]
  rfl

theorem allocateShares_exact {total weightSum : ℚ} (hsum : weightSum ≠ 0)
    {entries : List (String × ℚ)} {remaining : ℚ}
    (hremaining : remaining = total * (entries.map Prod.snd).sum / weightSum)
    (hpositive : ∀ entry ∈ entries, 0 ≤ total * entry.2 / weightSum) :
    allocateShares total weightSum remaining entries =
      .ok (entries.map fun entry => (entry.1, total * entry.2 / weightSum)) := by
  induction entries generalizing remaining with
  | nil => rfl
  | cons entry rest ih =>
    obtain ⟨candidate, weight⟩ := entry
    rw [List.forall_mem_cons] at hpositive
    obtain ⟨hhead, hrest⟩ := hpositive
    rw [List.map_cons, List.sum_cons] at hremaining
    have hleft : remaining - total * weight / weightSum =
        total * (rest.map Prod.snd).sum / weightSum := by
      rw [hremaining]
      ring
    have hothers : 0 ≤ total * (rest.map Prod.snd).sum / weightSum := by
      have hterms : total * (rest.map Prod.snd).sum / weightSum =
          (rest.map fun entry => total / weightSum * entry.2).sum := by
        rw [List.sum_map_mul_left]
        ring
      rw [hterms]
      refine List.sum_nonneg ?_
      intro share hshare
      obtain ⟨entry, hentry, rfl⟩ := List.mem_map.mp hshare
      have hnonneg := hrest entry hentry
      rwa [mul_div_right_comm] at hnonneg
    have hallocation : candidateShare total weightSum remaining weight rest.isEmpty =
        .ok (total * weight / weightSum) := by
      unfold candidateShare
      cases rest with
      | nil =>
        rw [List.map_nil, List.sum_nil, mul_zero, zero_div, sub_eq_zero] at hleft
        rw [hleft]
        rfl
      | cons next rest =>
        have hmin : min (total * weight / weightSum) remaining = total * weight / weightSum := by
          refine min_eq_left ?_
          linarith
        simp only [List.isEmpty_cons, Bool.false_eq_true, if_false, checkedMul_eq,
          Option.bind_some, checkedDiv_eq hsum, orArithmetic, ok_bind, min_eq, hmin]
        rfl
    unfold allocateShares
    rw [hallocation, ok_bind, checkedSub_eq, orArithmetic, ok_bind, hleft, ih rfl hrest]
    rfl

def AllPositive (weights : ExtTreeMap String ℚ) : Prop :=
  ∀ (candidate : String) (weight : ℚ), weights[candidate]? = some weight → 0 < weight

variable {weights : ExtTreeMap String ℚ}

theorem sumOf_pos_of_nonempty (hpositive : AllPositive weights)
    (hnonempty : weights.isEmpty = false) : (0 : ℚ) < sumOf weights := by
  obtain ⟨candidate, weight, hentry⟩ := (isEmpty_eq_false_iff_exists weights).mp hnonempty
  exact sumOf_pos hentry hpositive

theorem ofList_map_toList {A B : Type} (weights : ExtTreeMap String A) (f : A → B) :
    ExtTreeMap.ofList (weights.toList.map fun entry => (entry.1, f entry.2)) compare =
      weights.map fun _ weight => f weight := by
  rw [← ofList_toList (weights.map fun _ weight => f weight), ExtTreeMap.toList_map]

theorem proportionalAllocations_exact {quantity : ℚ} (hquantity : 0 < quantity)
    (hpositive : AllPositive weights) (hnonempty : weights.isEmpty = false) :
    proportionalAllocations quantity weights = .ok (spread quantity weights) := by
  have hsum := sumOf_pos_of_nonempty hpositive hnonempty
  unfold proportionalAllocations
  rw [if_neg (by simpa using hquantity.ne'), sumValues_exact, ok_bind,
    if_neg (by simpa using hsum)]
  have hshares : allocateShares quantity (sumOf weights) quantity weights.toList =
      .ok (weights.toList.map fun entry => (entry.1, quantity * entry.2 / sumOf weights)) := by
    refine allocateShares_exact hsum.ne' ?_ ?_
    · show quantity = quantity * sumOf weights / sumOf weights
      rw [mul_div_cancel_right₀ quantity hsum.ne']
    · rintro ⟨candidate, weight⟩ hentry
      have hweight := hpositive candidate weight
        (ExtTreeMap.mem_toList_iff_getElem?_eq_some.mp hentry)
      positivity
  rw [hshares, ok_bind, ofList_map_toList weights fun weight => quantity * weight / sumOf weights]
  rfl

theorem capacityShares_exact {quantity : ℚ} (hquantity : 0 < quantity)
    (hpositive : AllPositive weights) (hnonempty : weights.isEmpty = false) :
    capacityShares quantity (sumOf weights) weights = .ok (spread quantity weights) := by
  unfold capacityShares
  by_cases hequal : quantity = sumOf weights
  · rw [if_pos (by simpa using hequal), hequal,
      spread_sumOf (sumOf_pos_of_nonempty hpositive hnonempty).ne']
  · rw [if_neg (by simpa using hequal), proportionalAllocations_exact hquantity hpositive hnonempty]

theorem spread_positive {quantity : ℚ} (hquantity : 0 < quantity) (hpositive : AllPositive weights)
    (hnonempty : weights.isEmpty = false) : AllPositive (spread quantity weights) := by
  intro candidate share hshare
  rw [getElem?_spread] at hshare
  obtain ⟨weight, hweight, rfl⟩ := Option.map_eq_some_iff.mp hshare
  have hsum := sumOf_pos_of_nonempty hpositive hnonempty
  have := hpositive candidate weight hweight
  positivity

theorem isEmpty_spread (quantity : ℚ) (weights : ExtTreeMap String ℚ) :
    (spread quantity weights).isEmpty = weights.isEmpty := by
  unfold spread
  rw [← ExtTreeMap.isEmpty_toList, ← ExtTreeMap.isEmpty_toList, ExtTreeMap.toList_map,
    List.isEmpty_map]

theorem canonicalizeAllocationTotal_exact {allocations : ExtTreeMap String ℚ}
    (hpositive : AllPositive allocations) (hnonempty : allocations.isEmpty = false) :
    canonicalizeAllocationTotal allocations (sumOf allocations) = .ok allocations := by
  unfold canonicalizeAllocationTotal
  cases hanchor : allocations.keys.getLast? with
  | none =>
    rw [List.getLast?_eq_none_iff, ← List.isEmpty_iff, ExtTreeMap.isEmpty_keys] at hanchor
    rw [hanchor] at hnonempty
    cases hnonempty
  | some anchor =>
    have hmem : anchor ∈ allocations :=
      ExtTreeMap.mem_keys.mp (List.mem_of_getLast? hanchor)
    obtain ⟨allocation, hallocation⟩ : ∃ allocation, allocations[anchor]? = some allocation :=
      (contains_iff_exists _ _).mp (ExtTreeMap.mem_iff_contains.mp hmem)
    have hrest : sumOf allocations - sumOf (allocations.erase anchor) = allocation := by
      have hinsert := sumOf_insert (allocations.erase anchor) anchor allocation
      have hgone : amount (allocations.erase anchor) anchor = (0 : ℚ) :=
        amount_of_getElem?_eq_none (by rw [getElem?_erase_eq, if_pos rfl])
      rw [insert_erase_self, insert_of_getElem? hallocation, hgone, sub_zero] at hinsert
      rw [hinsert]
      ring
    dsimp only
    rw [sumValues_exact, ok_bind, checkedSub_eq, orArithmetic, ok_bind, hrest,
      if_neg (by simpa using (hpositive anchor allocation hallocation).le),
      insert_of_getElem? hallocation]
    rfl

theorem addQuantities_exact (closes opens : ExtTreeMap String ℚ) :
    ∃ totals : ExtTreeMap String ℚ, addQuantities closes opens = .ok totals ∧
      sumOf totals = sumOf closes + sumOf opens ∧
      ∀ candidate, amount totals candidate = amount closes candidate + amount opens candidate := by
  have hloop : ∀ (entries : List (String × ℚ)) (start : ExtTreeMap String ℚ),
      entries.Pairwise (fun a b => a.1 ≠ b.1) →
      ∃ totals : ExtTreeMap String ℚ, entries.foldlM (fun totals entry => do
          let combined ← orArithmetic
            (Decimal.checkedAdd (totals[entry.1]?.getD Decimal.zero) entry.2)
          pure (totals.insert entry.1 combined)) start =
            (.ok totals : Except LiveShadowError (ExtTreeMap String ℚ)) ∧
        sumOf totals = sumOf start + (entries.map Prod.snd).sum ∧
        (∀ entry ∈ entries, amount totals entry.1 = amount start entry.1 + entry.2) ∧
        ∀ candidate, (∀ entry ∈ entries, entry.1 ≠ candidate) →
          amount totals candidate = amount start candidate := by
    intro entries
    induction entries with
    | nil =>
      intro start _
      refine ⟨start, rfl, ?_, ?_, ?_⟩
      · rw [List.map_nil, List.sum_nil, add_zero]
      · intro entry hentry
        cases hentry
      · intro candidate _
        rfl
    | cons entry entries ih =>
      intro start hdistinct
      obtain ⟨hfresh, htail⟩ := List.pairwise_cons.mp hdistinct
      obtain ⟨totals, hrun, hsum, hwritten, hkept⟩ :=
        ih (start.insert entry.1 (amount start entry.1 + entry.2)) htail
      refine ⟨totals, ?_, ?_, ?_, ?_⟩
      · rw [List.foldlM_cons, checkedAdd_eq, orArithmetic, ok_bind]
        unfold amount at hrun
        rw [← zero_eq] at hrun
        exact hrun
      · rw [hsum, sumOf_insert, List.map_cons, List.sum_cons]
        ring
      · intro other hother
        rcases List.mem_cons.mp hother with rfl | hother
        · rw [hkept other.1 (fun later hlater => (hfresh later hlater).symm), amount_insert,
            if_pos rfl]
        · rw [hwritten other hother, amount_insert, if_neg (hfresh other hother)]
      · intro candidate hcandidate
        rw [List.forall_mem_cons] at hcandidate
        rw [hkept candidate hcandidate.2, amount_insert, if_neg hcandidate.1]
  have hkeys : opens.toList.Pairwise (fun a b => a.1 ≠ b.1) := by
    refine List.Pairwise.imp ?_ (ExtTreeMap.distinct_keys_toList (t := opens))
    intro a b hdistinct hsame
    exact hdistinct (Std.LawfulEqOrd.compare_eq_iff_eq.mpr hsame)
  obtain ⟨totals, hrun, hsum, hwritten, hkept⟩ := hloop opens.toList closes hkeys
  refine ⟨totals, hrun, hsum, fun candidate => ?_⟩
  cases hopen : opens[candidate]? with
  | none =>
    rw [amount_of_getElem?_eq_none hopen, add_zero]
    refine hkept candidate ?_
    rintro ⟨other, quantity⟩ hentry rfl
    rw [ExtTreeMap.mem_toList_iff_getElem?_eq_some, hopen] at hentry
    cases hentry
  | some quantity =>
    rw [amount_of_getElem? hopen]
    exact hwritten (candidate, quantity) (ExtTreeMap.mem_toList_iff_getElem?_eq_some.mpr hopen)

end

def sideSign : Side → ℚ
  | .buy => 1
  | .sell => -1

@[simp] theorem sideSign_mul_self (side : Side) : sideSign side * sideSign side = 1 := by
  cases side <;> norm_num [sideSign]

theorem signedFill_exact (side : Side) (filled : ℚ) :
    Model.signedFill side filled = sideSign side * filled := by
  cases side with
  | buy => exact (one_mul filled).symm
  | sell => exact (neg_one_mul filled).symm

theorem sideSign_mul_mul (side : Side) (a b : ℚ) :
    sideSign side * a * (sideSign side * b) = a * b := by
  rw [mul_mul_mul_comm, sideSign_mul_self, one_mul]

theorem eq_sideSign_mul (side : Side) (a : ℚ) : a = sideSign side * (sideSign side * a) := by
  rw [← mul_assoc, sideSign_mul_self, one_mul]

theorem matchesFill_nonzero_iff (side : Side) (quantity : ℚ) :
    (matchesFill side quantity && !Decimal.isZero quantity) = true ↔
      0 < sideSign side * quantity := by
  unfold matchesFill Decimal.isSignNegative sideSign
  rw [Bool.and_eq_true]
  cases side with
  | buy =>
    simp only [isSignPositive_iff_nonneg, Bool.not_eq_true', isZero_eq_false_iff_ne, one_mul]
    exact ⟨fun h => lt_of_le_of_ne h.1 (Ne.symm h.2), fun h => ⟨h.le, h.ne'⟩⟩
  | sell =>
    simp only [Bool.not_eq_true', ← Bool.not_eq_true, isSignPositive_iff_nonneg, not_le,
      neg_one_mul, neg_pos]
    exact ⟨fun h => h.1, fun h => ⟨h, by simpa using h.ne⟩⟩

theorem closesPosition_eq (side : Side) {position : ℚ} (h : position ≠ 0) :
    closesPosition side position = decide (sideSign side * position < 0) := by
  unfold closesPosition Decimal.isSignNegative sideSign
  cases side with
  | buy => simp [Decimal.isSignPositive, ← not_le]
  | sell =>
    have hiff : 0 ≤ position ↔ 0 < position :=
      ⟨fun hle => lt_of_le_of_ne hle (Ne.symm h), le_of_lt⟩
    simp [Decimal.isSignPositive, hiff]

theorem abs_of_towards {side : Side} {quantity : ℚ} (h : 0 ≤ sideSign side * quantity) :
    |quantity| = sideSign side * quantity := by
  cases side with
  | buy => rw [sideSign, one_mul] at h ⊢; exact abs_of_nonneg h
  | sell =>
    rw [sideSign, neg_one_mul] at h ⊢
    exact abs_of_nonpos (neg_nonneg.mp h)

theorem abs_of_against {side : Side} {quantity : ℚ} (h : sideSign side * quantity ≤ 0) :
    |quantity| = -(sideSign side * quantity) := by
  have hturned : 0 ≤ sideSign side * -quantity := by
    rw [mul_neg]
    exact neg_nonneg.mpr h
  rw [← abs_neg, abs_of_towards hturned, mul_neg]

theorem crossesZero_iff (before after : ℚ) : crossesZero before after = true ↔ before * after < 0 := by
  unfold crossesZero
  simp only [Bool.and_eq_true, Bool.not_eq_true', isZero_eq_false_iff_ne, bne_iff_ne, ne_eq,
    Decimal.isSignPositive, toRat_eq, decide_eq_decide]
  constructor
  · rintro ⟨⟨hbefore, hafter⟩, hsigns⟩
    rcases lt_or_gt_of_ne hbefore with hneg | hpos
    · have hpositive : 0 < after := by
        refine lt_of_le_of_ne (not_lt.mp fun hlt => hsigns ?_) (Ne.symm hafter)
        exact iff_of_false (not_le.mpr hneg) (not_le.mpr hlt)
      exact mul_neg_of_neg_of_pos hneg hpositive
    · have hnegative : after < 0 := by
        refine lt_of_le_of_ne (not_lt.mp fun hlt => hsigns ?_) hafter
        exact iff_of_true hpos.le hlt.le
      exact mul_neg_of_pos_of_neg hpos hnegative
  · intro hproduct
    rcases mul_neg_iff.mp hproduct with ⟨hpos, hneg⟩ | ⟨hneg, hpos⟩
    · exact ⟨⟨hpos.ne', hneg.ne⟩, fun hiff => absurd (hiff.mp hpos.le) (not_le.mpr hneg)⟩
    · exact ⟨⟨hneg.ne, hpos.ne'⟩, fun hiff => absurd (hiff.mpr hpos.le) (not_le.mpr hneg)⟩

/-- The component positions add up to the portfolio position and have its sign. -/
structure AlignedPositions (positions : ExtTreeMap String ℚ) (portfolio : ℚ) : Prop where
  sum : sumOf positions = portfolio
  sided : ∀ (component : String) (position : ℚ), positions[component]? = some position →
    0 < portfolio * position

section

variable {positions : ExtTreeMap String ℚ} {portfolio : ℚ} {side : Side}

theorem AlignedPositions.against (haligned : AlignedPositions positions portfolio)
    (hbefore : sideSign side * portfolio < 0) {component : String} {position : ℚ}
    (hget : positions[component]? = some position) : sideSign side * position < 0 := by
  have hproduct := haligned.sided component position hget
  rw [← sideSign_mul_mul side] at hproduct
  refine not_le.mp fun hnonneg => ?_
  exact absurd hproduct (not_lt.mpr (mul_nonpos_of_nonpos_of_nonneg hbefore.le hnonneg))

theorem AlignedPositions.sumOf_abs (haligned : AlignedPositions positions portfolio)
    (hbefore : sideSign side * portfolio < 0) :
    sumOf (positions.map fun _ position => |position|) = -(sideSign side * portfolio) := by
  rw [sumOf_map (fun position : ℚ => |position|), ← haligned.sum]
  have habs : total (fun (_ : String) (position : ℚ) => |position|) positions =
      total (fun _ position => -sideSign side * position) positions := by
    refine total_congr fun component position hget => ?_
    rw [abs_of_against (haligned.against hbefore hget).le, neg_mul]
  rw [habs, total_mul_left, neg_mul]
  rfl

theorem AlignedPositions.amount_against (haligned : AlignedPositions positions portfolio)
    (hbefore : sideSign side * portfolio < 0) (component : String) :
    sideSign side * amount positions component ≤ 0 := by
  cases hget : positions[component]? with
  | none => rw [amount_of_getElem?_eq_none hget, mul_zero]
  | some position =>
    rw [amount_of_getElem? hget]
    exact (haligned.against hbefore hget).le

theorem AlignedPositions.amount_towards (haligned : AlignedPositions positions portfolio)
    (hbefore : 0 ≤ sideSign side * portfolio) (component : String) :
    0 ≤ sideSign side * amount positions component := by
  cases hget : positions[component]? with
  | none => rw [amount_of_getElem?_eq_none hget, mul_zero]
  | some position =>
    have hproduct := haligned.sided component position hget
    rw [← sideSign_mul_mul side] at hproduct
    rw [amount_of_getElem? hget]
    refine le_of_lt (not_le.mp fun hnonpos => ?_)
    exact absurd hproduct (not_lt.mpr (mul_nonpos_of_nonneg_of_nonpos hbefore hnonpos))

end

def positionAfter (positions shares : ExtTreeMap String ℚ) (side : Side) (component : String) : ℚ :=
  amount positions component + sideSign side * amount shares component

/-- A partition reconciles with its fill, closes no more than is held, and leaves every
component with nothing or on the side of the portfolio. -/
structure SoundPartition (positions : ExtTreeMap String ℚ) (side : Side)
    (filled sizeStep portfolioAfter : ℚ) (partition : ComponentFillPartition ℚ) : Prop where
  reconciles : |sumOf partition.totalQuantities - filled| ≤ sizeStep / 10 ^ 12
  closes : ∀ (component : String) (quantity : ℚ),
    partition.closeQuantities[component]? = some quantity → quantity ≤ |amount positions component|
  aligned : ∀ component, positionAfter positions partition.totalQuantities side component = 0 ∨
    0 < portfolioAfter * positionAfter positions partition.totalQuantities side component

/-- What a component lacks in the direction of a fill: its target at the price of the decision,
less what it holds. -/
def lacking (positions : ExtTreeMap String ℚ) (side : Side) (targets : ExtTreeMap String ℚ)
    (price : ℚ) (component : String) : ℚ :=
  sideSign side * (amount targets component / price - amount positions component)

/-- The condition under which the split of a fill keeps aligned components aligned: the fill
flattens the portfolio; or it crosses zero and some target is on its side; or it opens or
enlarges the position and some component lacks something in its direction; or it reduces the
position, some component does, and no share exceeds what its component holds. -/
def SplitAligns (positions : ExtTreeMap String ℚ) (side : Side) (filled : ℚ)
    (targets : ExtTreeMap String ℚ) (price portfolio : ℚ) : Prop :=
  let before := sideSign side * portfolio
  let after := before + filled
  after = 0 ∨
    (before < 0 ∧ 0 < after ∧
      ∃ (component : String) (target : ℚ), targets[component]? = some target ∧
        0 < sideSign side * target) ∨
    (0 ≤ before ∧ ∃ component, 0 < lacking positions side targets price component) ∨
    (after < 0 ∧ (∃ component, 0 < lacking positions side targets price component) ∧
      ∀ component, 0 < lacking positions side targets price component →
        filled * lacking positions side targets price component ≤
          sumOf (directionalDeltas positions side targets price) * |amount positions component|)

variable {positions targets : ExtTreeMap String ℚ} {portfolio filled price sizeStep : ℚ}
  {side : Side}

theorem requireReconciled_exact {message : String} {sum expected : ℚ} (hstep : 0 < sizeStep)
    (hsum : sum = expected) : requireReconciled message sum expected sizeStep = .ok () := by
  have htolerance : (0 : ℚ) ≤ sizeStep * Decimal.new 1 12 := by
    show 0 ≤ sizeStep * ((1 : ℤ) / 10 ^ 12)
    positivity
  unfold requireReconciled reconciliationDifference
  rw [if_neg (by simpa using hstep)]
  simp only [checkedMul_eq, checkedSub_eq, orArithmetic, ok_bind, hsum, sub_self, abs_eq, abs_zero]
  exact if_neg (by simpa using htolerance)

theorem filter_nonzero (hnonzero : ∀ (component : String) (position : ℚ),
    positions[component]? = some position → position ≠ 0) :
    (positions.filter fun _ position => !Decimal.isZero position) = positions := by
  apply ExtTreeMap.ext_getElem?
  intro component
  rw [ExtTreeMap.getElem?_filter']
  cases hget : positions[component]? with
  | none => rfl
  | some position =>
    have hkept : Decimal.isZero position = false :=
      (isZero_eq_false_iff_ne position).mpr (hnonzero component position hget)
    rw [Option.filter_some, hkept]
    rfl

theorem flattenPartition_exact (haligned : AlignedPositions positions portfolio)
    (hfilled : 0 < filled) (hstep : 0 < sizeStep) (hflat : sideSign side * portfolio + filled = 0) :
    flattenPartition positions side filled sizeStep =
      .ok ⟨positions.map fun _ position => |position|, ∅,
        positions.map fun _ position => |position|⟩ := by
  have hbefore : sideSign side * portfolio < 0 := by linarith
  have hnonzero : ∀ (component : String) (position : ℚ), positions[component]? = some position →
      position ≠ 0 := by
    rintro component position hget rfl
    have hagainst := haligned.against hbefore hget
    rw [mul_zero] at hagainst
    exact lt_irrefl 0 hagainst
  have hnonempty : positions.isEmpty = false := by
    refine Bool.eq_false_iff.mpr fun hempty => ?_
    have hsum := haligned.sum
    rw [ExtTreeMap.isEmpty_iff.mp hempty, sumOf_empty] at hsum
    rw [← hsum, mul_zero] at hbefore
    exact lt_irrefl 0 hbefore
  have hcloses : (positions.toList.any fun entry => !closesPosition side entry.2) = false := by
    refine List.any_eq_false.mpr ?_
    rintro ⟨component, position⟩ hentry
    have hget := ExtTreeMap.mem_toList_iff_getElem?_eq_some.mp hentry
    rw [closesPosition_eq side (hnonzero component position hget),
      decide_eq_true (haligned.against hbefore hget)]
    exact Bool.false_ne_true
  have habs : (positions.map fun _ (position : ℚ) => Decimal.abs position) =
      positions.map fun _ position => |position| := by
    simp only [abs_eq]
  unfold flattenPartition
  dsimp only
  rw [filter_nonzero hnonzero, hnonempty, hcloses, habs]
  simp only [Bool.or_self, Bool.false_eq_true, if_false]
  rw [sumValues_exact, ok_bind, haligned.sumOf_abs hbefore,
    requireReconciled_exact hstep (by linarith), ok_bind]
  rfl

theorem amount_map_abs (component : String) :
    amount (positions.map fun _ position => |position|) component =
      |amount positions component| := by
  unfold amount
  rw [ExtTreeMap.getElem?_map]
  cases positions[component]? with
  | none => exact abs_zero.symm
  | some position => rfl

theorem flatten_sound (haligned : AlignedPositions positions portfolio)
    (hstep : 0 < sizeStep) (hflat : sideSign side * portfolio + filled = 0)
    (hfilled : 0 < filled) (portfolioAfter : ℚ) :
    SoundPartition positions side filled sizeStep portfolioAfter
      ⟨positions.map fun _ position => |position|, ∅,
        positions.map fun _ position => |position|⟩ where
  reconciles := by
    have hbefore : sideSign side * portfolio < 0 := by linarith
    rw [haligned.sumOf_abs hbefore, show -(sideSign side * portfolio) - filled = 0 by linarith,
      abs_zero]
    positivity
  closes component quantity hclose := by
    rw [← amount_map_abs, amount_of_getElem? hclose]
  aligned component := by
    have hbefore : sideSign side * portfolio < 0 := by linarith
    refine .inl ?_
    unfold positionAfter
    rw [amount_map_abs, abs_of_against (haligned.amount_against hbefore component), mul_neg,
      ← eq_sideSign_mul, add_neg_cancel]

theorem getElem?_openingCapacity (hprice : 0 < price) (component : String) :
    (openingCapacity side targets price)[component]? =
      targets[component]?.bind fun target =>
        if 0 < sideSign side * target then some (sideSign side * target / price) else none := by
  unfold openingCapacity
  rw [ExtTreeMap.getElem?_filterMap']
  cases targets[component]? with
  | none => rfl
  | some target =>
    have hsame : 0 < sideSign side * (target / price) ↔ 0 < sideSign side * target := by
      rw [← mul_div_assoc]
      exact div_pos_iff_of_pos_right hprice
    rw [Option.bind_some, Option.bind_some, checkedDiv_eq hprice.ne', Option.bind_some, abs_eq]
    by_cases hmatches : 0 < sideSign side * target
    · rw [if_pos ((matchesFill_nonzero_iff side _).mpr (hsame.mpr hmatches)), if_pos hmatches,
        abs_of_towards (hsame.mpr hmatches).le, mul_div_assoc]
    · rw [if_neg (mt (matchesFill_nonzero_iff side _).mp (mt hsame.mp hmatches)), if_neg hmatches]

theorem openingCapacity_positive (hprice : 0 < price) :
    AllPositive (openingCapacity side targets price) := by
  intro component quantity hget
  rw [getElem?_openingCapacity hprice] at hget
  obtain ⟨target, -, hget⟩ := Option.bind_eq_some_iff.mp hget
  split at hget
  · rename_i hmatches
    cases hget
    exact div_pos hmatches hprice
  · cases hget

theorem openingCapacity_nonempty_iff (hprice : 0 < price) :
    (openingCapacity side targets price).isEmpty = false ↔
      ∃ (component : String) (target : ℚ), targets[component]? = some target ∧
        0 < sideSign side * target := by
  rw [isEmpty_eq_false_iff_exists]
  constructor
  · rintro ⟨component, quantity, hget⟩
    rw [getElem?_openingCapacity hprice] at hget
    obtain ⟨target, htarget, hget⟩ := Option.bind_eq_some_iff.mp hget
    split at hget
    · rename_i hmatches
      exact ⟨component, target, htarget, hmatches⟩
    · cases hget
  · rintro ⟨component, target, htarget, hmatches⟩
    refine ⟨component, sideSign side * target / price, ?_⟩
    rw [getElem?_openingCapacity hprice, htarget, Option.bind_some, if_pos hmatches]

theorem closes_exact (haligned : AlignedPositions positions portfolio)
    (hbefore : sideSign side * portfolio < 0) :
    (positions.filterMap fun _ (position : ℚ) =>
      if closesPosition side position && !Decimal.isZero position then
        some (Decimal.abs position) else none) = positions.map fun _ position => |position| := by
  apply ExtTreeMap.ext_getElem?
  intro component
  rw [ExtTreeMap.getElem?_filterMap', ExtTreeMap.getElem?_map]
  cases hget : positions[component]? with
  | none => rfl
  | some position =>
    have hagainst := haligned.against hbefore hget
    have hnonzero : position ≠ 0 := by
      rintro rfl
      rw [mul_zero] at hagainst
      exact lt_irrefl 0 hagainst
    rw [Option.bind_some, closesPosition_eq side hnonzero, decide_eq_true hagainst,
      (isZero_eq_false_iff_ne position).mpr hnonzero, abs_eq]
    rfl

theorem crossingPartition_exact (haligned : AlignedPositions positions portfolio)
    (hstep : 0 < sizeStep) (hprice : 0 < price) (hbefore : sideSign side * portfolio < 0)
    (hafter : 0 < sideSign side * portfolio + filled)
    (hcapacity : (openingCapacity side targets price).isEmpty = false) :
    ∃ totals, crossingPartition positions side filled targets price portfolio sizeStep =
        .ok ⟨positions.map fun _ position => |position|,
          spread (sideSign side * portfolio + filled) (openingCapacity side targets price),
          totals⟩ ∧
      sumOf totals = filled ∧
      ∀ component, amount totals component = |amount positions component| +
        amount (spread (sideSign side * portfolio + filled)
          (openingCapacity side targets price)) component := by
  have hpositive : AllPositive (openingCapacity side targets price) :=
    openingCapacity_positive hprice
  have hcapacitySum := sumOf_pos_of_nonempty hpositive hcapacity
  have hclosed := haligned.sumOf_abs hbefore
  have hopened := sumOf_spread (sideSign side * portfolio + filled) hcapacitySum.ne'
  obtain ⟨totals, htotals, hsum, hamounts⟩ := addQuantities_exact
    (positions.map fun _ position => |position|)
    (spread (sideSign side * portfolio + filled) (openingCapacity side targets price))
  have hnonempty : (positions.map fun _ (position : ℚ) => |position|).isEmpty = false := by
    refine Bool.eq_false_iff.mpr fun hempty => ?_
    rw [ExtTreeMap.isEmpty_iff.mp hempty, sumOf_empty] at hclosed
    linarith
  refine ⟨totals, ?_, ?_, ?_⟩
  · have hportfolio : |portfolio| = -(sideSign side * portfolio) := abs_of_against hbefore.le
    have htolerance : (0 : ℚ) ≤ sizeStep * Decimal.new 1 12 := by
      show 0 ≤ sizeStep * ((1 : ℤ) / 10 ^ 12)
      positivity
    have hwithin : Decimal.lt (sizeStep * Decimal.new 1 12) (0 : ℚ) = false := by
      simpa [Decimal.lt] using htolerance
    unfold crossingPartition
    dsimp only
    rw [closes_exact haligned hbefore, sumValues_exact, ok_bind, hclosed]
    unfold reconciliationDifference
    rw [if_neg (by simpa using hstep)]
    simp only [checkedMul_eq, checkedSub_eq, orArithmetic, ok_bind, abs_eq, hportfolio, sub_self,
      abs_zero, pure_bind, hnonempty, hwithin, Bool.or_self, Bool.false_eq_true, if_false]
    rw [show filled - -(sideSign side * portfolio) = sideSign side * portfolio + filled by ring,
      if_neg (by simpa using hafter), hcapacity, if_neg Bool.false_ne_true, sumValues_exact,
      ok_bind, capacityShares_exact hafter hpositive hcapacity, ok_bind]
    have hcanonical := canonicalizeAllocationTotal_exact
      (spread_positive hafter hpositive hcapacity)
      ((isEmpty_spread _ _).trans hcapacity)
    rw [hopened] at hcanonical
    rw [hcanonical, ok_bind, htotals, ok_bind, sumValues_exact, ok_bind,
      requireReconciled_exact hstep (by rw [hsum, hclosed, hopened]; ring), ok_bind]
    rfl
  · rw [hsum, hclosed, hopened]
    ring
  · intro component
    rw [hamounts, amount_map_abs]

theorem crossing_sound (haligned : AlignedPositions positions portfolio) (hstep : 0 < sizeStep)
    (hbefore : sideSign side * portfolio < 0) {opened after : ℚ} (hafter : 0 < after)
    {capacity totals : ExtTreeMap String ℚ} (hcapacity : AllPositive capacity)
    (hnonempty : capacity.isEmpty = false) (hopened : 0 < opened) (hsum : sumOf totals = filled)
    (hamounts : ∀ component, amount totals component =
      |amount positions component| + amount (spread opened capacity) component) :
    SoundPartition positions side filled sizeStep (sideSign side * after)
      ⟨positions.map fun _ position => |position|, spread opened capacity, totals⟩ where
  reconciles := by
    rw [hsum, sub_self, abs_zero]
    positivity
  closes component quantity hclose := by
    rw [← amount_map_abs, amount_of_getElem? hclose]
  aligned component := by
    have hposition : positionAfter positions totals side component =
        sideSign side * amount (spread opened capacity) component := by
      unfold positionAfter
      rw [hamounts, abs_of_against (haligned.amount_against hbefore component), mul_add, mul_neg,
        ← eq_sideSign_mul]
      ring
    rw [hposition, sideSign_mul_mul]
    cases hshare : (spread opened capacity)[component]? with
    | none => exact .inl (by rw [amount_of_getElem?_eq_none hshare, mul_zero])
    | some share =>
      rw [amount_of_getElem? hshare]
      exact .inr (mul_pos hafter
        (spread_positive hopened hcapacity hnonempty component share hshare))

theorem crossingPartition_refused (hcapacity : (openingCapacity side targets price).isEmpty = true)
    (partition : ComponentFillPartition ℚ) :
    crossingPartition positions side filled targets price portfolio sizeStep ≠ .ok partition := by
  intro h
  unfold crossingPartition at h
  obtain ⟨closeTotal, -, h⟩ := of_bind h
  obtain ⟨⟨difference, tolerance⟩, -, h⟩ := of_bind h
  dsimp only at h
  split at h
  · cases h
  obtain ⟨opening, -, h⟩ := of_bind h
  split at h
  · cases h
  · -- The split has already decided the check of the capacity.
    cases h

theorem directionalDelta_exact (hprice : price ≠ 0) (component : String) :
    directionalDelta positions side targets price component =
      if 0 < lacking positions side targets price component then
        some (lacking positions side targets price component) else none := by
  have hlacking : lacking positions side targets price component =
      sideSign side * (targets[component]?.getD 0 / price - positions[component]?.getD 0) := rfl
  unfold directionalDelta
  rw [zero_eq, checkedDiv_eq hprice, Option.bind_some, checkedSub_eq, Option.bind_some, abs_eq,
    hlacking]
  by_cases hmatches : 0 < sideSign side *
      (targets[component]?.getD 0 / price - positions[component]?.getD 0)
  · rw [if_pos ((matchesFill_nonzero_iff side _).mpr hmatches), if_pos hmatches,
      abs_of_towards hmatches.le]
  · rw [if_neg (mt (matchesFill_nonzero_iff side _).mp hmatches), if_neg hmatches]

theorem getElem?_directionalDeltas (hprice : price ≠ 0) (component : String) :
    (directionalDeltas positions side targets price)[component]? =
      if 0 < lacking positions side targets price component then
        some (lacking positions side targets price component) else none := by
  have hwrite : ∀ (other : String) (deltas : ExtTreeMap String ℚ),
      (collectQuantity deltas other
        (directionalDelta positions side targets price other))[component]? =
      if other = component ∧ 0 < lacking positions side targets price component then
        some (lacking positions side targets price component) else deltas[component]? := by
    intro other deltas
    rw [directionalDelta_exact hprice]
    by_cases hsame : other = component
    · subst hsame
      by_cases hlacks : 0 < lacking positions side targets price other
      · simp only [hlacks, and_self, if_true, collectQuantity, getElem?_insert_eq]
      · simp only [hlacks, and_false, if_false, collectQuantity]
    · simp only [hsame, false_and, if_false]
      split
      · exact getElem?_insert_of_ne hsame _
      · rfl
  have hloop : ∀ (components : List String) (deltas : ExtTreeMap String ℚ),
      (components.foldl (fun deltas component => collectQuantity deltas component
        (directionalDelta positions side targets price component)) deltas)[component]? =
      if component ∈ components ∧ 0 < lacking positions side targets price component then
        some (lacking positions side targets price component) else deltas[component]? := by
    intro components
    induction components with
    | nil =>
      intro deltas
      simp
    | cons other components ih =>
      intro deltas
      rw [List.foldl_cons, ih, hwrite]
      by_cases hlacks : 0 < lacking positions side targets price component
      · by_cases hmem : component ∈ components
        · simp only [hmem, hlacks, and_self, if_true, List.mem_cons, or_true]
        · simp only [hmem, hlacks, if_false, and_true, List.mem_cons, or_false,
            eq_comm]
      · simp only [hlacks, and_false, if_false]
  unfold directionalDeltas
  rw [hloop, ExtTreeMap.getElem?_empty]
  by_cases hlacks : 0 < lacking positions side targets price component
  · rw [if_pos hlacks, if_pos]
    refine ⟨?_, hlacks⟩
    rw [List.mem_append, ExtTreeMap.mem_keys, ExtTreeMap.mem_keys]
    by_contra habsent
    push Not at habsent
    have hposition : positions[component]? = none := ExtTreeMap.getElem?_eq_none habsent.1
    have htarget : targets[component]? = none := ExtTreeMap.getElem?_eq_none habsent.2
    unfold lacking at hlacks
    rw [amount_of_getElem?_eq_none hposition, amount_of_getElem?_eq_none htarget, zero_div,
      sub_zero, mul_zero] at hlacks
    exact lt_irrefl 0 hlacks
  · rw [if_neg hlacks, if_neg (fun h => hlacks h.2)]

theorem directionalDeltas_positive (hprice : price ≠ 0) :
    AllPositive (directionalDeltas positions side targets price) := by
  intro component quantity hget
  rw [getElem?_directionalDeltas hprice] at hget
  split at hget
  · rename_i hlacks
    cases hget
    exact hlacks
  · cases hget

theorem directionalDeltas_nonempty_iff (hprice : price ≠ 0) :
    (directionalDeltas positions side targets price).isEmpty = false ↔
      ∃ component, 0 < lacking positions side targets price component := by
  rw [isEmpty_eq_false_iff_exists]
  constructor
  · rintro ⟨component, quantity, hget⟩
    rw [getElem?_directionalDeltas hprice] at hget
    split at hget
    · rename_i hlacks
      exact ⟨component, hlacks⟩
    · cases hget
  · rintro ⟨component, hlacks⟩
    exact ⟨component, _, (getElem?_directionalDeltas hprice component).trans (if_pos hlacks)⟩

theorem closePart_le (current quantity : ℚ) : closePart side current quantity ≤ |current| := by
  unfold closePart
  split
  · rw [min_eq, abs_eq]
    exact min_le_right _ _
  · rw [zero_eq]
    exact abs_nonneg current

theorem closeAndOpen_exact (positions allocations : ExtTreeMap String ℚ) (side : Side) :
    ∃ parts : ExtTreeMap String ℚ × ExtTreeMap String ℚ,
      closeAndOpen positions side allocations = .ok parts ∧
      ∀ (component : String) (quantity : ℚ), parts.1[component]? = some quantity →
        quantity ≤ |amount positions component| := by
  have hloop : ∀ (entries : List (String × ℚ)) (start : ExtTreeMap String ℚ × ExtTreeMap String ℚ),
      (∀ (component : String) (quantity : ℚ), start.1[component]? = some quantity →
        quantity ≤ |amount positions component|) →
      ∃ parts : ExtTreeMap String ℚ × ExtTreeMap String ℚ,
        entries.foldlM (splitAllocation positions side) start = .ok parts ∧
        ∀ (component : String) (quantity : ℚ), parts.1[component]? = some quantity →
          quantity ≤ |amount positions component| := by
    intro entries
    induction entries with
    | nil => exact fun start hstart => ⟨start, rfl, hstart⟩
    | cons entry entries ih =>
      intro start hstart
      rw [List.foldlM_cons]
      unfold splitAllocation
      dsimp only
      rw [checkedSub_eq, orArithmetic, ok_bind]
      refine ih _ ?_
      intro component quantity hget
      unfold keepPart at hget
      split at hget
      · exact hstart component quantity hget
      · rw [collectQuantity, getElem?_insert_eq] at hget
        split at hget
        · rename_i hsame
          cases hget
          subst hsame
          rw [zero_eq]
          exact closePart_le _ _
        · exact hstart component quantity hget
  exact hloop allocations.toList (∅, ∅) (by
    intro component quantity hget
    rw [ExtTreeMap.getElem?_empty] at hget
    cases hget)

variable (positions targets side) in
theorem proportionalPartition_exact (hprice : price ≠ 0) (hfilled : 0 < filled)
    (hnonempty : (directionalDeltas positions side targets price).isEmpty = false) :
    ∃ parts : ExtTreeMap String ℚ × ExtTreeMap String ℚ,
      proportionalPartition positions side filled targets price =
        .ok ⟨parts.1, parts.2, spread filled (directionalDeltas positions side targets price)⟩ ∧
      ∀ (component : String) (quantity : ℚ), parts.1[component]? = some quantity →
        quantity ≤ |amount positions component| := by
  have hpositive : AllPositive (directionalDeltas positions side targets price) :=
    directionalDeltas_positive hprice
  have hsum := sumOf_spread filled (sumOf_pos_of_nonempty hpositive hnonempty).ne'
  have hcanonical := canonicalizeAllocationTotal_exact
    (spread_positive hfilled hpositive hnonempty) ((isEmpty_spread _ _).trans hnonempty)
  rw [hsum] at hcanonical
  obtain ⟨parts, hparts, hcloses⟩ := closeAndOpen_exact positions
    (spread filled (directionalDeltas positions side targets price)) side
  refine ⟨parts, ?_, hcloses⟩
  unfold proportionalPartition
  dsimp only
  rw [hnonempty, if_neg Bool.false_ne_true, sumValues_exact, ok_bind,
    capacityShares_exact hfilled hpositive hnonempty, ok_bind, hcanonical, ok_bind,
    sumValues_exact, ok_bind, hsum, Decimal.eqv_refl, Bool.not_true, if_neg Bool.false_ne_true,
    hparts, ok_bind]
  rfl

theorem proportionalPartition_refused
    (hempty : (directionalDeltas positions side targets price).isEmpty = true)
    (partition : ComponentFillPartition ℚ) :
    proportionalPartition positions side filled targets price ≠ .ok partition := by
  intro h
  unfold proportionalPartition at h
  dsimp only at h
  rw [hempty, if_pos rfl] at h
  cases h

variable (positions targets filled side) in
theorem positionAfter_spread (hprice : price ≠ 0) (component : String) :
    sideSign side * positionAfter positions
        (spread filled (directionalDeltas positions side targets price)) side component =
      sideSign side * amount positions component +
        if 0 < lacking positions side targets price component then
          filled * lacking positions side targets price component /
            sumOf (directionalDeltas positions side targets price) else 0 := by
  have hshare : amount (spread filled (directionalDeltas positions side targets price)) component =
      if 0 < lacking positions side targets price component then
        filled * lacking positions side targets price component /
          sumOf (directionalDeltas positions side targets price) else 0 := by
    unfold amount
    rw [getElem?_spread, getElem?_directionalDeltas hprice]
    split <;> rfl
  unfold positionAfter
  rw [mul_add, ← eq_sideSign_mul, hshare]

theorem proportional_aligned_enlarging (haligned : AlignedPositions positions portfolio)
    (hprice : price ≠ 0) (hfilled : 0 < filled) (hbefore : 0 ≤ sideSign side * portfolio)
    (hnonempty : (directionalDeltas positions side targets price).isEmpty = false)
    (component : String) :
    positionAfter positions (spread filled (directionalDeltas positions side targets price)) side
        component = 0 ∨
      0 < (portfolio + sideSign side * filled) * positionAfter positions
        (spread filled (directionalDeltas positions side targets price)) side component := by
  have hcapacity : (0 : ℚ) < sumOf (directionalDeltas positions side targets price) :=
    sumOf_pos_of_nonempty (directionalDeltas_positive hprice) hnonempty
  have hposition := haligned.amount_towards hbefore component
  have hafter : 0 < sideSign side * (portfolio + sideSign side * filled) := by
    rw [mul_add, ← eq_sideSign_mul]
    linarith
  have hspread := positionAfter_spread positions targets filled side hprice component
  rw [← sideSign_mul_mul side]
  by_cases hlacks : 0 < lacking positions side targets price component
  · rw [if_pos hlacks] at hspread
    refine .inr (mul_pos hafter ?_)
    rw [hspread]
    positivity
  · rw [if_neg hlacks, add_zero] at hspread
    rcases hposition.lt_or_eq with hpositive | hzero
    · exact .inr (mul_pos hafter (by rw [hspread]; exact hpositive))
    · refine .inl ?_
      rw [eq_sideSign_mul side (positionAfter _ _ _ _), hspread, ← hzero, mul_zero]

/-- A proportional fill that reduces the position leaves every component on its side exactly
when no share exceeds what its component holds. -/
theorem proportional_aligned_reducing_iff (haligned : AlignedPositions positions portfolio)
    (hprice : price ≠ 0) (hfilled : 0 < filled)
    (hafter : sideSign side * (portfolio + sideSign side * filled) < 0)
    (hnonempty : (directionalDeltas positions side targets price).isEmpty = false) :
    (∀ component, positionAfter positions
        (spread filled (directionalDeltas positions side targets price)) side component = 0 ∨
      0 < (portfolio + sideSign side * filled) * positionAfter positions
        (spread filled (directionalDeltas positions side targets price)) side component) ↔
    ∀ component, 0 < lacking positions side targets price component →
      filled * lacking positions side targets price component ≤
        sumOf (directionalDeltas positions side targets price) * |amount positions component| := by
  have hcapacity : (0 : ℚ) < sumOf (directionalDeltas positions side targets price) :=
    sumOf_pos_of_nonempty (directionalDeltas_positive hprice) hnonempty
  have hbefore : sideSign side * portfolio < 0 := by
    rw [mul_add, ← eq_sideSign_mul] at hafter
    linarith
  have hmember : ∀ component, (positionAfter positions
        (spread filled (directionalDeltas positions side targets price)) side component = 0 ∨
      0 < (portfolio + sideSign side * filled) * positionAfter positions
        (spread filled (directionalDeltas positions side targets price)) side component) ↔
      sideSign side * positionAfter positions
        (spread filled (directionalDeltas positions side targets price)) side component ≤ 0 := by
    intro component
    rw [← sideSign_mul_mul side (portfolio + sideSign side * filled)]
    constructor
    · rintro (hzero | hpositive)
      · rw [hzero, mul_zero]
      · refine not_lt.mp fun hlt => ?_
        exact absurd hpositive (not_lt.mpr (mul_nonpos_of_nonpos_of_nonneg hafter.le hlt.le))
    · intro hle
      rcases hle.lt_or_eq with hnegative | hzero
      · exact .inr (mul_pos_of_neg_of_neg hafter hnegative)
      · refine .inl ?_
        rw [eq_sideSign_mul side (positionAfter _ _ _ _), hzero, mul_zero]
  refine forall_congr' fun component => (hmember component).trans ?_
  have hheld := abs_of_against (haligned.amount_against hbefore component)
  have hspread := positionAfter_spread positions targets filled side hprice component
  rw [hspread]
  by_cases hlacks : 0 < lacking positions side targets price component
  · rw [if_pos hlacks, hheld]
    have hshare : sideSign side * amount positions component +
        filled * lacking positions side targets price component /
          sumOf (directionalDeltas positions side targets price) ≤ 0 ↔
        filled * lacking positions side targets price component /
          sumOf (directionalDeltas positions side targets price) ≤
            -(sideSign side * amount positions component) := by
      constructor <;> intro h <;> linarith
    rw [hshare, div_le_iff₀ hcapacity, mul_comm (sumOf _)]
    exact ⟨fun h _ => h, fun h => h hlacks⟩
  · rw [if_neg hlacks, add_zero]
    exact iff_of_true (haligned.amount_against hbefore component) fun h => absurd h hlacks

/-- **The partition of a fill on aligned components** returns and is sound exactly under
`SplitAligns`. -/
theorem partition_sound_iff (haligned : AlignedPositions positions portfolio)
    (hfilled : 0 < filled) (hprice : 0 < price) (hstep : 0 < sizeStep) :
    (∃ partition, partitionComponentFill positions side filled targets price
        (portfolio + sideSign side * filled) sizeStep = .ok partition ∧
      SoundPartition positions side filled sizeStep (portfolio + sideSign side * filled)
        partition) ↔
    SplitAligns positions side filled targets price portfolio := by
  have hdirected : sideSign side * (portfolio + sideSign side * filled) =
      sideSign side * portfolio + filled := by
    rw [mul_add, ← eq_sideSign_mul]
  have hafterEq : portfolio + sideSign side * filled =
      sideSign side * (sideSign side * portfolio + filled) := by
    rw [← hdirected, ← eq_sideSign_mul]
  have hcross : crossesZero portfolio (portfolio + sideSign side * filled) = true ↔
      sideSign side * portfolio * (sideSign side * portfolio + filled) < 0 := by
    rw [crossesZero_iff, ← sideSign_mul_mul side portfolio, hdirected]
  unfold partitionComponentFill SplitAligns
  rw [if_neg (by simpa using hfilled.ne'), if_neg (by simpa using hprice)]
  by_cases hflat : sideSign side * portfolio + filled = 0
  · -- The fill flattens the portfolio.
    have hzero : Decimal.isZero (portfolio + sideSign side * filled) = true := by
      rw [hafterEq, hflat, mul_zero]
      rfl
    rw [if_pos hzero, flattenPartition_exact haligned hfilled hstep hflat]
    exact iff_of_true ⟨_, rfl, flatten_sound haligned hstep hflat hfilled _⟩ (.inl hflat)
  have hnonzero : Decimal.isZero (portfolio + sideSign side * filled) = false := by
    rw [isZero_eq_false_iff_ne]
    intro hzero
    rw [← hdirected, hzero, mul_zero] at hflat
    exact hflat rfl
  rw [if_neg (by simp [hnonzero]), signedFill_exact, checkedSub_eq, orArithmetic, ok_bind,
    add_sub_cancel_right]
  by_cases hbefore : 0 ≤ sideSign side * portfolio
  · -- The fill opens or enlarges the position.
    have hsame : crossesZero portfolio (portfolio + sideSign side * filled) = false := by
      rw [← Bool.not_eq_true, hcross, not_lt]
      exact mul_nonneg hbefore (by linarith)
    rw [if_neg (by simp [hsame])]
    cases hempty : (directionalDeltas positions side targets price).isEmpty with
    | true =>
      have hnone : ¬ ∃ component, 0 < lacking positions side targets price component := by
        rw [← directionalDeltas_nonempty_iff hprice.ne', hempty]
        decide
      refine iff_of_false ?_ ?_
      · rintro ⟨partition, hpartition, -⟩
        exact proportionalPartition_refused hempty partition hpartition
      · rintro (h | ⟨h, -⟩ | ⟨-, h⟩ | ⟨-, h, -⟩)
        · exact hflat h
        · linarith
        · exact hnone h
        · exact hnone h
    | false =>
      obtain ⟨parts, hpartition, hcloses⟩ :=
        proportionalPartition_exact positions targets side hprice.ne' hfilled hempty
      refine iff_of_true ⟨_, hpartition, ?_⟩ (.inr (.inr (.inl ⟨hbefore,
        (directionalDeltas_nonempty_iff hprice.ne').mp hempty⟩)))
      have hsum := sumOf_spread filled
        (sumOf_pos_of_nonempty (directionalDeltas_positive hprice.ne') hempty).ne'
      refine ⟨?_, hcloses, proportional_aligned_enlarging haligned hprice.ne' hfilled hbefore hempty⟩
      rw [hsum, sub_self, abs_zero]
      positivity
  rw [not_le] at hbefore
  by_cases hafter : 0 < sideSign side * portfolio + filled
  · -- The fill crosses zero.
    have hcrosses := hcross.mpr (mul_neg_of_neg_of_pos hbefore hafter)
    rw [if_pos hcrosses]
    cases hempty : (openingCapacity side targets price).isEmpty with
    | true =>
      have hnone : ¬ ∃ (component : String) (target : ℚ), targets[component]? = some target ∧
          0 < sideSign side * target := by
        rw [← openingCapacity_nonempty_iff hprice, hempty]
        decide
      refine iff_of_false ?_ ?_
      · rintro ⟨partition, hpartition, -⟩
        exact crossingPartition_refused hempty partition hpartition
      · rintro (h | ⟨-, -, h⟩ | ⟨h, -⟩ | ⟨h, -⟩)
        · exact hflat h
        · exact hnone h
        · linarith
        · linarith
    | false =>
      obtain ⟨totals, hpartition, hsum, hamounts⟩ := crossingPartition_exact haligned hstep hprice
        hbefore hafter hempty
      refine iff_of_true ⟨_, hpartition, ?_⟩ (.inr (.inl ⟨hbefore, hafter,
        (openingCapacity_nonempty_iff hprice).mp hempty⟩))
      rw [hafterEq]
      exact crossing_sound haligned hstep hbefore hafter (openingCapacity_positive hprice) hempty
        hafter hsum hamounts
  · -- The fill reduces the position.
    have hafter : sideSign side * portfolio + filled < 0 :=
      lt_of_le_of_ne (not_lt.mp hafter) hflat
    have hsame : crossesZero portfolio (portfolio + sideSign side * filled) = false := by
      rw [← Bool.not_eq_true, hcross, not_lt]
      exact mul_nonneg_of_nonpos_of_nonpos hbefore.le hafter.le
    rw [if_neg (by simp [hsame])]
    cases hempty : (directionalDeltas positions side targets price).isEmpty with
    | true =>
      have hnone : ¬ ∃ component, 0 < lacking positions side targets price component := by
        rw [← directionalDeltas_nonempty_iff hprice.ne', hempty]
        decide
      refine iff_of_false ?_ ?_
      · rintro ⟨partition, hpartition, -⟩
        exact proportionalPartition_refused hempty partition hpartition
      · rintro (h | ⟨-, h, -⟩ | ⟨h, -⟩ | ⟨-, h, -⟩)
        · exact hflat h
        · linarith
        · linarith
        · exact hnone h
    | false =>
      obtain ⟨parts, hpartition, hcloses⟩ :=
        proportionalPartition_exact positions targets side hprice.ne' hfilled hempty
      have hsum := sumOf_spread filled
        (sumOf_pos_of_nonempty (directionalDeltas_positive hprice.ne') hempty).ne'
      have hiff := proportional_aligned_reducing_iff haligned hprice.ne' hfilled
        (by rw [hdirected]; exact hafter) hempty
      constructor
      · rintro ⟨partition, hresult, hsound⟩
        rw [hpartition, Except.ok.injEq] at hresult
        subst hresult
        exact .inr (.inr (.inr ⟨hafter,
          (directionalDeltas_nonempty_iff hprice.ne').mp hempty, hiff.mp hsound.aligned⟩))
      · rintro (h | ⟨-, h, -⟩ | ⟨h, -⟩ | ⟨-, -, hshares⟩)
        · exact absurd h hflat
        · linarith
        · linarith
        · refine ⟨_, hpartition, ?_, hcloses, hiff.mpr hshares⟩
          rw [hsum, sub_self, abs_zero]
          positivity

theorem sumOf_canonicalize {allocations canonical : ExtTreeMap String ℚ} {expected : ℚ}
    (h : canonicalizeAllocationTotal allocations expected = .ok canonical) :
    sumOf canonical = expected := by
  unfold canonicalizeAllocationTotal at h
  cases hanchor : allocations.keys.getLast? with
  | none =>
    rw [hanchor] at h
    cases h
  | some anchor =>
    rw [hanchor] at h
    dsimp only at h
    rw [sumValues_exact, ok_bind, checkedSub_eq, orArithmetic, ok_bind] at h
    split at h
    · cases h
    · rw [pure_eq_ok_iff] at h
      rw [← h, sumOf_insert, sumOf_eq_amount_add allocations anchor]
      ring

variable {partition : ComponentFillPartition ℚ}

theorem flattenPartition_total (hnonzero : ∀ (component : String) (position : ℚ),
      positions[component]? = some position → position ≠ 0)
    (h : flattenPartition positions side filled sizeStep = .ok partition) :
    sumOf partition.totalQuantities = -(sideSign side * sumOf positions) := by
  unfold flattenPartition at h
  dsimp only at h
  rw [filter_nonzero hnonzero] at h
  split at h
  · cases h
  · rename_i hrefused
    rw [Bool.or_eq_true, not_or, List.any_eq_true, not_exists] at hrefused
    obtain ⟨attributed, -, h⟩ := of_bind h
    obtain ⟨-, -, h⟩ := of_bind h
    rw [pure_eq_ok_iff] at h
    rw [← h]
    rw [sumOf_map (fun position : ℚ => Decimal.abs position), ← neg_mul]
    unfold sumOf
    rw [← total_mul_left]
    refine total_congr fun component position hget => ?_
    have hcloses := hrefused.2 (component, position)
    rw [not_and, ExtTreeMap.mem_toList_iff_getElem?_eq_some] at hcloses
    have hagainst := hcloses hget
    rw [Bool.not_eq_true', Bool.not_eq_false, closesPosition_eq side (hnonzero _ _ hget),
      decide_eq_true_iff] at hagainst
    rw [abs_eq, abs_of_against hagainst.le, neg_mul]

theorem crossingPartition_total
    (h : crossingPartition positions side filled targets price portfolio sizeStep =
      .ok partition) : sumOf partition.totalQuantities = filled := by
  unfold crossingPartition at h
  dsimp only at h
  rw [sumValues_exact, ok_bind] at h
  obtain ⟨⟨difference, tolerance⟩, -, h⟩ := of_bind h
  split at h
  · cases h
  rw [checkedSub_eq, orArithmetic, ok_bind] at h
  split at h
  · cases h
  split at h
  · cases h
  obtain ⟨capacity, -, h⟩ := of_bind h
  obtain ⟨shares, -, h⟩ := of_bind h
  obtain ⟨opens, hopens, h⟩ := of_bind h
  obtain ⟨totals, htotals, h⟩ := of_bind h
  obtain ⟨attributed, -, h⟩ := of_bind h
  obtain ⟨-, -, h⟩ := of_bind h
  rw [pure_eq_ok_iff] at h
  obtain ⟨added, hadded, hsum, -⟩ := addQuantities_exact (positions.filterMap fun _ (position : ℚ) =>
    if closesPosition side position && !Decimal.isZero position then some (Decimal.abs position)
    else none) opens
  rw [hadded, Except.ok.injEq] at htotals
  rw [← h, ← htotals, hsum, sumOf_canonicalize hopens]
  ring

theorem proportionalPartition_total
    (h : proportionalPartition positions side filled targets price = .ok partition) :
    sumOf partition.totalQuantities = filled := by
  unfold proportionalPartition at h
  dsimp only at h
  split at h
  · cases h
  obtain ⟨capacity, -, h⟩ := of_bind h
  obtain ⟨shares, -, h⟩ := of_bind h
  obtain ⟨allocations, hallocations, h⟩ := of_bind h
  obtain ⟨sum, -, h⟩ := of_bind h
  split at h
  · cases h
  obtain ⟨⟨closes, opens⟩, -, h⟩ := of_bind h
  rw [pure_eq_ok_iff] at h
  rw [← h]
  exact sumOf_canonicalize hallocations

/-- **The shares of a fill add up to it**, whatever the components hold, when their positions
add up to that of the portfolio. -/
theorem partition_total (hsum : sumOf positions = portfolio)
    (hnonzero : ∀ (component : String) (position : ℚ),
      positions[component]? = some position → position ≠ 0)
    (h : partitionComponentFill positions side filled targets price
      (portfolio + sideSign side * filled) sizeStep = .ok partition) :
    sumOf partition.totalQuantities = filled := by
  unfold partitionComponentFill at h
  split at h
  · rename_i hzero
    rw [Except.ok.injEq] at h
    rw [← h, (isZero_iff_eq_zero _).mp hzero]
    rfl
  split at h
  · cases h
  split at h
  · rename_i hflat
    rw [flattenPartition_total hnonzero h, hsum]
    have hclosed : sideSign side * (portfolio + sideSign side * filled) = 0 := by
      rw [(isZero_iff_eq_zero _).mp hflat, mul_zero]
    rw [mul_add, ← eq_sideSign_mul] at hclosed
    linarith
  obtain ⟨before, -, h⟩ := of_bind h
  split at h
  · exact crossingPartition_total h
  · exact proportionalPartition_total h

end CopyTrade.Analysis
