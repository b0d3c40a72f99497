import CopyTrade.Analysis.Decision.SparseAllocation

/-!
# The caps of an admitted book and the rotation of its slots

Only increases and new positions are checked against the caps; an exit, a reduction and the closing
of a slot can take a hedge away.  A new position that finds no room closes the weakest slot, and
waits; the capacity it frees is open to every new position behind it.  As long as the closed slots
decide for no new position, nothing is inverted against the loop that keeps all slots.
-/

namespace CopyTrade.Analysis

open Foundation Model Model.Allocation
open Model.ExactDecimal
open PortfolioRisk (Caps valueAt)
open Std (ExtTreeMap)

section

variable {input : SparseAllocationInput ℚ}

def AssetsWithin (cap : ℚ) (book : ExtTreeMap String ℚ) : Prop :=
  ∀ (asset : String) (value : ℚ), book[asset]? = some value → |value| ≤ cap

theorem assetsWithin_iff {cap : ℚ} {book : ExtTreeMap String ℚ} :
    AssetsWithin cap book ↔ ∀ value ∈ book.values, |value| ≤ cap := by
  unfold AssetsWithin
  rw [values_eq_map_toList]
  constructor
  · intro h value hmem
    obtain ⟨⟨asset, value⟩, hentry, rfl⟩ := List.mem_map.mp hmem
    exact h asset value (ExtTreeMap.mem_toList_iff_getElem?_eq_some.mp hentry)
  · intro h asset value hget
    apply h
    exact List.mem_map.mpr ⟨(asset, value), ExtTreeMap.mem_toList_iff_getElem?_eq_some.mpr hget, rfl⟩

theorem abs_desiredAt_le (h : Validated input) (asset : String) :
    |desiredAt input asset| ≤ (capsOf input).asset := by
  have hcap := h.assetCap_nonneg
  unfold desiredAt Decimal.clamp
  simp only [lt_iff_lt, neg_eq]
  split
  · rw [abs_neg, abs_of_nonneg hcap]
  · rename_i hlow
    split
    · rw [abs_of_nonneg hcap]
    · rename_i hhigh
      exact abs_le.mpr ⟨not_lt.mp hlow, not_lt.mp hhigh⟩

theorem desired_of_candidateAt {asset : String} {candidate : Candidate ℚ}
    (h : candidateAt input asset = some candidate) :
    candidate.transition = classAt input asset ∧
      (candidate.desired = desiredAt input asset ∨ candidate.desired = 0) := by
  unfold candidateAt at h
  split at h
  · cases h
  · obtain ⟨floor, -, h⟩ := Option.bind_eq_some_iff.mp h
    split at h
    · cases h
    · cases h
      refine ⟨rfl, ?_⟩
      unfold stagedDesired
      split
      · exact .inr zero_eq
      · exact .inl rfl

theorem abs_desired_le (h : Validated input) {asset : String} {candidate : Candidate ℚ}
    (hcandidate : candidateAt input asset = some candidate) :
    |candidate.desired| ≤ (capsOf input).asset := by
  rcases (desired_of_candidateAt hcandidate).2 with hdesired | hdesired
  · rw [hdesired]
    exact abs_desiredAt_le h asset
  · rw [hdesired, abs_zero]
    exact h.assetCap_nonneg

theorem exists_reduction (h : Validated input) {asset : String}
    (hasset : asset ∈ allocationAssets input)
    (hlarge : (capsOf input).asset < |valueAt input.filledPositions asset|) :
    ∃ candidate, candidateAt input asset = some candidate ∧ candidate.transition ≤ 1 := by
  have hsmaller := (abs_desiredAt_le h asset).trans_lt hlarge
  have hheld : valueAt input.filledPositions asset ≠ (0 : ℚ) := by
    intro hzero
    rw [hzero, abs_zero] at hlarge
    exact absurd hlarge (not_lt.mpr h.assetCap_nonneg)
  have hclass : classAt input asset ≤ 1 := by
    unfold classAt transitionClass
    by_cases hexit : desiredAt input asset = 0
    · simp [hheld, hexit]
    · simp [hheld, hexit, hsmaller]
  obtain ⟨floor, hfloor⟩ := Option.isSome_iff_exists.mp (h.floor asset hasset)
  have hcandidate : (candidateAt input asset).isSome := by
    unfold candidateAt
    rw [if_neg, hfloor, Option.bind_some, if_neg]
    · simp
    · rintro ⟨hadds, -⟩
      omega
    · intro hsame
      rw [hsame] at hsmaller
      exact lt_irrefl _ hsmaller
  obtain ⟨candidate, hcandidate⟩ := Option.isSome_iff_exists.mp hcandidate
  refine ⟨candidate, hcandidate, ?_⟩
  rw [(desired_of_candidateAt hcandidate).1]
  exact hclass

theorem assetsWithin_reducedTargets (h : Validated input) :
    AssetsWithin (capsOf input).asset (reducedTargets input) := by
  intro asset value hget
  rw [getElem?_reducedTargets] at hget
  split at hget
  · rename_i hasset
    rw [Option.some.injEq] at hget
    subst hget
    unfold reducedAt
    by_cases hlarge : (capsOf input).asset < |valueAt input.filledPositions asset|
    · obtain ⟨candidate, hcandidate, hlow⟩ := exists_reduction h hasset hlarge
      rw [hcandidate, Option.filter_some, if_pos (by simpa using hlow), Option.elim_some]
      exact abs_desired_le h hcandidate
    · rw [not_lt] at hlarge
      cases hcandidate : candidateAt input asset with
      | none => exact hlarge
      | some candidate =>
        rw [Option.filter_some]
        split
        · rw [Option.elim_some]
          exact abs_desired_le h hcandidate
        · exact hlarge
  · cases hget

theorem AssetsWithin.insert {cap : ℚ} {book : ExtTreeMap String ℚ} (h : AssetsWithin cap book)
    (asset : String) {value : ℚ} (hvalue : |value| ≤ cap) :
    AssetsWithin cap (book.insert asset value) := by
  intro other found hget
  rw [getElem?_insert_eq] at hget
  split at hget
  · rw [Option.some.injEq] at hget
    rw [← hget]
    exact hvalue
  · exact h other found hget

theorem assetsWithin_step (h : Validated input) {book : ExtTreeMap String ℚ}
    (hbook : AssetsWithin (capsOf input).asset book) (candidate : Candidate ℚ) :
    AssetsWithin (capsOf input).asset ((additionLoop input).step book candidate) := by
  unfold CheckedLoop.step additionLoop
  dsimp only
  split
  · rename_i hpasses
    rw [decide_eq_true_eq] at hpasses
    exact assetsWithin_iff.mpr hpasses.asset
  · unfold withoutRoom
    split
    · cases weakestDisplaceableSlot input book candidate with
      | none => exact hbook
      | some victim =>
        apply hbook.insert
        rw [abs_zero]
        exact h.assetCap_nonneg
    · exact hbook

theorem assetsWithin_foldl (h : Validated input) {candidates : List (Candidate ℚ)}
    {book : ExtTreeMap String ℚ} (hbook : AssetsWithin (capsOf input).asset book) :
    AssetsWithin (capsOf input).asset (candidates.foldl (additionLoop input).step book) := by
  induction candidates generalizing book with
  | nil => exact hbook
  | cons candidate candidates ih => exact ih (assetsWithin_step h hbook candidate)

theorem pairwise_thresholdsOf {candidates : List (Candidate ℚ)}
    (h : candidates.Sublist (ranked input)) :
    (thresholdsOf input candidates).Pairwise fun first second => second ≤ first := by
  unfold thresholdsOf displacementThreshold
  rw [List.pairwise_map, List.pairwise_filter]
  refine (pairwise_ranked.sublist h).imp ?_
  rintro left right ⟨-, hweaker⟩ hleft hright
  rw [decide_eq_true_eq] at hleft hright
  have hconviction := hweaker (hleft.trans hright.symm)
  simp only [ExactDecimal.abs_eq, checkedSub_eq, Option.getD_some]
  linarith

/-- The book after the last increase or new position that passes the caps: the positions with all
exits and reductions written, where none passes. -/
def lastCheckedBook (input : SparseAllocationInput ℚ) : ExtTreeMap String ℚ :=
  ((additionLoop input).lastPassed (reducedTargets input) (additions input)).1

/-- The candidates behind the last one that passes the caps. -/
def unroomed (input : SparseAllocationInput ℚ) : List (Candidate ℚ) :=
  ((additionLoop input).lastPassed (reducedTargets input) (additions input)).2

/-- The targets of a book without some of its slots leave the gross and the net exposure within
their caps. -/
def StaysWithinWithout (caps : Caps ℚ) (book : ExtTreeMap String ℚ) (closed : Finset String) :
    Prop :=
  bookGross book - ∑ asset ∈ closed, |valueAt book asset| ≤ caps.gross ∧
    |bookNet book - ∑ asset ∈ closed, valueAt book asset| ≤ caps.net

instance (caps : Caps ℚ) (book : ExtTreeMap String ℚ) (closed : Finset String) :
    Decidable (StaysWithinWithout caps book closed) :=
  inferInstanceAs (Decidable (_ ∧ _))

/-- A long and a short position, of which the target keeps the short one. -/
def hedgeInput : SparseAllocationInput ℚ where
  rawTargets := ExtTreeMap.ofList [("ETH", -30)] compare
  convictions := ∅
  agreementWeights := ∅
  executionFloors := ExtTreeMap.ofList [("BTC", ⟨1, 1, 10, 11⟩), ("ETH", ⟨1, 1, 10, 11⟩)] compare
  filledPositions := ExtTreeMap.ofList [("BTC", 30), ("ETH", -30)] compare
  currentEquity := 100
  curveLeverage := 8
  globalRiskScale := 1 / 10
  maxSingleAssetEquityPct := 65 / 100
  maxNetEquityPct := 20 / 100
  rankHysteresis := 2 / 100

end

/-- One round of the loop over the candidates, without the rotation of slots. -/
def admitUnrotated (caps : Caps ℚ) (admitted : ExtTreeMap String ℚ) (candidate : Candidate ℚ) :
    Except AllocationError (ExtTreeMap String ℚ) := do
  let proposed := admitted.insert candidate.asset candidate.desired
  if ← withinCaps proposed caps then pure proposed
  else if candidate.transition ≤ 1 then pure proposed
  else pure admitted

/-- The targets that are admitted without the rotation of slots. -/
def allocateUnrotated (input : SparseAllocationInput ℚ) :
    Except AllocationError (ExtTreeMap String ℚ) := do
  validate input
  let caps ← allocationCaps input
  let (candidates, _) ← rankedCandidates input caps.asset
  candidates.foldlM (admitUnrotated caps) (initialTargets input)

def increases (input : SparseAllocationInput ℚ) : List (Candidate ℚ) :=
  (additions input).filter fun candidate => candidate.transition ≤ 2

def openings (input : SparseAllocationInput ℚ) : List (Candidate ℚ) :=
  (additions input).filter fun candidate => !decide (candidate.transition ≤ 2)

def startBook (input : SparseAllocationInput ℚ) : ExtTreeMap String ℚ :=
  (increases input).foldl (additionLoop input).step (reducedTargets input)

/-- One round of the loop that keeps all slots, with the new positions refused so far. -/
def unrotatedStep (input : SparseAllocationInput ℚ)
    (state : ExtTreeMap String ℚ × List (Candidate ℚ)) (candidate : Candidate ℚ) :
    ExtTreeMap String ℚ × List (Candidate ℚ) :=
  if BookWithin (capsOf input) (state.1.insert candidate.asset candidate.desired) then
    (state.1.insert candidate.asset candidate.desired, state.2)
  else (state.1, state.2 ++ [candidate])

/-- The book and the refused new positions of the loop that keeps all slots. -/
def unrotatedState (input : SparseAllocationInput ℚ) (before : List (Candidate ℚ)) :
    ExtTreeMap String ℚ × List (Candidate ℚ) :=
  before.foldl (unrotatedStep input) (startBook input, [])

/-- A new position finds room behind others while all slots are kept. -/
def Fits (input : SparseAllocationInput ℚ) (before : List (Candidate ℚ))
    (candidate : Candidate ℚ) : Prop :=
  BookWithin (capsOf input)
    ((unrotatedState input before).1.insert candidate.asset candidate.desired)

/-- A new position finds room behind others without the slots that the refused ones close. -/
def FitsWithoutSlots (input : SparseAllocationInput ℚ) (before : List (Candidate ℚ))
    (candidate : Candidate ℚ) : Prop :=
  StaysWithinWithout (capsOf input)
    ((unrotatedState input before).1.insert candidate.asset candidate.desired)
    (closedSlots input (unrotatedState input before).1 (unrotatedState input before).2)

/-- No new position is admitted behind a refused one unless it is admitted with all slots kept. -/
def NoInversion (input : SparseAllocationInput ℚ) (admitted kept : ExtTreeMap String ℚ) : Prop :=
  ∀ refused ∈ openings input, ∀ later ∈ openings input,
    compareCandidates refused later = .lt →
      valueAt admitted refused.asset ≠ refused.desired →
        valueAt admitted later.asset = later.desired →
          valueAt kept later.asset = later.desired

instance (input : SparseAllocationInput ℚ) (admitted kept : ExtTreeMap String ℚ) :
    Decidable (NoInversion input admitted kept) :=
  inferInstanceAs (Decidable (∀ refused ∈ openings input, ∀ later ∈ openings input,
    compareCandidates refused later = .lt → valueAt admitted refused.asset ≠ refused.desired →
      valueAt admitted later.asset = later.desired → valueAt kept later.asset = later.desired))

section

variable {input : SparseAllocationInput ℚ}

theorem transitionClass_le (current desired : ℚ) : transitionClass current desired ≤ 3 := by
  unfold transitionClass
  split
  · omega
  · split
    · omega
    · split
      · omega
      · omega

variable {candidate : Candidate ℚ} {asset : String} {candidates before after : List (Candidate ℚ)}

theorem opening_spec (h : candidate ∈ openings input) :
    candidate ∈ ranked input ∧ candidate.transition = 3 ∧
      valueAt input.filledPositions candidate.asset = (0 : ℚ) ∧ candidate.desired ≠ 0 := by
  obtain ⟨hadds, hnew⟩ := List.mem_filter.mp h
  have hranked := List.mem_of_mem_filter hadds
  obtain ⟨-, hcandidate⟩ := candidateAt_of_mem_ranked hranked
  have htransition := (desired_of_candidateAt hcandidate).1
  have hclass : classAt input candidate.asset = 3 := by
    have hmost := transitionClass_le (valueAt input.filledPositions candidate.asset)
      (desiredAt input candidate.asset)
    unfold classAt at htransition ⊢
    simp only [Bool.not_eq_true', decide_eq_false_iff_not] at hnew
    omega
  have hheld : valueAt input.filledPositions candidate.asset = (0 : ℚ) := by
    by_contra hne
    unfold classAt transitionClass at hclass
    have hnonzero := (isZero_eq_false_iff_ne _).mpr hne
    rw [hnonzero] at hclass
    split at hclass
    · omega
    · split at hclass
      · omega
      · simp at hclass
  refine ⟨hranked, htransition.trans hclass, hheld, ?_⟩
  unfold candidateAt at hcandidate
  split at hcandidate
  · cases hcandidate
  · rename_i hdiffers
    obtain ⟨floor, -, hcandidate⟩ := Option.bind_eq_some_iff.mp hcandidate
    split at hcandidate
    · cases hcandidate
    · rw [Option.some.injEq] at hcandidate
      have hdesired := congrArg Candidate.desired hcandidate
      unfold classAt at hclass
      unfold stagedDesired at hdesired
      rw [hclass, if_neg (by simp)] at hdesired
      rw [← hdesired]
      rw [hheld] at hdiffers
      exact hdiffers

theorem increases_append_openings : increases input ++ openings input = additions input :=
  filter_append_filter_not
    ((pairwise_ranked.sublist List.filter_sublist).imp fun h hlow => by simp at *; omega)

theorem openings_sublist : (openings input).Sublist (ranked input) :=
  List.filter_sublist.trans List.filter_sublist

theorem valueAt_withoutRoom (hheld : valueAt input.filledPositions asset = (0 : ℚ))
    (book : ExtTreeMap String ℚ) (candidate : Candidate ℚ) :
    valueAt (withoutRoom input book candidate) asset = valueAt book asset := by
  unfold withoutRoom
  split
  · cases hvictim : weakestDisplaceableSlot input book candidate with
    | none => rfl
    | some victim =>
      have hslot := (weakestDisplaceableSlot_eq_some hvictim).1
      rw [Option.elim_some, valueAt_insert, if_neg]
      rintro rfl
      exact (mem_slots.mp hslot).2.1 hheld
  · rfl

theorem valueAt_step (hheld : valueAt input.filledPositions asset = (0 : ℚ))
    (book : ExtTreeMap String ℚ) (hother : candidate.asset ≠ asset) :
    valueAt ((additionLoop input).step book candidate) asset = valueAt book asset := by
  unfold CheckedLoop.step additionLoop
  split
  · rw [valueAt_insert, if_neg hother]
  · exact valueAt_withoutRoom hheld book candidate

theorem valueAt_foldl_step (hheld : valueAt input.filledPositions asset = (0 : ℚ))
    (hothers : ∀ candidate ∈ candidates, candidate.asset ≠ asset) (book : ExtTreeMap String ℚ) :
    valueAt (candidates.foldl (additionLoop input).step book) asset = valueAt book asset := by
  induction candidates generalizing book with
  | nil => rfl
  | cons candidate candidates ih =>
    rw [List.forall_mem_cons] at hothers
    rw [List.foldl_cons, ih hothers.2, valueAt_step hheld book hothers.1]

theorem weakestDisplaceableSlot_congr {book other : ExtTreeMap String ℚ}
    (h : slots input book = slots input other) (candidate : Candidate ℚ) :
    weakestDisplaceableSlot input book candidate =
      weakestDisplaceableSlot input other candidate := by
  cases hfirst : weakestDisplaceableSlot input book candidate with
  | none =>
    cases hsecond : weakestDisplaceableSlot input other candidate with
    | none => rfl
    | some victim =>
      obtain ⟨hslot, -, hlow⟩ := weakestDisplaceableSlot_eq_some hsecond
      have hhigh := weakestDisplaceableSlot_eq_none hfirst victim (h ▸ hslot)
      exact absurd hlow (not_lt.mpr hhigh)
  | some victim =>
    obtain ⟨hslot, hweakest, hlow⟩ := weakestDisplaceableSlot_eq_some hfirst
    cases hsecond : weakestDisplaceableSlot input other candidate with
    | none =>
      have hhigh := weakestDisplaceableSlot_eq_none hsecond victim (h ▸ hslot)
      exact absurd hlow (not_lt.mpr hhigh)
    | some second =>
      obtain ⟨hslot', hweakest', -⟩ := weakestDisplaceableSlot_eq_some hsecond
      apply congrArg some
      apply @slotKey_injective input
      exact le_antisymm (hweakest second (h ▸ hslot')) (hweakest' victim (h ▸ hslot))

theorem slots_insert (hheld : valueAt input.filledPositions asset = (0 : ℚ))
    (book : ExtTreeMap String ℚ) (value : ℚ) :
    slots input (book.insert asset value) = slots input book := by
  ext other
  rw [mem_slots, mem_slots, valueAt_insert]
  by_cases hsame : asset = other
  · subst hsame
    simp [hheld]
  · rw [if_neg hsame]

theorem withoutRoom_insert (hheld : valueAt input.filledPositions asset = (0 : ℚ))
    (book : ExtTreeMap String ℚ) (value : ℚ) (candidate : Candidate ℚ) :
    withoutRoom input (book.insert asset value) candidate =
      (withoutRoom input book candidate).insert asset value := by
  unfold withoutRoom
  rw [weakestDisplaceableSlot_congr (slots_insert hheld book value)]
  split
  · cases hvictim : weakestDisplaceableSlot input book candidate with
    | none => rfl
    | some victim =>
      have hslot := (weakestDisplaceableSlot_eq_some hvictim).1
      have hother : victim ≠ asset := by
        rintro rfl
        exact (mem_slots.mp hslot).2.1 hheld
      rw [Option.elim_some, Option.elim_some]
      apply ExtTreeMap.ext_getElem?
      intro other
      simp only [getElem?_insert_eq]
      by_cases hfirst : victim = other
      · subst hfirst
        simp [Ne.symm hother]
      · simp [hfirst]
  · rfl

theorem foldl_withoutRoom_insert (hheld : valueAt input.filledPositions asset = (0 : ℚ))
    (candidates : List (Candidate ℚ)) (book : ExtTreeMap String ℚ) (value : ℚ) :
    candidates.foldl (withoutRoom input) (book.insert asset value) =
      (candidates.foldl (withoutRoom input) book).insert asset value := by
  induction candidates generalizing book with
  | nil => rfl
  | cons candidate candidates ih =>
    rw [List.foldl_cons, List.foldl_cons, withoutRoom_insert hheld, ih]

theorem unrotatedState_concat (before : List (Candidate ℚ)) (candidate : Candidate ℚ) :
    unrotatedState input (before ++ [candidate]) =
      unrotatedStep input (unrotatedState input before) candidate := by
  unfold unrotatedState
  rw [List.foldl_append, List.foldl_cons, List.foldl_nil]

theorem refused_sublist (before : List (Candidate ℚ)) :
    (unrotatedState input before).2.Sublist before := by
  induction before using List.reverseRecOn with
  | nil => exact List.Sublist.refl []
  | append_singleton before candidate ih =>
    rw [unrotatedState_concat]
    unfold unrotatedStep
    split
    · exact ih.trans (List.sublist_append_left _ _)
    · exact ih.append (List.Sublist.refl _)

theorem not_fits_of_refused (h : candidate ∈ (unrotatedState input before).2) :
    ∃ first rest, before = first ++ candidate :: rest ∧ ¬ Fits input first candidate := by
  induction before using List.reverseRecOn with
  | nil => cases h
  | append_singleton before last ih =>
    rw [unrotatedState_concat] at h
    have hearlier (hmem : candidate ∈ (unrotatedState input before).2) : ∃ first rest,
        before ++ [last] = first ++ candidate :: rest ∧ ¬ Fits input first candidate := by
      obtain ⟨first, rest, rfl, hrefused⟩ := ih hmem
      exact ⟨first, rest ++ [last], by simp, hrefused⟩
    unfold unrotatedStep at h
    split at h
    · exact hearlier h
    · rename_i hroom
      rcases List.mem_append.mp h with hmem | hmem
      · exact hearlier hmem
      · rw [List.mem_singleton] at hmem
        subst hmem
        exact ⟨before, [], rfl, hroom⟩

/-- The closed slots decide for none of some new positions. -/
def DecidesAlike (input : SparseAllocationInput ℚ) (before : List (Candidate ℚ)) : Prop :=
  ∀ first candidate rest, before = first ++ candidate :: rest →
    (Fits input first candidate ↔ FitsWithoutSlots input first candidate)

def RotatedBook (input : SparseAllocationInput ℚ) (before : List (Candidate ℚ)) : Prop :=
  before.foldl (additionLoop input).step (startBook input) =
    (unrotatedState input before).2.foldl (withoutRoom input) (unrotatedState input before).1

theorem RotatedBook.passes_iff (h : Validated input) (hbook : RotatedBook input before)
    (hbefore : before.Sublist (ranked input)) (hcandidate : candidate ∈ openings input) :
    BookWithin (capsOf input) ((before.foldl (additionLoop input).step (startBook input)).insert
        candidate.asset candidate.desired) ↔ FitsWithoutSlots input before candidate := by
  obtain ⟨hranked, -, hheld, -⟩ := opening_spec hcandidate
  have hassets : AssetsWithin (capsOf input).asset
      ((before.foldl (additionLoop input).step (startBook input)).insert candidate.asset
        candidate.desired) := by
    apply AssetsWithin.insert
    · exact assetsWithin_foldl h (assetsWithin_foldl h (assetsWithin_reducedTargets h))
    · exact abs_desired_le h (candidateAt_of_mem_ranked hranked).2
  have hcloses := foldl_withoutRoom (pairwise_thresholdsOf ((@refused_sublist input before).trans hbefore))
    ((unrotatedState input before).1.insert candidate.asset candidate.desired)
  rw [foldl_withoutRoom_insert hheld, ← hbook] at hcloses
  unfold closedSlots at hcloses
  rw [slots_insert hheld] at hcloses
  unfold FitsWithoutSlots StaysWithinWithout closedSlots
  rw [← hcloses.gross, ← hcloses.net]
  exact ⟨fun h => ⟨h.gross, h.net⟩,
    fun ⟨hgross, hnet⟩ => ⟨assetsWithin_iff.mp hassets, hgross, hnet⟩⟩

theorem rotatedBook_of_decidesAlike (h : Validated input)
    (hsplit : openings input = before ++ after) (halike : DecidesAlike input before) :
    RotatedBook input before := by
  induction before using List.reverseRecOn generalizing after with
  | nil => rfl
  | append_singleton before candidate ih =>
    rw [List.append_assoc, List.singleton_append] at hsplit
    have hmem : candidate ∈ openings input := by
      rw [hsplit]
      simp
    have hheld := (opening_spec hmem).2.2.1
    have hsublist : before.Sublist (ranked input) := by
      refine List.Sublist.trans ?_ openings_sublist
      rw [hsplit]
      exact List.sublist_append_left _ _
    have hbook := ih hsplit fun first other rest heq =>
      halike first other (rest ++ [candidate]) (by simp [heq])
    have hpasses := (hbook.passes_iff h hsublist hmem).trans
      (halike before candidate [] rfl).symm
    unfold RotatedBook at hbook ⊢
    rw [List.foldl_append, List.foldl_cons, List.foldl_nil, unrotatedState_concat]
    unfold unrotatedStep
    by_cases hfits : Fits input before candidate
    · rw [step_of_within (hpasses.mpr hfits), hbook]
      unfold Fits at hfits
      rw [if_pos hfits, foldl_withoutRoom_insert hheld]
    · rw [step_of_not_within (mt hpasses.mp hfits), hbook]
      unfold Fits at hfits
      rw [if_neg hfits, List.foldl_append, List.foldl_cons, List.foldl_nil]

theorem others_of_split (hsplit : openings input = before ++ candidate :: after) :
    (∀ other ∈ before, other.asset ≠ candidate.asset) ∧
      ∀ other ∈ after, other.asset ≠ candidate.asset := by
  have hnodup := List.Nodup.sublist (openings_sublist.map (·.asset)) (@nodup_ranked input)
  rw [hsplit, List.map_append, List.map_cons, List.nodup_append] at hnodup
  obtain ⟨-, hrest, hdisjoint⟩ := hnodup
  refine ⟨fun other hmem hsame => ?_, fun other hmem hsame => ?_⟩
  · exact hdisjoint _ (List.mem_map_of_mem hmem) _ List.mem_cons_self hsame
  · rw [List.nodup_cons] at hrest
    exact hrest.1 (hsame ▸ List.mem_map_of_mem hmem)

theorem valueAt_startBook (h : candidate ∈ openings input) :
    valueAt (startBook input) candidate.asset = 0 := by
  obtain ⟨hranked, hnew, hheld, -⟩ := opening_spec h
  obtain ⟨hasset, hcandidate⟩ := candidateAt_of_mem_ranked hranked
  unfold startBook
  rw [valueAt_foldl_step hheld]
  · unfold valueAt
    rw [getElem?_reducedTargets, if_pos hasset, Option.getD_some]
    unfold reducedAt
    rw [hcandidate, Option.filter_some, if_neg (by simp [hnew]), Option.elim_none, hheld]
  · intro other hmem hsame
    obtain ⟨hadds, hlow⟩ := List.mem_filter.mp hmem
    have hother := (candidateAt_of_mem_ranked (List.mem_of_mem_filter hadds)).2
    rw [hsame, hcandidate, Option.some.injEq] at hother
    rw [← hother, hnew] at hlow
    simp at hlow

theorem admitted_iff (hsplit : openings input = before ++ candidate :: after) :
    valueAt ((openings input).foldl (additionLoop input).step (startBook input)) candidate.asset =
        candidate.desired ↔
      BookWithin (capsOf input) ((before.foldl (additionLoop input).step (startBook input)).insert
        candidate.asset candidate.desired) := by
  have hmem : candidate ∈ openings input := by
    rw [hsplit]
    simp
  obtain ⟨-, -, hheld, hdesired⟩ := opening_spec hmem
  obtain ⟨hbefore, hafter⟩ := others_of_split hsplit
  rw [hsplit, List.foldl_append, List.foldl_cons, valueAt_foldl_step hheld hafter]
  by_cases hpasses : BookWithin (capsOf input)
      ((before.foldl (additionLoop input).step (startBook input)).insert candidate.asset
        candidate.desired)
  · rw [step_of_within hpasses, valueAt_insert, if_pos rfl]
    simp [hpasses]
  · rw [step_of_not_within hpasses]
    have hzero := valueAt_withoutRoom hheld
      (before.foldl (additionLoop input).step (startBook input)) candidate
    rw [valueAt_foldl_step hheld hbefore, valueAt_startBook hmem] at hzero
    constructor
    · intro hsame
      exact absurd (hsame.symm.trans hzero) hdesired
    · intro hroom
      exact absurd hroom hpasses

theorem valueAt_unrotatedStep {state : ExtTreeMap String ℚ × List (Candidate ℚ)}
    (hother : candidate.asset ≠ asset) :
    valueAt (unrotatedStep input state candidate).1 asset = valueAt state.1 asset := by
  unfold unrotatedStep
  split
  · rw [valueAt_insert, if_neg hother]
  · rfl

theorem valueAt_foldl_unrotatedStep (hothers : ∀ candidate ∈ candidates, candidate.asset ≠ asset)
    (state : ExtTreeMap String ℚ × List (Candidate ℚ)) :
    valueAt (candidates.foldl (unrotatedStep input) state).1 asset = valueAt state.1 asset := by
  induction candidates generalizing state with
  | nil => rfl
  | cons candidate candidates ih =>
    rw [List.forall_mem_cons] at hothers
    rw [List.foldl_cons, ih hothers.2, valueAt_unrotatedStep hothers.1]

theorem kept_iff (hsplit : openings input = before ++ candidate :: after) :
    valueAt (unrotatedState input (openings input)).1 candidate.asset = candidate.desired ↔
      Fits input before candidate := by
  have hmem : candidate ∈ openings input := by
    rw [hsplit]
    simp
  have hdesired := (opening_spec hmem).2.2.2
  obtain ⟨hbefore, hafter⟩ := others_of_split hsplit
  have hstate : unrotatedState input (openings input) =
      after.foldl (unrotatedStep input)
        (unrotatedStep input (unrotatedState input before) candidate) := by
    unfold unrotatedState
    rw [hsplit, List.foldl_append, List.foldl_cons]
  rw [hstate, valueAt_foldl_unrotatedStep hafter]
  unfold unrotatedStep Fits
  split
  · rename_i hfits
    exact ⟨fun _ => hfits, fun _ => by rw [valueAt_insert, if_pos rfl]⟩
  · rename_i hfails
    have hzero : valueAt (unrotatedState input before).1 candidate.asset = 0 := by
      unfold unrotatedState
      rw [valueAt_foldl_unrotatedStep hbefore]
      exact valueAt_startBook hmem
    constructor
    · intro hsame
      exact absurd (hsame.symm.trans hzero) hdesired
    · intro hfits
      exact absurd hfits hfails

theorem allocateSparsePortfolio_eq_openings (h : Validated input) : ∃ retained,
    allocateSparsePortfolio input =
      .ok ⟨(openings input).foldl (additionLoop input).step (startBook input), retained⟩ := by
  obtain ⟨retained, hallocation⟩ := allocateSparsePortfolio_eq h
  refine ⟨retained, ?_⟩
  rw [hallocation, ← increases_append_openings, List.foldl_append]
  rfl

theorem admitUnrotated_eq (book : ExtTreeMap String ℚ) (candidate : Candidate ℚ) :
    admitUnrotated (capsOf input) book candidate =
      .ok (if BookWithin (capsOf input) (book.insert candidate.asset candidate.desired) ∨
        candidate.transition ≤ 1 then book.insert candidate.asset candidate.desired else book) := by
  unfold admitUnrotated
  dsimp only
  rw [withinCaps_eq, ok_bind]
  by_cases hroom : BookWithin (capsOf input) (book.insert candidate.asset candidate.desired)
  · simp [hroom, pure, Except.pure]
  · by_cases hlow : candidate.transition ≤ 1
    · simp [hroom, hlow, pure, Except.pure]
    · simp [hroom, hlow, pure, Except.pure]

theorem foldlM_openings (hadds : ∀ candidate ∈ candidates, ¬ candidate.transition ≤ 1)
    (state : ExtTreeMap String ℚ × List (Candidate ℚ)) :
    candidates.foldlM (admitUnrotated (capsOf input)) state.1 =
      .ok (candidates.foldl (unrotatedStep input) state).1 := by
  induction candidates generalizing state with
  | nil => rfl
  | cons candidate candidates ih =>
    rw [List.forall_mem_cons] at hadds
    have hround : (unrotatedStep input state candidate).1 =
        if BookWithin (capsOf input) (state.1.insert candidate.asset candidate.desired) ∨
          candidate.transition ≤ 1 then state.1.insert candidate.asset candidate.desired
        else state.1 := by
      unfold unrotatedStep
      simp only [hadds.1, or_false]
      split
      · rfl
      · rfl
    rw [List.foldlM_cons, admitUnrotated_eq, ok_bind, ← hround, ih hadds.2, List.foldl_cons]

theorem allocateUnrotated_eq (h : Validated input) :
    allocateUnrotated input = .ok (unrotatedState input (openings input)).1 := by
  obtain ⟨retained, hranked⟩ := rankedCandidates_eq h
  have hreduce : (reductions input).foldlM (admitUnrotated (capsOf input)) (initialTargets input) =
      .ok (reducedTargets input) := by
    rw [← foldl_reductions]
    apply foldlM_eq_foldl
    intro candidate hmem book
    have hlow : candidate.transition ≤ 1 := by simpa using (List.mem_filter.mp hmem).2
    rw [admitUnrotated_eq, if_pos (.inr hlow)]
  have hincrease : (increases input).foldlM (admitUnrotated (capsOf input))
      (reducedTargets input) = .ok (startBook input) := by
    apply foldlM_eq_foldl
    intro candidate hmem book
    obtain ⟨hadds, hlow⟩ := List.mem_filter.mp hmem
    have hhigh : ¬ candidate.transition ≤ 1 := by simpa using (List.mem_filter.mp hadds).2
    rw [admitUnrotated_eq]
    simp only [hhigh, or_false]
    split
    · rename_i hroom
      rw [step_of_within hroom]
    · rename_i hroom
      rw [step_of_not_within hroom]
      unfold withoutRoom
      rw [if_neg]
      intro hnew
      simp [hnew] at hlow
  have hopen : (openings input).foldlM (admitUnrotated (capsOf input)) (startBook input) =
      .ok (unrotatedState input (openings input)).1 :=
    @foldlM_openings _ (openings input) (fun candidate hmem => by
      rw [(opening_spec hmem).2.1]
      omega) (startBook input, [])
  unfold allocateUnrotated
  rw [(validate_eq_ok_iff input).mpr h, ok_bind, allocationCaps_eq, ok_bind, hranked, ok_bind,
    ← reductions_append_additions, ← increases_append_openings]
  simp only [List.foldlM_append]
  rw [hreduce, ok_bind, hincrease, ok_bind, hopen]

theorem asset_eq_of_compareCandidates {left right : Candidate ℚ}
    (h : compareCandidates left right = .eq) : left.asset = right.asset := by
  unfold compareCandidates at h
  simp only [Ordering.then_eq_eq, compare_eq_iff_eq] at h
  exact h.2.2.2.2

theorem compareCandidates_of_split (hsplit : openings input = before ++ candidate :: after)
    {earlier : Candidate ℚ} (hmem : earlier ∈ before) :
    compareCandidates earlier candidate = .lt := by
  have hsorted := (@pairwise_compare_ranked input).sublist openings_sublist
  rw [hsplit, List.pairwise_append] at hsorted
  have hle := hsorted.2.2 earlier hmem candidate List.mem_cons_self
  cases hcompare : compareCandidates earlier candidate with
  | lt => rfl
  | eq => exact absurd (asset_eq_of_compareCandidates hcompare) ((others_of_split hsplit).1 _ hmem)
  | gt => exact absurd hcompare hle

theorem noInversion_of_decidesAlike (h : Validated input)
    (halike : DecidesAlike input (openings input)) :
    NoInversion input ((openings input).foldl (additionLoop input).step (startBook input))
      (unrotatedState input (openings input)).1 := by
  intro refused _ later hlater _ _ hadmitted
  obtain ⟨before, after, hsplit⟩ := List.append_of_mem hlater
  have hsublist : before.Sublist (ranked input) := by
    refine List.Sublist.trans ?_ openings_sublist
    rw [hsplit]
    exact List.sublist_append_left _ _
  have hbook := rotatedBook_of_decidesAlike h hsplit fun first candidate rest heq =>
    halike first candidate (rest ++ later :: after) (by rw [hsplit, heq]; simp)
  rw [kept_iff hsplit, halike before later after hsplit, ← hbook.passes_iff h hsublist hlater,
    ← admitted_iff hsplit]
  exact hadmitted

/-- Where the first new position for which the closed slots decide is one that fits only without
them, there is an inversion. -/
theorem inversion_of_freed (h : Validated input) {later : Candidate ℚ}
    (hsplit : openings input = before ++ later :: after) (halike : DecidesAlike input before)
    (hfreed : FitsWithoutSlots input before later) (hfull : ¬ Fits input before later) :
    ¬ NoInversion input ((openings input).foldl (additionLoop input).step (startBook input))
      (unrotatedState input (openings input)).1 := by
  intro hnone
  have hlater : later ∈ openings input := by
    rw [hsplit]
    simp
  have hsublist : before.Sublist (ranked input) := by
    refine List.Sublist.trans ?_ openings_sublist
    rw [hsplit]
    exact List.sublist_append_left _ _
  have hbook := rotatedBook_of_decidesAlike h hsplit halike
  have hadmitted := (admitted_iff hsplit).mpr ((hbook.passes_iff h hsublist hlater).mpr hfreed)
  -- Some new position in front has been refused, or no slot would be closed.
  have hrefused : (unrotatedState input before).2 ≠ [] := by
    intro hnothing
    apply hfull
    have hroom := (hbook.passes_iff h hsublist hlater).mpr hfreed
    unfold RotatedBook at hbook
    rw [hbook, hnothing] at hroom
    exact hroom
  obtain ⟨refused, hmem⟩ := List.exists_mem_of_ne_nil _ hrefused
  obtain ⟨first, rest, heq, hroomless⟩ := not_fits_of_refused hmem
  subst heq
  have hinner : openings input = first ++ refused :: (rest ++ later :: after) := by
    rw [hsplit]
    simp
  have hfirst : first.Sublist (ranked input) :=
    (List.sublist_append_left _ _).trans hsublist
  have hopening : refused ∈ openings input := by
    rw [hinner]
    simp
  have hearlier := rotatedBook_of_decidesAlike h hinner fun front candidate back heq =>
    halike front candidate (back ++ refused :: rest) (by rw [heq]; simp)
  have hrefused := mt (admitted_iff hinner).mp
    (mt (hearlier.passes_iff h hfirst hopening).mp
      (mt (halike first refused rest rfl).mpr hroomless))
  have hkept := hnone refused hopening later hlater (compareCandidates_of_split hsplit (by simp))
    hrefused hadmitted
  exact hfull ((kept_iff hsplit).mp hkept)

/-- **Rotation and the rank order.**  Nothing is inverted where every new position fits with all
slots kept exactly when it fits without the slots of the refused; something is where the first new
position for which this fails fits only without them. -/
theorem rotation_inversion (input : SparseAllocationInput ℚ) (h : validate input = .ok ()) :
    ∃ allocation kept, allocateSparsePortfolio input = .ok allocation ∧
      allocateUnrotated input = .ok kept ∧
      (DecidesAlike input (openings input) → NoInversion input allocation.admittedTargets kept) ∧
      ∀ before later after, openings input = before ++ later :: after →
        DecidesAlike input before → FitsWithoutSlots input before later →
          ¬ Fits input before later → ¬ NoInversion input allocation.admittedTargets kept := by
  rw [validate_eq_ok_iff] at h
  obtain ⟨retained, hallocation⟩ := allocateSparsePortfolio_eq_openings h
  refine ⟨_, _, hallocation, allocateUnrotated_eq h, noInversion_of_decidesAlike h, ?_⟩
  intro before later after hsplit
  exact inversion_of_freed h hsplit

end

/-- One weak slot, and two stronger new positions for which there is only room once. -/
def rotationInput : SparseAllocationInput ℚ where
  rawTargets := ExtTreeMap.ofList [("BTC", 60), ("ETH", 60), ("SOL", 60)] compare
  convictions := ExtTreeMap.ofList [("BTC", 2 / 10), ("ETH", 8 / 10), ("SOL", 7 / 10)] compare
  agreementWeights := ∅
  executionFloors := ExtTreeMap.ofList [("BTC", ⟨1, 1, 10, 11⟩), ("ETH", ⟨1, 1, 10, 11⟩),
    ("SOL", ⟨1, 1, 10, 11⟩)] compare
  filledPositions := ExtTreeMap.ofList [("BTC", 60)] compare
  currentEquity := 100
  curveLeverage := 8
  globalRiskScale := 1 / 10
  maxSingleAssetEquityPct := 65 / 100
  maxNetEquityPct := 65 / 100
  rankHysteresis := 2 / 100

theorem rotation_inversion_weakSlot : ∃ allocation kept,
    allocateSparsePortfolio rotationInput = .ok allocation ∧
      allocateUnrotated rotationInput = .ok kept ∧
      (DecidesAlike rotationInput (openings rotationInput) →
        NoInversion rotationInput allocation.admittedTargets kept) ∧
      ∀ before later after, openings rotationInput = before ++ later :: after →
        DecidesAlike rotationInput before → FitsWithoutSlots rotationInput before later →
          ¬ Fits rotationInput before later →
            ¬ NoInversion rotationInput allocation.admittedTargets kept :=
  rotation_inversion rotationInput (by decide +kernel)

/-- The stronger new position is refused and closes the weak slot; the weaker one takes its room. -/
theorem weaker_takes_freed_room :
    ¬ ∀ input : SparseAllocationInput ℚ, validate input = .ok () →
      ∀ allocation kept, allocateSparsePortfolio input = .ok allocation →
        allocateUnrotated input = .ok kept →
          NoInversion input allocation.admittedTargets kept := by
  intro h
  have hinverts : ((allocateSparsePortfolio rotationInput).toOption.bind fun allocation =>
      (allocateUnrotated rotationInput).toOption.map fun kept =>
        decide (NoInversion rotationInput allocation.admittedTargets kept)) = some false := by
    decide +kernel
  obtain ⟨allocation, hallocation, hinverts⟩ := Option.bind_eq_some_iff.mp hinverts
  obtain ⟨kept, hkept, hinverts⟩ := Option.map_eq_some_iff.mp hinverts
  exact of_decide_eq_false hinverts (h rotationInput (by decide +kernel) allocation kept
    (eq_ok_of_toOption hallocation) (eq_ok_of_toOption hkept))

end CopyTrade.Analysis
