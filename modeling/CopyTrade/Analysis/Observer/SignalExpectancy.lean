import CopyTrade.Analysis.Ledger.PositionAgreement
import CopyTrade.Model.Observer.UnsignedState

/-!
# The expectancy of source signals

What a restore checks of the expectancy of an asset holds after every observation: a mean of
lifetimes is not negative, an estimate without an observation is zero, and an active observation has
a price and begins before the high watermark of the decisions.
-/

namespace CopyTrade.Analysis

open Foundation Model
open Std (ExtTreeMap)

variable {D : Type} [Decimal D]

structure SoundEstimate (estimate : SourceExpectancyEstimate D) : Prop where
  lifetime : 0 ≤ Decimal.toRat estimate.ewmaLifetimeSeconds
  unobserved : estimate.count = 0 → Decimal.isZero estimate.ewmaGrossReturnBps = true ∧
    Decimal.isZero estimate.ewmaLifetimeSeconds = true

/-- The expectancy of an asset, with a bound on the time its active observation has begun. -/
structure SoundExpectancy (highWatermark : ℕ) (state : SourceExpectancyState D) : Prop where
  long : SoundEstimate state.long
  short : SoundEstimate state.short
  active : ∀ active, state.active = some active →
    0 < Decimal.toRat active.entryMidpoint ∧ active.entryTimestamp ≤ highWatermark

def SoundSignals (highWatermark : ℕ) (states : ExtTreeMap String (SourceExpectancyState D)) : Prop :=
  ∀ (asset : String) (state : SourceExpectancyState D), states[asset]? = some state →
    asset.isEmpty = false ∧ SoundExpectancy highWatermark state

variable {state : SourceExpectancyState D}

omit [Decimal D] in
theorem SoundExpectancy.mono [Decimal D] {first second : ℕ} (h : SoundExpectancy first state)
    (hle : first ≤ second) : SoundExpectancy second state :=
  ⟨h.long, h.short, fun active hactive =>
    ⟨(h.active active hactive).1, (h.active active hactive).2.trans hle⟩⟩

theorem SoundExpectancy.estimate {highWatermark : ℕ} (h : SoundExpectancy highWatermark state)
    (direction : SourceSignalDirection) : SoundEstimate (state.estimate direction) := by
  cases direction with
  | long => exact h.long
  | short => exact h.short

section

variable [DecimalSumLaws D] {highWatermark : ℕ}

theorem validateEstimate_of_sound {estimate : SourceExpectancyEstimate D}
    (h : SoundEstimate estimate) : UnsignedObserver.validateEstimate estimate = .ok () := by
  unfold UnsignedObserver.validateEstimate
  refine if_neg ?_
  have hlifetime : Decimal.lt estimate.ewmaLifetimeSeconds Decimal.zero = false := by
    rw [← Bool.not_eq_true, Decimal.lt_iff, DecimalSumLaws.toRat_zero]
    exact not_lt.mpr h.lifetime
  cases hcount : estimate.count == 0 with
  | false => simp [hlifetime]
  | true =>
    obtain ⟨hgross, hzero⟩ := h.unobserved (beq_iff_eq.mp hcount)
    simp [hlifetime, hgross, hzero]

theorem validateSourceState_of_sound {asset : String} {state : SourceExpectancyState D}
    (hnamed : asset.isEmpty = false) (h : SoundExpectancy highWatermark state) :
    UnsignedObserver.validateSourceState highWatermark (asset, state) = .ok () := by
  unfold UnsignedObserver.validateSourceState
  rw [if_neg (by simp [hnamed])]
  refine bind_eq_ok_iff.mpr ⟨(), ?_, if_neg ?_⟩
  · rw [checkAll_eq_ok_iff]
    intro estimate hestimate
    simp only [List.mem_cons, List.not_mem_nil, or_false] at hestimate
    rcases hestimate with rfl | rfl
    · exact validateEstimate_of_sound h.long
    · exact validateEstimate_of_sound h.short
  · cases hactive : state.active with
    | none => simp
    | some active =>
      obtain ⟨hpositive, hbegun⟩ := h.active active hactive
      rw [Option.any_some, Bool.or_eq_true, Decimal.le_iff, DecimalSumLaws.toRat_zero,
        decide_eq_true_eq, not_or]
      exact ⟨not_le.mpr hpositive, not_lt.mpr hbegun⟩

theorem validateSignals_of_sound {states : ExtTreeMap String (SourceExpectancyState D)}
    (h : SoundSignals highWatermark states) :
    checkAll (UnsignedObserver.validateSourceState highWatermark) states.toList = .ok () := by
  rw [checkAll_eq_ok_iff]
  rintro ⟨asset, state⟩ hentry
  obtain ⟨hnamed, hsound⟩ := h asset state (ExtTreeMap.mem_toList_iff_getElem?_eq_some.mp hentry)
  exact validateSourceState_of_sound hnamed hsound

end

variable [DecimalSignLaws D]

theorem averagedWith_nonneg {mean observed averaged : D} (hmean : 0 ≤ Decimal.toRat mean)
    (hobserved : 0 ≤ Decimal.toRat observed) (h : averagedWith mean observed = .ok averaged) :
    0 ≤ Decimal.toRat averaged := by
  have halpha : Decimal.toRat (sourceExpectancyAlpha : D) = 25 / 10 ^ 2 := by
    unfold sourceExpectancyAlpha
    rw [DecimalSignLaws.toRat_new _ _ (by norm_num) (by norm_num), Int.cast_ofNat]
  have hone : Decimal.toRat (Decimal.one : D) = 1 / 10 ^ 0 := by
    unfold Decimal.one
    rw [DecimalSignLaws.toRat_new _ _ (by norm_num) (by norm_num), Int.cast_one]
  unfold averagedWith at h
  obtain ⟨weight, hweight, h⟩ := of_bind h
  have hweight : 0 ≤ Decimal.toRat weight := by
    refine DecimalSignLaws.sub_nonneg _ _ _ ?_ (orArithmetic_eq_ok_iff.mp hweight)
    rw [halpha, hone]
    norm_num
  obtain ⟨retained, hretained, h⟩ := Option.bind_eq_some_iff.mp (orArithmetic_eq_ok_iff.mp h)
  obtain ⟨added, hadded, h⟩ := Option.bind_eq_some_iff.mp h
  refine DecimalSignLaws.add_nonneg _ _ _ ?_ ?_ h
  · exact DecimalSignLaws.mul_nonneg _ _ _ hmean hweight hretained
  · refine DecimalSignLaws.mul_nonneg _ _ _ hobserved ?_ hadded
    rw [halpha]
    norm_num

theorem updateSourceExpectancy_sound {estimate updated : SourceExpectancyEstimate D}
    {grossReturnBps lifetimeSeconds : D} (hsound : SoundEstimate estimate)
    (hlifetime : 0 ≤ Decimal.toRat lifetimeSeconds)
    (h : updateSourceExpectancy estimate grossReturnBps lifetimeSeconds = .ok updated) :
    SoundEstimate updated := by
  unfold updateSourceExpectancy at h
  obtain ⟨gross, -, h⟩ := of_bind h
  obtain ⟨lifetime, haveraged, h⟩ := of_bind h
  obtain ⟨count, hcount, h⟩ := of_bind h
  rw [pure_eq_ok_iff] at h
  subst h
  refine ⟨averagedWith_nonneg hsound.lifetime hlifetime haveraged, ?_⟩
  intro hzero
  obtain ⟨hnext, -⟩ := checkedAddU64_eq_some_iff.mp (orArithmetic_eq_ok_iff.mp hcount)
  dsimp only at hzero
  omega

theorem lifetime_nonneg {elapsed : ℕ} {seconds : D} (helapsed : elapsed ≤ maxU64)
    (h : Decimal.checkedDiv (Decimal.new elapsed 0) (Decimal.new 1000 0) = some seconds) :
    0 ≤ Decimal.toRat seconds := by
  have hbound : |(elapsed : ℤ)| < 2 ^ 96 := by
    rw [abs_of_nonneg (Int.natCast_nonneg elapsed)]
    unfold maxU64 at helapsed
    omega
  refine DecimalSignLaws.div_nonneg _ _ _ ?_ ?_ h
  · rw [DecimalSignLaws.toRat_new _ _ hbound (by norm_num)]
    positivity
  · rw [DecimalSignLaws.toRat_new _ _ (by norm_num) (by norm_num)]
    positivity

variable {highWatermark now : ℕ} {midpoint : D} {state : SourceExpectancyState D}
  {signals : List (String × D)}

theorem endObservation_sound {ended : SourceExpectancyState D} {active : ActiveSourceObservation D}
    (hnow : now ≤ maxU64) (hsound : SoundExpectancy highWatermark state)
    (h : endObservation state active midpoint now = .ok ended) :
    SoundExpectancy highWatermark ended := by
  unfold endObservation at h
  obtain ⟨unsignedReturn, -, h⟩ := of_bind h
  obtain ⟨seconds, hseconds, h⟩ := of_bind h
  obtain ⟨estimate, hestimate, h⟩ := of_bind h
  rw [pure_eq_ok_iff] at h
  subst h
  have hlifetime := lifetime_nonneg ((Nat.sub_le _ _).trans hnow)
    (orArithmetic_eq_ok_iff.mp hseconds)
  have hupdated := updateSourceExpectancy_sound (hsound.estimate active.direction) hlifetime
    hestimate
  cases active.direction with
  | long => exact ⟨hupdated, hsound.short, fun _ hnone => nomatch hnone⟩
  | short => exact ⟨hsound.long, hupdated, fun _ hnone => nomatch hnone⟩

theorem endOtherObservation_sound {ended : SourceExpectancyState D}
    {desired : Option SourceSignalDirection} (hnow : now ≤ maxU64)
    (hsound : SoundExpectancy highWatermark state)
    (h : endOtherObservation state desired midpoint now = .ok ended) :
    SoundExpectancy highWatermark ended := by
  unfold endOtherObservation at h
  split at h
  · cases h
    exact hsound
  · split at h
    · cases h
      exact hsound
    · exact endObservation_sound hnow hsound h

omit [DecimalSignLaws D] in
theorem beginObservation_sound {direction : SourceSignalDirection} (hnow : now ≤ highWatermark)
    (hmidpoint : 0 < Decimal.toRat midpoint) (hsound : SoundExpectancy highWatermark state) :
    SoundExpectancy highWatermark (beginObservation state direction midpoint now) := by
  unfold beginObservation
  split
  · refine ⟨hsound.long, hsound.short, ?_⟩
    rintro active ⟨⟩
    exact ⟨hmidpoint, hnow⟩
  · exact hsound

variable [DecimalSumLaws D]

omit [DecimalSignLaws D] in
theorem soundExpectancy_default (highWatermark : ℕ) :
    SoundExpectancy highWatermark (SourceExpectancyState.default : SourceExpectancyState D) := by
  have hestimate : SoundEstimate (SourceExpectancyEstimate.default : SourceExpectancyEstimate D) :=
    ⟨DecimalSumLaws.toRat_zero.ge, fun _ => ⟨isZero_zero, isZero_zero⟩⟩
  exact ⟨hestimate, hestimate, fun _ hnone => nomatch hnone⟩

/-- **An observation leaves the expectancies sound.** -/
theorem observeSourceSignal_sound {states : ExtTreeMap String (SourceExpectancyState D)}
    {asset : String} {desiredTarget : D}
    {observed : ExtTreeMap String (SourceExpectancyState D) × SourceExpectancyEstimate D}
    (hasset : asset.isEmpty = false) (hnow : now ≤ maxU64) (hreached : now ≤ highWatermark)
    (hsound : SoundSignals highWatermark states)
    (h : observeSourceSignal states asset desiredTarget midpoint now = .ok observed) :
    SoundSignals highWatermark observed.1 := by
  unfold observeSourceSignal at h
  split at h
  · cases h
  rename_i hpositive
  have hmidpoint : 0 < Decimal.toRat midpoint := by
    rw [Decimal.le_iff, DecimalSumLaws.toRat_zero] at hpositive
    exact not_le.mp hpositive
  dsimp only at h
  split at h
  · cases h
    exact hsound
  obtain ⟨ended, hended, h⟩ := of_bind h
  have hstate : SoundExpectancy highWatermark (states[asset]?.getD .default) := by
    cases hget : states[asset]? with
    | none => exact soundExpectancy_default highWatermark
    | some state => exact (hsound asset state hget).2
  have hendedSound := endOtherObservation_sound hnow hstate hended
  have hinsert {next : SourceExpectancyState D} (hnext : SoundExpectancy highWatermark next) :
      SoundSignals highWatermark (states.insert asset next) := by
    intro other state hget
    rw [getElem?_insert_eq] at hget
    split at hget
    · rename_i hsame
      cases hget
      exact ⟨hsame ▸ hasset, hnext⟩
    · exact hsound other state hget
  split at h
  · cases h
    exact hinsert hendedSound
  · cases h
    exact hinsert (beginObservation_sound hreached hmidpoint hendedSound)

theorem observeSignals_loop_sound {mids : ExtTreeMap String D}
    {before after : ExtTreeMap String (SourceExpectancyState D)}
    (hnamed : ∀ signal ∈ signals, signal.1.isEmpty = false) (hnow : now ≤ maxU64)
    (hreached : now ≤ highWatermark) (hsound : SoundSignals highWatermark before)
    (h : signals.foldlM (UnsignedObserver.observeSignal mids now) before = .ok after) :
    SoundSignals highWatermark after := by
  induction signals generalizing before with
  | nil =>
    rw [List.foldlM_nil, pure_eq_ok_iff] at h
    subst h
    exact hsound
  | cons signal signals ih =>
    rw [List.forall_mem_cons] at hnamed
    obtain ⟨middle, hmiddle, h⟩ := foldlM_cons_eq_ok_iff.mp h
    refine ih hnamed.2 ?_ h
    unfold UnsignedObserver.observeSignal at hmiddle
    split at hmiddle
    · cases hmiddle
    · cases hobserved : observeSourceSignal before signal.1 signal.2 _ now with
      | error error =>
        rw [hobserved] at hmiddle
        cases hmiddle
      | ok result =>
        rw [hobserved] at hmiddle
        cases hmiddle
        exact observeSourceSignal_sound hnamed.1 hnow hreached hsound hobserved

theorem observeSignals_sound {S : StrategyTypes} {observer observed : UnsignedObserver D S}
    (hnamed : ∀ signal ∈ signals, signal.1.isEmpty = false)
    (hsound : SoundSignals observer.sourceExpectancyTimeHighWatermark observer.sourceExpectancy)
    (h : observer.observeSignals now signals = .ok observed) :
    SoundSignals observed.sourceExpectancyTimeHighWatermark observed.sourceExpectancy := by
  unfold UnsignedObserver.observeSignals at h
  obtain ⟨expectancyNow, hnow, h⟩ := of_bind h
  obtain ⟨states, hstates, h⟩ := of_bind h
  rw [pure_eq_ok_iff] at h
  subst h
  have hbound := (checkedAddU64_eq_some_iff.mp (orArithmetic_eq_ok_iff.mp hnow)).2
  refine observeSignals_loop_sound hnamed hbound (le_max_right _ _) ?_ hstates
  intro asset state hget
  exact ⟨(hsound asset state hget).1, (hsound asset state hget).2.mono (le_max_left _ _)⟩

end CopyTrade.Analysis
