import CopyTrade.Model.Core.ShadowIoc

/-!
# The limit prices of marketable orders

A plan takes its limit from the level at which the visible depth covers the quantity, and from the
cap on the slippage only where there is no such level.  The cap holds exactly where the depth within
it covers the quantity, or no depth does.
-/

namespace CopyTrade.Analysis

open Foundation Model

variable {D : Type} [Decimal D]

def NoWorse (side : Side) (first second : DepthLevel D) : Prop :=
  withinLimit side second.price first.price = true

variable {side : Side} {snapshot : ShadowMarketSnapshot D} {leading levels : List (DepthLevel D)}
  {quantity visible : D}

theorem noWorse_iff {first second : DepthLevel D} :
    NoWorse side first second ↔
      match side with
      | .buy => Decimal.toRat first.price ≤ Decimal.toRat second.price
      | .sell => Decimal.toRat second.price ≤ Decimal.toRat first.price := by
  unfold NoWorse withinLimit
  cases side with
  | buy => exact Decimal.le_iff
  | sell => exact Decimal.le_iff

theorem NoWorse.trans {first second third : DepthLevel D} (h : NoWorse side first second)
    (h' : NoWorse side second third) : NoWorse side first third := by
  rw [noWorse_iff] at *
  cases side with
  | buy => exact h.trans h'
  | sell => exact h'.trans h

instance {side : Side} : IsTrans (DepthLevel D) (NoWorse side) := ⟨fun _ _ _ => NoWorse.trans⟩

theorem someNeighbours_eq_false_iff {α : Type} {related : α → α → Bool} {levels : List α} :
    someNeighbours related levels = false ↔
      levels.IsChain fun first second => related first second = false := by
  unfold someNeighbours
  induction levels with
  | nil => simp
  | cons first levels ih =>
    cases levels with
    | nil => simp
    | cons second levels =>
      rw [List.tail_cons, List.zip_cons_cons, List.any_cons, Bool.or_eq_false_iff,
        List.isChain_cons_cons, ← ih, List.tail_cons]

theorem validateBook_spec (h : validateBook snapshot = .ok ()) (side : Side) :
    (∀ level ∈ snapshot.executable side, Decimal.toRat (Decimal.zero : D) < Decimal.toRat level.price ∧
      Decimal.toRat (Decimal.zero : D) < Decimal.toRat level.quantity) ∧
      (snapshot.executable side).Pairwise (NoWorse side) := by
  unfold validateBook at h
  split at h
  · cases h
  rename_i hpositive
  split at h
  · cases h
  rename_i hbids
  split at h
  · cases h
  rename_i hasks
  rw [Bool.not_eq_true] at hpositive hbids hasks
  rw [List.any_eq_false] at hpositive
  constructor
  · intro level hlevel
    have hmem : level ∈ snapshot.bids ++ snapshot.asks := by
      rw [List.mem_append]
      cases side with
      | buy => exact .inr hlevel
      | sell => exact .inl hlevel
    have hlevels := hpositive level hmem
    rw [Bool.or_eq_true, not_or, Decimal.le_iff, Decimal.le_iff, not_le, not_le] at hlevels
    exact hlevels
  · rw [← List.isChain_iff_pairwise]
    cases side with
    | buy =>
      refine (someNeighbours_eq_false_iff.mp hasks).imp fun first second hlevels => ?_
      rw [← Bool.not_eq_true, Decimal.le_iff, not_le] at hlevels
      exact noWorse_iff.mpr hlevels.le
    | sell =>
      refine (someNeighbours_eq_false_iff.mp hbids).imp fun first second hlevels => ?_
      rw [← Bool.not_eq_true, Decimal.le_iff, not_le] at hlevels
      exact noWorse_iff.mpr hlevels.le

/-- Leading levels of a book, and what is visible before them, cover a quantity. -/
def CoversFrom (quantity visible : D) (leading : List (DepthLevel D)) : Prop :=
  ∃ depth, (leading.map DepthLevel.quantity).foldlM Decimal.checkedAdd visible = some depth ∧
    Decimal.le quantity depth = true

theorem coversFrom_cons_iff {level : DepthLevel D} :
    CoversFrom quantity visible (level :: leading) ↔
      ∃ next, Decimal.checkedAdd visible level.quantity = some next ∧
        CoversFrom quantity next leading := by
  unfold CoversFrom
  simp only [List.map_cons, List.foldlM_cons, Option.bind_eq_bind, Option.bind_eq_some_iff]
  constructor
  · rintro ⟨depth, ⟨next, hnext, hdepth⟩, hcovers⟩
    exact ⟨next, hnext, depth, hdepth, hcovers⟩
  · rintro ⟨next, hnext, depth, hdepth, hcovers⟩
    exact ⟨depth, ⟨next, hnext, hdepth⟩, hcovers⟩

theorem coversFrom_nil_iff :
    CoversFrom quantity visible [] ↔ Decimal.le quantity visible = true := by
  unfold CoversFrom
  rw [List.map_nil, List.foldlM_nil]
  constructor
  · rintro ⟨depth, hdepth, hcovers⟩
    cases hdepth
    exact hcovers
  · intro hcovers
    exact ⟨visible, rfl, hcovers⟩

theorem orShadowOverflow_eq_ok_iff {α : Type} {operation : String} {result : Option α} {value : α} :
    orShadowOverflow operation result = .ok value ↔ result = some value := by
  cases result <;> simp [orShadowOverflow]

theorem worstRequiredPrice_none (hvisible : Decimal.le quantity visible = false)
    (h : worstRequiredPrice quantity visible levels = .ok none) (hleading : leading <+: levels) :
    ¬ CoversFrom quantity visible leading := by
  induction levels generalizing visible leading with
  | nil =>
    rw [List.prefix_nil.mp hleading, coversFrom_nil_iff, hvisible]
    exact Bool.false_ne_true
  | cons level levels ih =>
    rw [worstRequiredPrice] at h
    obtain ⟨next, hnext, hrest⟩ := of_bind h
    rw [orShadowOverflow_eq_ok_iff] at hnext
    split at hrest
    · cases hrest
    rename_i hshort
    rw [Bool.not_eq_true] at hshort
    cases leading with
    | nil =>
      rw [coversFrom_nil_iff, hvisible]
      exact Bool.false_ne_true
    | cons first leading =>
      obtain ⟨rfl, htail⟩ := List.cons_prefix_cons.mp hleading
      rw [coversFrom_cons_iff]
      rintro ⟨next', hnext', hcovers⟩
      rw [hnext] at hnext'
      cases hnext'
      exact ih hshort hrest htail hcovers

theorem worstRequiredPrice_some {worst : D} (hvisible : Decimal.le quantity visible = false)
    (h : worstRequiredPrice quantity visible levels = .ok (some worst)) :
    ∃ before level, before ++ [level] <+: levels ∧ level.price = worst ∧
      CoversFrom quantity visible (before ++ [level]) ∧
      ∀ leading, leading <+: levels → CoversFrom quantity visible leading → level ∈ leading := by
  induction levels generalizing visible with
  | nil => cases h
  | cons level levels ih =>
    rw [worstRequiredPrice] at h
    obtain ⟨next, hnext, hrest⟩ := of_bind h
    rw [orShadowOverflow_eq_ok_iff] at hnext
    have hnotNil : ¬ CoversFrom quantity visible [] := by
      rw [coversFrom_nil_iff, hvisible]
      exact Bool.false_ne_true
    split at hrest
    · rename_i hcovered
      rw [pure_eq_ok_iff, Option.some.injEq] at hrest
      refine ⟨[], level, List.cons_prefix_cons.mpr ⟨rfl, List.nil_prefix⟩, hrest,
        coversFrom_cons_iff.mpr ⟨next, hnext, coversFrom_nil_iff.mpr hcovered⟩, ?_⟩
      intro leading hleading hcovers
      cases leading with
      | nil => exact absurd hcovers hnotNil
      | cons first leading =>
        obtain ⟨rfl, -⟩ := List.cons_prefix_cons.mp hleading
        exact List.mem_cons_self
    · rename_i hshort
      rw [Bool.not_eq_true] at hshort
      obtain ⟨before, last, hinitial, hworst, hcovers, hfirst⟩ := ih hshort hrest
      refine ⟨level :: before, last, List.cons_prefix_cons.mpr ⟨rfl, hinitial⟩, hworst,
        coversFrom_cons_iff.mpr ⟨next, hnext, hcovers⟩, ?_⟩
      intro leading hleading hcovers
      cases leading with
      | nil => exact absurd hcovers hnotNil
      | cons first leading =>
        obtain ⟨rfl, htail⟩ := List.cons_prefix_cons.mp hleading
        obtain ⟨next', hnext', hcovers⟩ := coversFrom_cons_iff.mp hcovers
        rw [hnext] at hnext'
        cases hnext'
        exact List.mem_cons_of_mem _ (hfirst leading htail hcovers)

/-- A limit is a price and a fraction of it against the side of the order, rounded outward to the
tick. -/
def IsLimit (side : Side) (price fraction tick limit : D) : Prop :=
  ∃ factor raw, adverseFactor side fraction = some factor ∧
    Decimal.checkedMul price factor = some raw ∧ roundPriceOutward raw tick side = .ok limit

/-- A limit is no worse than the cap: the reference price and the maximum slippage, rounded outward
to the tick. -/
def WithinCap (side : Side) (reference maximumSlippage tick limit : D) : Prop :=
  ∃ cap, IsLimit side reference maximumSlippage tick cap ∧ withinLimit side cap limit = true

/-- The limit that a level would give stays within the cap. -/
def WithinCapAt (side : Side) (reference cushion maximumSlippage tick : D) (level : DepthLevel D) :
    Prop :=
  ∀ limit, IsLimit side level.price cushion tick limit →
    WithinCap side reference maximumSlippage tick limit

/-- Where any leading levels of the book cover the quantity, some whose limits stay within the cap
do. -/
def DepthWithinCap (side : Side) (quantity : D) (snapshot : ShadowMarketSnapshot D)
    (reference cushion maximumSlippage tick : D) : Prop :=
  (∃ leading, leading <+: snapshot.executable side ∧ CoversFrom quantity Decimal.zero leading) →
    ∃ leading, leading <+: snapshot.executable side ∧ CoversFrom quantity Decimal.zero leading ∧
      ∀ level ∈ leading, WithinCapAt side reference cushion maximumSlippage tick level

theorem planMarketableIoc_spec {reference cushion maximumSlippage tick : D}
    {plan : MarketableIocPlan D}
    (h : planMarketableIoc side quantity snapshot reference cushion maximumSlippage tick =
      .ok plan) :
    Decimal.le quantity Decimal.zero = false ∧ Decimal.le tick Decimal.zero = false ∧
      validateBook snapshot = .ok () ∧
      worstRequiredPrice quantity Decimal.zero (snapshot.executable side) =
        .ok plan.worstRequiredDepthPrice ∧
      ∃ cap, IsLimit side reference maximumSlippage tick cap ∧
        match plan.worstRequiredDepthPrice with
        | some worst => IsLimit side worst cushion tick plan.limitPrice
        | none => plan.limitPrice = cap := by
  unfold planMarketableIoc at h
  split at h
  · cases h
  rename_i hinputs
  simp only [Bool.or_eq_true, not_or, Bool.not_eq_true] at hinputs
  obtain ⟨⟨⟩, hbook, h⟩ := of_bind h
  obtain ⟨worst, hworst, h⟩ := of_bind h
  obtain ⟨maximumRaw, hmaximum, h⟩ := of_bind h
  obtain ⟨maximumLimit, hcap, h⟩ := of_bind h
  rw [orShadowOverflow_eq_ok_iff, Option.bind_eq_some_iff] at hmaximum
  obtain ⟨maximumFactor, hfactor, hmaximum⟩ := hmaximum
  have hlimit : IsLimit side reference maximumSlippage tick maximumLimit :=
    ⟨maximumFactor, maximumRaw, hfactor, hmaximum, hcap⟩
  obtain ⟨⟨limit, mode⟩, hpriced, h⟩ := of_bind h
  obtain ⟨visible, -, h⟩ := of_bind h
  rw [pure_eq_ok_iff] at h
  subst h
  refine ⟨hinputs.1.1.1.1, hinputs.2, hbook, hworst, maximumLimit, hlimit, ?_⟩
  cases worst with
  | none =>
    rw [pure_eq_ok_iff, Prod.mk.injEq] at hpriced
    exact hpriced.1.symm
  | some worst =>
    obtain ⟨raw, hraw, hpriced⟩ := of_bind hpriced
    obtain ⟨rounded, hrounded, hpriced⟩ := of_bind hpriced
    rw [pure_eq_ok_iff, Prod.mk.injEq] at hpriced
    rw [orShadowOverflow_eq_ok_iff, Option.bind_eq_some_iff] at hraw
    obtain ⟨factor, hfactor, hraw⟩ := hraw
    exact ⟨factor, raw, hfactor, hraw, hpriced.1 ▸ hrounded⟩

section

variable [DecimalOrderLaws D]

theorem toRat_zero_of_orderLaws : Decimal.toRat (Decimal.zero : D) = 0 := by
  have hzero := DecimalSignLaws.toRat_new (D := D) 0 0 (by norm_num) (by norm_num)
  rw [Decimal.zero, hzero]
  norm_num

variable {side : Side}

theorem roundPriceOutward_spec {value tick limit : D}
    (h : roundPriceOutward value tick side = .ok limit) :
    0 < Decimal.toRat value ∧ 0 < Decimal.toRat tick ∧
      ∃ units, Decimal.checkedDiv value tick = some units ∧
        Decimal.checkedMul (roundOutward side units) tick = some limit := by
  unfold roundPriceOutward at h
  split at h
  · cases h
  rename_i hinputs
  rw [Bool.or_eq_true, not_or, Decimal.le_iff, Decimal.le_iff, not_le, not_le,
    toRat_zero_of_orderLaws] at hinputs
  obtain ⟨units, hunits, h⟩ := of_bind h
  rw [orShadowOverflow_eq_ok_iff] at hunits h
  exact ⟨hinputs.1, hinputs.2, units, hunits, h⟩

theorem roundOutward_mono {x y : D} (h : Decimal.toRat x ≤ Decimal.toRat y) :
    Decimal.toRat (roundOutward side x) ≤ Decimal.toRat (roundOutward side y) := by
  cases side with
  | buy =>
    unfold roundOutward
    rw [DecimalOrderLaws.toRat_ceil, DecimalOrderLaws.toRat_ceil]
    exact_mod_cast Int.ceil_mono h
  | sell =>
    unfold roundOutward
    rw [DecimalOrderLaws.toRat_floor, DecimalOrderLaws.toRat_floor]
    exact_mod_cast Int.floor_mono h

theorem roundPriceOutward_mono {x y tick l m : D} (h : Decimal.toRat x ≤ Decimal.toRat y)
    (hl : roundPriceOutward x tick side = .ok l) (hm : roundPriceOutward y tick side = .ok m) :
    Decimal.toRat l ≤ Decimal.toRat m := by
  obtain ⟨-, htick, units, hunits, hl⟩ := roundPriceOutward_spec hl
  obtain ⟨-, -, units', hunits', hm⟩ := roundPriceOutward_spec hm
  have hle := DecimalOrderLaws.div_mono x y tick units units' htick h hunits hunits'
  exact DecimalOrderLaws.mul_mono _ _ tick tick l m
    (mul_le_mul_of_nonneg_right (roundOutward_mono hle) htick.le) hl hm

variable [DecimalZeroLaws D]

theorem factor_nonneg {price factor raw : D} (hprice : 0 < Decimal.toRat price)
    (hraw : Decimal.checkedMul price factor = some raw) (hpositive : 0 < Decimal.toRat raw) :
    0 ≤ Decimal.toRat factor := by
  by_contra hnegative
  obtain ⟨z, hz, hzero⟩ := DecimalZeroLaws.zero_mul factor
  have hle : Decimal.toRat price * Decimal.toRat factor ≤
      Decimal.toRat (Decimal.zero : D) * Decimal.toRat factor := by
    rw [toRat_zero_of_orderLaws, zero_mul]
    exact (mul_neg_of_pos_of_neg hprice (not_le.mp hnegative)).le
  have hbelow := DecimalOrderLaws.mul_mono _ _ factor factor raw z hle hraw hz
  have hzero : Decimal.toRat z = 0 := by simpa [Decimal.isZero] using hzero
  linarith

theorem isLimit_mono {first second : DepthLevel D} {fraction tick l m : D}
    (h : NoWorse side first second) (hsecond : 0 < Decimal.toRat second.price)
    (hl : IsLimit side first.price fraction tick l) (hm : IsLimit side second.price fraction tick m) :
    withinLimit side m l = true := by
  obtain ⟨factor, raw, hfactor, hraw, hl⟩ := hl
  obtain ⟨factor', raw', hfactor', hraw', hm⟩ := hm
  rw [hfactor, Option.some.injEq] at hfactor'
  subst hfactor'
  have hnonneg := factor_nonneg hsecond hraw' (roundPriceOutward_spec hm).1
  rw [noWorse_iff] at h
  cases side with
  | buy =>
    refine Decimal.le_iff.mpr (roundPriceOutward_mono ?_ hl hm)
    exact DecimalOrderLaws.mul_mono _ _ factor factor raw raw'
      (mul_le_mul_of_nonneg_right h hnonneg) hraw hraw'
  | sell =>
    refine Decimal.le_iff.mpr (roundPriceOutward_mono ?_ hm hl)
    exact DecimalOrderLaws.mul_mono _ _ factor factor raw' raw
      (mul_le_mul_of_nonneg_right h hnonneg) hraw' hraw

omit [DecimalOrderLaws D] [DecimalZeroLaws D] in
theorem WithinCap.of_noWorse {reference maximumSlippage tick l m : D}
    (h : WithinCap side reference maximumSlippage tick m) (hl : withinLimit side m l = true) :
    WithinCap side reference maximumSlippage tick l := by
  obtain ⟨cap, hcap, hm⟩ := h
  refine ⟨cap, hcap, ?_⟩
  cases side with
  | buy => exact Decimal.le_iff.mpr ((Decimal.le_iff.mp hl).trans (Decimal.le_iff.mp hm))
  | sell => exact Decimal.le_iff.mpr ((Decimal.le_iff.mp hm).trans (Decimal.le_iff.mp hl))

/-- **The cap of a limit price.**  The limit of a plan is within the cap exactly where the depth
within the cap covers the quantity, or no depth of the book does. -/
theorem limit_within_cap_iff {side : Side} {quantity reference cushion maximumSlippage tick : D}
    {snapshot : ShadowMarketSnapshot D} {plan : MarketableIocPlan D}
    (h : planMarketableIoc side quantity snapshot reference cushion maximumSlippage tick =
      .ok plan) :
    WithinCap side reference maximumSlippage tick plan.limitPrice ↔
      DepthWithinCap side quantity snapshot reference cushion maximumSlippage tick := by
  obtain ⟨hquantity, -, hbook, hworst, cap, hcap, hlimit⟩ := planMarketableIoc_spec h
  obtain ⟨hpositive, hsorted⟩ := validateBook_spec hbook side
  cases hrequired : plan.worstRequiredDepthPrice with
  | none =>
    rw [hrequired] at hworst hlimit
    refine iff_of_true ⟨cap, hcap, ?_⟩ ?_
    · rw [hlimit]
      cases side with
      | buy => exact Decimal.le_iff.mpr le_rfl
      | sell => exact Decimal.le_iff.mpr le_rfl
    · rintro ⟨leading, hleading, hcovers⟩
      exact absurd hcovers (worstRequiredPrice_none hquantity hworst hleading)
  | some worst =>
    rw [hrequired] at hworst hlimit
    obtain ⟨before, level, hinitial, rfl, hcovers, hfirst⟩ :=
      worstRequiredPrice_some hquantity hworst
    constructor
    · intro hwithin _
      refine ⟨before ++ [level], hinitial, hcovers, fun earlier hearlier limit hearlierLimit => ?_⟩
      have hmem : level ∈ snapshot.executable side := hinitial.subset (by simp)
      have hprice := (hpositive level hmem).1
      rw [toRat_zero_of_orderLaws] at hprice
      have hnoWorse : NoWorse side earlier level := by
        have hpairs := hsorted.sublist hinitial.sublist
        rw [List.pairwise_append] at hpairs
        rcases List.mem_append.mp hearlier with hbefore | hlast
        · exact hpairs.2.2 earlier hbefore level (List.mem_singleton.mpr rfl)
        · rw [List.mem_singleton.mp hlast, noWorse_iff]
          cases side with
          | buy => exact le_rfl
          | sell => exact le_rfl
      exact hwithin.of_noWorse (isLimit_mono hnoWorse hprice hearlierLimit hlimit)
    · intro hdepth
      obtain ⟨leading, hleading, hleadingCovers, hwithin⟩ :=
        hdepth ⟨before ++ [level], hinitial, hcovers⟩
      exact hwithin level (hfirst leading hleading hleadingCovers) plan.limitPrice hlimit

end

def sampleAsks (price : ℚ) : ShadowMarketSnapshot ℚ where
  observedAtMono := 0
  midpoint := 100
  bids := [⟨99, 10⟩]
  asks := [⟨100, 1⟩, ⟨price, 10⟩]

/-- Five units can be bought within three percent of the reference price. -/
theorem limit_within_cap_near :
    WithinCap .buy 100 (3 / 100) 1 (102 : ℚ) ↔
      DepthWithinCap .buy 5 (sampleAsks 102) 100 0 (3 / 100) 1 := by
  have hplan : planMarketableIoc .buy 5 (sampleAsks 102) 100 0 (3 / 100) 1 =
      .ok ⟨102, 5, 5, some 102, .completeVisibleDepth⟩ := by
    decide +kernel
  exact limit_within_cap_iff hplan

/-- The depth lies at twice the reference price, and so does the limit. -/
theorem limit_beyond_cap :
    ¬ ∀ (side : Side) (quantity : ℚ) (snapshot : ShadowMarketSnapshot ℚ)
        (reference cushion maximumSlippage tick : ℚ) (plan : MarketableIocPlan ℚ),
      planMarketableIoc side quantity snapshot reference cushion maximumSlippage tick = .ok plan →
        WithinCap side reference maximumSlippage tick plan.limitPrice := by
  intro h
  have hplan : planMarketableIoc .buy 5 (sampleAsks 200) 100 0 (3 / 100) 1 =
      .ok ⟨200, 5, 5, some 200, .completeVisibleDepth⟩ := by
    decide +kernel
  obtain ⟨cap, ⟨factor, raw, hfactor, hraw, hcap⟩, hwithin⟩ := h _ _ _ _ _ _ _ _ hplan
  have hadverse : adverseFactor .buy (3 / 100 : ℚ) = some (103 / 100) := by decide +kernel
  have hproduct : Decimal.checkedMul (100 : ℚ) (103 / 100) = some 103 := by decide +kernel
  have hcapped : roundPriceOutward 103 1 .buy = .ok (103 : ℚ) := by decide +kernel
  rw [hadverse, Option.some.injEq] at hfactor
  subst hfactor
  rw [hproduct, Option.some.injEq] at hraw
  subst hraw
  rw [hcapped, Except.ok.injEq] at hcap
  subst hcap
  revert hwithin
  decide +kernel

end CopyTrade.Analysis
