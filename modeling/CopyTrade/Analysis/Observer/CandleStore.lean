import CopyTrade.Analysis.Observer.CandleDelivery

/-!
# The store of candles

For every asset and interval the store holds at most 500 candles with increasing open times, whose
identities are those on record (`StoreSound`).  Whatever is not accepted leaves the candles as they
are (`candle_store_sound`).
-/

namespace CopyTrade.Analysis

open Foundation Model
open Std (ExtTreeMap)

section

variable {D : Type} [Decimal D]

def heldCandles (engine : TechnicalEngine D) (asset : String) (interval : CandleInterval) :
    List (ClosedCandle D) :=
  (engine.assetCandles asset).intervals interval

/-- The candles of the store are in order, at most 500 and on record. -/
structure StoreSound (engine : TechnicalEngine D) : Prop where
  increasing : ∀ asset interval, (heldCandles engine asset interval).Pairwise
    fun a b => a.openTimeMs < b.openTimeMs
  bounded : ∀ asset interval, (heldCandles engine asset interval).length ≤ 500
  identities : ∀ asset identity, identity ∈ (engine.assetCandles asset).accepted ↔
    ∃ candle ∈ heldCandles engine asset identity.interval, candle.identity = identity
  stored : ∀ asset interval, ∀ candle ∈ heldCandles engine asset interval,
    candle.isValid = true ∧ candle.asset = asset ∧ candle.interval = interval

def candleStep (engine : TechnicalEngine D) (candle : ClosedCandle D) : TechnicalEngine D :=
  (engine.offerClosedCandle candle).2

theorem storeSound_empty : StoreSound (⟨∅⟩ : TechnicalEngine D) := by
  have hnone : ∀ asset, (⟨∅⟩ : TechnicalEngine D).assetCandles asset = AssetCandles.empty := by
    intro asset
    unfold TechnicalEngine.assetCandles
    rw [ExtTreeMap.getElem?_empty, Option.getD_none]
  constructor
  all_goals
    intro asset
    simp [heldCandles, hnone, AssetCandles.empty]

variable {engine : TechnicalEngine D} {candle : ClosedCandle D}

omit [Decimal D] in
theorem assetCandles_insert_of_ne {asset other : String} (hne : asset ≠ other)
    (candles : AssetCandles D) :
    ({ engine with assets := engine.assets.insert other candles } :
      TechnicalEngine D).assetCandles asset = engine.assetCandles asset := by
  unfold TechnicalEngine.assetCandles
  rw [getElem?_insert_eq, if_neg hne.symm]

omit [Decimal D] in
theorem assetCandles_withEntry (asset other : String) :
    (engine.withEntry other).assetCandles asset = engine.assetCandles asset := by
  unfold TechnicalEngine.withEntry
  by_cases h : asset = other
  · rw [h, assetCandles_insert]
  · exact assetCandles_insert_of_ne h _

theorem StoreSound.eq_of_openTimeMs (h : StoreSound engine) {asset : String}
    {interval : CandleInterval} {a b : ClosedCandle D} (ha : a ∈ heldCandles engine asset interval)
    (hb : b ∈ heldCandles engine asset interval) (htime : a.openTimeMs = b.openTimeMs) : a = b := by
  have hnodup : ((heldCandles engine asset interval).map ClosedCandle.openTimeMs).Nodup :=
    List.pairwise_map.mpr ((h.increasing asset interval).imp fun hlt => hlt.ne)
  exact List.inj_on_of_nodup_map hnodup ha hb htime

theorem StoreSound.accept_held (h : StoreSound engine) (hvalid : candle.isValid = true)
    {held : ClosedCandle D} (hheld : held ∈ heldCandles engine candle.asset candle.interval)
    (hidentity : held.identity = candle.identity) :
    engine.acceptClosedCandle candle =
      if held.same candle then .ok (engine, .duplicate)
      else .error (.conflictingCandle held candle) := by
  have hrecord : candle.identity ∈ (engine.assetCandles candle.asset).accepted :=
    (h.identities candle.asset candle.identity).mpr ⟨held, hheld, hidentity⟩
  have hopen : held.openTimeMs = candle.openTimeMs := congrArg CandleIdentity.openTimeMs hidentity
  have hclose : held.closeTimeMs = candle.closeTimeMs :=
    congrArg CandleIdentity.closeTimeMs hidentity
  unfold TechnicalEngine.acceptClosedCandle
  rw [hvalid]
  rw [if_neg (by simp), if_pos (List.contains_iff_mem.mpr hrecord)]
  unfold acceptKnownCandle
  cases hfound : ((engine.assetCandles candle.asset).intervals candle.interval).find? fun accepted =>
      accepted.openTimeMs == candle.openTimeMs && accepted.closeTimeMs == candle.closeTimeMs with
  | none =>
    have hnone := List.find?_eq_none.mp hfound held hheld
    simp [hopen, hclose] at hnone
  | some found =>
    have htimes := List.find?_some hfound
    rw [Bool.and_eq_true, beq_iff_eq] at htimes
    rw [h.eq_of_openTimeMs (List.mem_of_find?_eq_some hfound) hheld (htimes.1.trans hopen.symm)]

theorem StoreSound.accept_not_held (h : StoreSound engine) (hvalid : candle.isValid = true)
    (hnew : ∀ held ∈ heldCandles engine candle.asset candle.interval,
      held.identity ≠ candle.identity) :
    engine.acceptClosedCandle candle =
      acceptNewCandle engine (engine.assetCandles candle.asset) candle := by
  have hrecord : candle.identity ∉ (engine.assetCandles candle.asset).accepted := by
    intro hmem
    obtain ⟨held, hheld, hidentity⟩ := (h.identities candle.asset candle.identity).mp hmem
    exact hnew held hheld hidentity
  unfold TechnicalEngine.acceptClosedCandle
  rw [hvalid]
  rw [if_neg (by simp), if_neg (mt List.contains_iff_mem.mp hrecord)]

def extended (engine : TechnicalEngine D) (candle : ClosedCandle D) : List (ClosedCandle D) :=
  heldCandles engine candle.asset candle.interval ++ [candle]

def storeWith (engine : TechnicalEngine D) (candle : ClosedCandle D) : TechnicalEngine D :=
  { engine with assets := engine.assets.insert candle.asset {
      intervals := Function.update (engine.assetCandles candle.asset).intervals candle.interval
        (expireCandles (extended engine candle) (engine.assetCandles candle.asset).accepted).1
      accepted := candle.identity ::
        (expireCandles (extended engine candle) (engine.assetCandles candle.asset).accepted).2 } }

omit [Decimal D] in
theorem acceptNewCandle_latest
    (hsorted : (extended engine candle).Pairwise fun a b => a.openTimeMs < b.openTimeMs) :
    acceptNewCandle engine (engine.assetCandles candle.asset) candle =
      .ok (storeWith engine candle, .accepted) := by
  unfold acceptNewCandle
  refine if_neg ?_
  unfold extended heldCandles at hsorted
  rcases List.eq_nil_or_concat ((engine.assetCandles candle.asset).intervals candle.interval) with
    hnil | ⟨front, last, hfront⟩
  · rw [hnil]
    simp
  · rw [hfront, List.concat_eq_append, List.getLast?_concat, Option.any_some, decide_eq_true_eq,
      not_le]
    rw [hfront, List.concat_eq_append] at hsorted
    exact (List.pairwise_append.mp hsorted).2.2 last (by simp) candle (by simp)

theorem StoreSound.acceptNewCandle_cases (h : StoreSound engine) :
    acceptNewCandle engine (engine.assetCandles candle.asset) candle = .error .nonMonotonicCandle ∨
      ((extended engine candle).Pairwise (fun a b => a.openTimeMs < b.openTimeMs) ∧
        acceptNewCandle engine (engine.assetCandles candle.asset) candle =
          .ok (storeWith engine candle, .accepted)) := by
  by_cases hlate : (((engine.assetCandles candle.asset).intervals candle.interval).getLast?.any
      fun last => candle.openTimeMs ≤ last.openTimeMs) = true
  · exact .inl (if_pos hlate)
  suffices hsorted : (extended engine candle).Pairwise fun a b => a.openTimeMs < b.openTimeMs from
    .inr ⟨hsorted, acceptNewCandle_latest hsorted⟩
  have hincreasing := h.increasing candle.asset candle.interval
  unfold extended
  unfold heldCandles at hincreasing ⊢
  rcases List.eq_nil_or_concat ((engine.assetCandles candle.asset).intervals candle.interval) with
    hnil | ⟨front, last, hfront⟩
  · rw [hnil]
    exact List.pairwise_singleton _ _
  · rw [List.concat_eq_append] at hfront
    rw [hfront] at hlate hincreasing ⊢
    rw [List.getLast?_concat, Option.any_some, decide_eq_true_eq, not_le] at hlate
    rw [List.pairwise_append]
    refine ⟨hincreasing, List.pairwise_singleton _ _, ?_⟩
    intro earlier hearlier newest hnewest
    rw [List.mem_singleton.mp hnewest]
    rcases List.mem_append.mp hearlier with hmem | hmem
    · have hbefore := (List.pairwise_append.mp hincreasing).2.2 earlier hmem last (by simp)
      omega
    · rw [List.mem_singleton.mp hmem]
      exact hlate

omit [Decimal D] in
theorem heldCandles_storeWith (asset : String) (interval : CandleInterval) :
    heldCandles (storeWith engine candle) asset interval =
      if asset = candle.asset ∧ interval = candle.interval then (extended engine candle).rtake 500
      else heldCandles engine asset interval := by
  unfold heldCandles storeWith
  by_cases hasset : asset = candle.asset
  · rw [hasset, assetCandles_insert]
    dsimp only
    rw [expireCandles_candles]
    by_cases hinterval : interval = candle.interval
    · rw [hinterval, Function.update_self, if_pos ⟨rfl, rfl⟩]
    · rw [Function.update_of_ne hinterval, if_neg fun hboth => hinterval hboth.2]
  · rw [assetCandles_insert_of_ne hasset, if_neg fun hboth => hasset hboth.1]

theorem StoreSound.identities_storeWith (h : StoreSound engine)
    (hsorted : (extended engine candle).Pairwise fun a b => a.openTimeMs < b.openTimeMs)
    (identity : CandleIdentity) :
    identity ∈ ((storeWith engine candle).assetCandles candle.asset).accepted ↔
      ∃ held ∈ heldCandles (storeWith engine candle) candle.asset identity.interval,
        held.identity = identity := by
  have hmem : identity ∈ ((storeWith engine candle).assetCandles candle.asset).accepted ↔
      identity = candle.identity ∨
        ((∃ held ∈ heldCandles engine candle.asset identity.interval, held.identity = identity) ∧
          ∀ dropped ∈ (extended engine candle).take ((extended engine candle).length - 500),
            identity ≠ dropped.identity) := by
    unfold storeWith
    rw [assetCandles_insert, List.mem_cons, mem_expireCandles_identities, h.identities]
  have hstored : ∀ held ∈ extended engine candle, held.interval = candle.interval := by
    intro held hheld
    rcases List.mem_append.mp hheld with hold | hnew
    · exact (h.stored candle.asset candle.interval held hold).2.2
    · rw [List.mem_singleton.mp hnew]
  rw [hmem, heldCandles_storeWith]
  by_cases hinterval : identity.interval = candle.interval
  · rw [if_pos ⟨rfl, hinterval⟩, hinterval]
    have hsplit := List.take_append_drop ((extended engine candle).length - 500)
      (extended engine candle)
    have hnewest : candle ∈ (extended engine candle).rtake 500 := by
      unfold extended
      rw [rtake_snoc]
      exact List.mem_append_right _ (List.mem_singleton_self candle)
    constructor
    · rintro (rfl | ⟨⟨held, hheld, rfl⟩, hkept⟩)
      · exact ⟨candle, hnewest, rfl⟩
      · refine ⟨held, ?_, rfl⟩
        have hextended : held ∈ extended engine candle := List.mem_append_left _ hheld
        rw [← hsplit] at hextended
        rcases List.mem_append.mp hextended with hdropped | hheld
        · exact absurd rfl (hkept held hdropped)
        · exact hheld
    · rintro ⟨held, hheld, rfl⟩
      rcases List.mem_append.mp (mem_of_mem_rtake hheld) with hold | hnew
      · refine .inr ⟨⟨held, hold, rfl⟩, ?_⟩
        intro dropped hdropped hsame
        -- what is dropped stands before what is held
        rw [← hsplit] at hsorted
        have hbefore := (List.pairwise_append.mp hsorted).2.2 dropped hdropped held hheld
        have hopen := congrArg CandleIdentity.openTimeMs hsame
        unfold ClosedCandle.identity at hopen
        dsimp only at hopen
        omega
      · rw [List.mem_singleton.mp hnew]
        exact .inl rfl
  · rw [if_neg fun hboth => hinterval hboth.2]
    constructor
    · rintro (rfl | ⟨hheld, -⟩)
      · exact absurd rfl hinterval
      · exact hheld
    · intro hheld
      refine .inr ⟨hheld, ?_⟩
      rintro dropped hdropped rfl
      exact hinterval (hstored dropped (List.mem_of_mem_take hdropped))

theorem StoreSound.afterAccepting (h : StoreSound engine) (hvalid : candle.isValid = true)
    (hsorted : (extended engine candle).Pairwise fun a b => a.openTimeMs < b.openTimeMs) :
    StoreSound (storeWith engine candle) := by
  refine ⟨?_, ?_, ?_, ?_⟩
  · intro asset interval
    rw [heldCandles_storeWith]
    split
    · exact hsorted.sublist (List.drop_sublist _ _)
    · exact h.increasing asset interval
  · intro asset interval
    rw [heldCandles_storeWith]
    split
    · unfold List.rtake
      rw [List.length_drop]
      omega
    · exact h.bounded asset interval
  · intro asset identity
    by_cases hasset : asset = candle.asset
    · rw [hasset]
      exact h.identities_storeWith hsorted identity
    · rw [heldCandles_storeWith, if_neg fun hboth => hasset hboth.1, ← h.identities]
      unfold CopyTrade.Analysis.storeWith
      rw [assetCandles_insert_of_ne hasset]
  · intro asset interval held hheld
    rw [heldCandles_storeWith] at hheld
    split at hheld
    · rename_i hboth
      rcases List.mem_append.mp (mem_of_mem_rtake hheld) with hold | hnew
      · rw [hboth.1, hboth.2]
        exact h.stored candle.asset candle.interval held hold
      · rw [List.mem_singleton.mp hnew]
        exact ⟨hvalid, hboth.1.symm, hboth.2.symm⟩
    · exact h.stored asset interval held hheld

theorem offer_of_invalid (engine : TechnicalEngine D) (hvalid : candle.isValid = false) :
    engine.offerClosedCandle candle = (.error .invalidCandle, engine) := by
  have hrefused : engine.acceptClosedCandle candle = .error .invalidCandle := by
    unfold TechnicalEngine.acceptClosedCandle
    rw [hvalid]
    rfl
  unfold TechnicalEngine.offerClosedCandle
  rw [hrefused, hvalid]
  rfl

/-- **What a call does.**  An invalid candle is refused; a candle whose identity is held is a
duplicate or a conflict; a new one is refused where it is not the latest, and accepted otherwise. -/
theorem StoreSound.offer_cases (h : StoreSound engine) (candle : ClosedCandle D) :
    (candle.isValid = false ∧ engine.offerClosedCandle candle = (.error .invalidCandle, engine)) ∨
    (candle.isValid = true ∧ ∃ held ∈ heldCandles engine candle.asset candle.interval,
      held.identity = candle.identity ∧
      engine.offerClosedCandle candle =
        if held.same candle then (.ok .duplicate, engine)
        else (.error (.conflictingCandle held candle), engine.withEntry candle.asset)) ∨
    (candle.isValid = true ∧ (∀ held ∈ heldCandles engine candle.asset candle.interval,
        held.identity ≠ candle.identity) ∧
      (engine.offerClosedCandle candle =
          (.error .nonMonotonicCandle, engine.withEntry candle.asset) ∨
        ((extended engine candle).Pairwise (fun a b => a.openTimeMs < b.openTimeMs) ∧
          engine.offerClosedCandle candle = (.ok .accepted, storeWith engine candle)))) := by
  cases hvalid : candle.isValid with
  | false => exact .inl ⟨rfl, offer_of_invalid engine hvalid⟩
  | true =>
    right
    unfold TechnicalEngine.offerClosedCandle
    by_cases hheld : ∃ held ∈ heldCandles engine candle.asset candle.interval,
        held.identity = candle.identity
    · obtain ⟨held, hmem, hidentity⟩ := hheld
      refine .inl ⟨rfl, held, hmem, hidentity, ?_⟩
      rw [h.accept_held hvalid hmem hidentity, hvalid]
      cases held.same candle
      all_goals rfl
    · have hnew : ∀ held ∈ heldCandles engine candle.asset candle.interval,
          held.identity ≠ candle.identity := by
        intro held hmem hidentity
        exact hheld ⟨held, hmem, hidentity⟩
      refine .inr ⟨rfl, hnew, ?_⟩
      rw [h.accept_not_held hvalid hnew]
      rcases @StoreSound.acceptNewCandle_cases _ _ _ candle h with hlate | ⟨hsorted, haccepted⟩
      · rw [hlate, hvalid]
        exact .inl rfl
      · rw [haccepted]
        exact .inr ⟨hsorted, rfl⟩

theorem StoreSound.withEntry (h : StoreSound engine) (asset : String) :
    StoreSound (engine.withEntry asset) := by
  have hsame : ∀ other, (engine.withEntry asset).assetCandles other = engine.assetCandles other :=
    fun other => assetCandles_withEntry other asset
  refine ⟨?_, ?_, ?_, ?_⟩
  all_goals
    unfold heldCandles
    simp only [hsame]
  · exact h.increasing
  · exact h.bounded
  · exact h.identities
  · exact h.stored

theorem StoreSound.step (h : StoreSound engine) (candle : ClosedCandle D) :
    StoreSound (candleStep engine candle) := by
  unfold candleStep
  rcases h.offer_cases candle with ⟨-, hcall⟩ | ⟨-, held, -, -, hcall⟩ |
    ⟨hvalid, -, hcall | ⟨hsorted, hcall⟩⟩
  all_goals rw [hcall]
  · exact h
  · split
    · exact h
    · exact h.withEntry candle.asset
  · exact h.withEntry candle.asset
  · exact h.afterAccepting hvalid hsorted

/-- What a call answers about a candle: never the panic, a duplicate for a held candle, and a
conflict for another valid payload under its identity.  Whatever is not accepted leaves the candles
as they are. -/
structure CandleAnswered (engine : TechnicalEngine D) (candle : ClosedCandle D) : Prop where
  noPanic : (engine.offerClosedCandle candle).1 ≠ .error .identityWithoutPayload
  duplicate : candle ∈ heldCandles engine candle.asset candle.interval →
    (engine.offerClosedCandle candle).1 = .ok .duplicate
  conflict : ∀ held ∈ heldCandles engine candle.asset candle.interval,
    held.identity = candle.identity → held.same candle = false →
      (engine.offerClosedCandle candle).1 =
        if candle.isValid then .error (.conflictingCandle held candle) else .error .invalidCandle
  unchanged : (engine.offerClosedCandle candle).1 ≠ .ok .accepted →
    ∀ asset, (candleStep engine candle).assetCandles asset = engine.assetCandles asset

theorem StoreSound.answered (h : StoreSound engine) (candle : ClosedCandle D) :
    CandleAnswered engine candle := by
  have hcases := h.offer_cases candle
  refine ⟨?_, ?_, ?_, ?_⟩
  · intro hpanic
    rcases hcases with ⟨-, hcall⟩ | ⟨-, held, -, -, hcall⟩ | ⟨-, -, hcall | ⟨-, hcall⟩⟩
    all_goals rw [hcall] at hpanic
    · cases hpanic
    · split at hpanic
      all_goals cases hpanic
    · cases hpanic
    · cases hpanic
  · intro hheld
    rcases hcases with ⟨hvalid, -⟩ | ⟨-, held, hmem, hidentity, hcall⟩ | ⟨-, hnew, -⟩
    · rw [(h.stored _ _ candle hheld).1] at hvalid
      cases hvalid
    · have hopen := congrArg CandleIdentity.openTimeMs hidentity
      rw [hcall, h.eq_of_openTimeMs hmem hheld hopen, if_pos (same_refl candle)]
    · exact absurd rfl (hnew candle hheld)
  · intro held hheld hidentity hother
    rcases hcases with ⟨hvalid, hcall⟩ | ⟨hvalid, known, hmem, hknown, hcall⟩ | ⟨-, hnew, -⟩
    · rw [hcall, hvalid]
      rfl
    · have hopen := congrArg CandleIdentity.openTimeMs (hidentity.trans hknown.symm)
      rw [hcall, hvalid, ← h.eq_of_openTimeMs hheld hmem hopen, if_neg (by simp [hother])]
      rfl
    · exact absurd hidentity (hnew held hheld)
  · intro hrefused asset
    unfold candleStep
    rcases hcases with ⟨-, hcall⟩ | ⟨-, held, -, -, hcall⟩ | ⟨-, -, hcall | ⟨-, hcall⟩⟩
    all_goals rw [hcall] at hrefused ⊢
    · split
      · rfl
      · exact assetCandles_withEntry asset candle.asset
    · exact assetCandles_withEntry asset candle.asset
    · exact absurd rfl hrefused

theorem StoreSound.step_latest (h : StoreSound engine) (hvalid : candle.isValid = true)
    (hsorted : (extended engine candle).Pairwise fun a b => a.openTimeMs < b.openTimeMs) :
    candleStep engine candle = storeWith engine candle := by
  have hnew : ∀ held ∈ heldCandles engine candle.asset candle.interval,
      held.identity ≠ candle.identity := by
    intro held hheld hidentity
    have hbefore := (List.pairwise_append.mp hsorted).2.2 held hheld candle (by simp)
    have hopen : held.openTimeMs = candle.openTimeMs :=
      congrArg CandleIdentity.openTimeMs hidentity
    omega
  unfold candleStep TechnicalEngine.offerClosedCandle
  rw [h.accept_not_held hvalid hnew, acceptNewCandle_latest hsorted]

theorem StoreSound.run_series (h : StoreSound engine) {asset : String} {interval : CandleInterval}
    {series : List (ClosedCandle D)}
    (hseries : ∀ candle ∈ series,
      candle.isValid = true ∧ candle.asset = asset ∧ candle.interval = interval)
    (hsorted : (heldCandles engine asset interval ++ series).Pairwise
      fun a b => a.openTimeMs < b.openTimeMs)
    (hlength : (heldCandles engine asset interval ++ series).length ≤ 500) :
    StoreSound (run candleStep engine series) ∧
      ∀ other otherInterval, heldCandles (run candleStep engine series) other otherInterval =
        if other = asset ∧ otherInterval = interval then heldCandles engine asset interval ++ series
        else heldCandles engine other otherInterval := by
  induction series generalizing engine with
  | nil =>
    refine ⟨h, ?_⟩
    intro other otherInterval
    rw [List.append_nil, run_nil]
    split
    · rename_i hboth
      rw [hboth.1, hboth.2]
    · rfl
  | cons candle series ih =>
    rw [List.forall_mem_cons] at hseries
    obtain ⟨⟨hvalid, rfl, rfl⟩, hseries⟩ := hseries
    rw [List.append_cons] at hsorted hlength
    have hfirst : (extended engine candle).Pairwise fun a b => a.openTimeMs < b.openTimeMs :=
      (List.pairwise_append.mp hsorted).1
    have hheld := @heldCandles_storeWith _ engine candle
    have hkept : heldCandles (storeWith engine candle) candle.asset candle.interval =
        heldCandles engine candle.asset candle.interval ++ [candle] := by
      rw [hheld, if_pos ⟨rfl, rfl⟩]
      refine rtake_of_length_le ?_
      rw [List.length_append] at hlength
      exact (Nat.le_add_right _ _).trans hlength
    have hnext := h.step_latest hvalid hfirst
    rw [run_cons, hnext]
    obtain ⟨hsound, hrun⟩ := ih (h.afterAccepting hvalid hfirst) hseries
      (by rwa [hkept]) (by rwa [hkept])
    refine ⟨hsound, ?_⟩
    intro other otherInterval
    rw [hrun, hkept]
    split
    · exact (List.append_cons _ _ _).symm
    · rename_i hother
      rw [hheld, if_neg hother]

/-- **The store of candles is sound.**  After every sequence of calls there are at most 500 candles
with increasing open times, whose identities are those on record; the next call never panics, tells
duplicates from conflicts, and changes no candles where it does not accept. -/
theorem candle_store_sound (calls : List (ClosedCandle D)) :
    ∀ engine ∈ states candleStep (⟨∅⟩ : TechnicalEngine D) calls,
      StoreSound engine ∧ ∀ candle, CandleAnswered engine candle := by
  intro engine hengine
  obtain ⟨calls, -, rfl⟩ := mem_states_iff.mp hengine
  have hsound : StoreSound (run candleStep (⟨∅⟩ : TechnicalEngine D) calls) :=
    run_invariant (fun _ candle h => h.step candle) storeSound_empty calls
  exact ⟨hsound, hsound.answered⟩

end

theorem candle_store_sound_quarter :
    StoreSound (run candleStep (⟨∅⟩ : TechnicalEngine ℚ) [quarterCandle 0]) ∧
      ∀ candle, CandleAnswered (run candleStep ⟨∅⟩ [quarterCandle 0]) candle :=
  candle_store_sound [quarterCandle 0] _ (run_mem_states _ _)

/-- Another payload under a held identity whose highest price is below its lowest is refused as
invalid. -/
theorem invalid_payload_no_conflict :
    ¬ ∀ (calls : List (ClosedCandle ℚ)) (candle held : ClosedCandle ℚ),
      held ∈ heldCandles (run candleStep ⟨∅⟩ calls) candle.asset candle.interval →
        held.identity = candle.identity → held.same candle = false →
          ((run candleStep ⟨∅⟩ calls).offerClosedCandle candle).1 =
            .error (.conflictingCandle held candle) := by
  intro h
  have hconflict := h [quarterCandle 0] { quarterCandle 0 with high := 1 } (quarterCandle 0)
    (by decide +kernel) (by decide +kernel) (by decide +kernel)
  rw [offer_of_invalid _ (by decide +kernel)] at hconflict
  cases hconflict

end CopyTrade.Analysis
