import CopyTrade.Analysis.Decision.CohortEngine
import CopyTrade.Model.Observer.CohortRecords

/-!
# The compaction of the cohort's records

A version of an asset's target is introduced by the first record of its version.  The compaction
keeps the last material record of an asset and version, so the one that introduced a version is kept
exactly when no material record of that version follows.
-/

namespace CopyTrade.Analysis

open Foundation Model Model.Cohort
open Model.Cohort.CohortRecords Model.Cohort.VeryProfitableCohortEngine

section

variable {D : Type} [Decimal D] {engine next : VeryProfitableCohortEngine D}
  {input : CohortSignalInput D} {record : CohortIndicatorRecord D} {records : CohortRecords D}

/-- The record introduces its version: it is neither a refresh nor a runtime rejection. -/
def Introduces (record : CohortIndicatorRecord D) : Prop :=
  ∀ reason ∈ record.reasons, reason ≠ .immaterialRefresh ∧ reason ∉ runtimeRejections

def SameVersion (earlier later : CohortIndicatorRecord D) : Prop :=
  earlier.asset = later.asset ∧ earlier.targetVersion = later.targetVersion

/-- The compaction has every execution root and every record that introduced a version, and as many
roots as the summary counts. -/
structure KeepsDecisions (records : CohortRecords D) : Prop where
  roots : ∀ record ∈ records.records, record.independentExecutionRoot = true →
    record ∈ records.compactCohortDecisionRecords
  introductions : ∀ record ∈ records.records, Introduces record →
    record ∈ records.compactCohortDecisionRecords
  count : (records.compactCohortDecisionRecords.filter (·.independentExecutionRoot)).length =
    records.compactCohortDecisionSummary.independentExecutionRootCount

/-- No material record of an asset and version follows the material one that introduced it. -/
def NothingMaterialFollows (records : CohortRecords D) : Prop :=
  records.records.Pairwise fun earlier later => Introduces earlier → isMaterial earlier = true →
    SameVersion earlier later → isMaterial later = false

/-- The target of every asset is the one it was or a later version. -/
def TargetsGrow (engine next : VeryProfitableCohortEngine D) : Prop :=
  ∀ (asset : String) (target : MaterialTargetState D), engine.targets[asset]? = some target →
    ∃ later : MaterialTargetState D, next.targets[asset]? = some later ∧
      target.version ≤ later.version

omit [Decimal D] in
theorem TargetsGrow.of_eq (h : next.targets = engine.targets) : TargetsGrow engine next := by
  intro asset target htarget
  rw [h]
  exact ⟨target, htarget, le_rfl⟩

theorem settle_ok {previous : Option (MaterialTargetState D)} {proposed : MaterialTargetState D}
    {tolerance : D} {settlement : Cohort.Settlement D}
    (h : settle previous proposed tolerance = .ok settlement) :
    (settlement.stored = true ∧
        ∀ target, previous = some target → target.version < settlement.target.version) ∨
      previous = some settlement.target ∧ settlement.stored = false ∧
        settlement.independentExecutionRoot = false := by
  cases previous with
  | none =>
    cases h
    exact .inl ⟨rfl, fun _ hnone => by cases hnone⟩
  | some target =>
    obtain ⟨changed, -, h⟩ := of_bind h
    cases changed with
    | false =>
      cases h
      exact .inr ⟨rfl, rfl, rfl⟩
    | true =>
      obtain ⟨version, hversion, h⟩ := of_bind h
      cases h
      refine .inl ⟨rfl, ?_⟩
      rintro _ ⟨⟩
      cases hchecked : checkedAddU64 target.version 1 with
      | none =>
        rw [hchecked] at hversion
        cases hversion
      | some following =>
        rw [hchecked] at hversion
        cases hversion
        have hsum := (checkedAddU64_eq_some_iff.mp hchecked).1
        simp only
        omega

theorem targetsGrow_putTarget {previous : Option (MaterialTargetState D)}
    {proposed : MaterialTargetState D} {tolerance : D} {settlement : Cohort.Settlement D}
    {asset : String}
    (hprevious : engine.targets[asset]? = previous)
    (h : settle previous proposed tolerance = .ok settlement)
    (hnext : next.targets = engine.targets) :
    TargetsGrow engine (putTarget asset settlement next) ∧
      (putTarget asset settlement next).targets[asset]? = some settlement.target := by
  unfold putTarget
  rcases settle_ok h with ⟨hstored, hversion⟩ | ⟨hkept, hstored, -⟩
  · rw [hstored, if_pos rfl]
    refine ⟨fun other target htarget => ?_, by simp⟩
    simp only [getElem?_insert_eq, hnext]
    split
    · rename_i heq
      subst heq
      exact ⟨_, rfl, (hversion target (hprevious.symm.trans htarget)).le⟩
    · exact ⟨target, htarget, le_rfl⟩
  · rw [hstored, if_neg (by simp)]
    refine ⟨.of_eq hnext, ?_⟩
    rw [hnext, hprevious, hkept]

/-- The reasons of an assessment are its own. -/
theorem assess_reasons {observation : Observation D} {previous : Option (MaterialTargetState D)}
    {assessment : Assessment D} (h : assess input observation previous = .ok assessment)
    {reason : CohortDecisionReason} (hreason : reason ∈ assessment.reasons) :
    reason ≠ .immaterialRefresh ∧ reason ∉ runtimeRejections := by
  unfold assess at h
  simp only [bind_eq_ok_iff, pure_eq_ok_iff] at h
  obtain ⟨_, -, _, -, _, -, _, -, _, -, _, -, _, -, rfl⟩ := h
  split at hreason
  · rw [Finset.mem_singleton] at hreason
    subst hreason
    split <;> decide
  · unfold refusals at hreason
    simp only [List.mem_toFinset, List.mem_map, List.mem_filter, List.mem_cons, List.not_mem_nil,
      or_false] at hreason
    obtain ⟨entry, ⟨hentry, -⟩, rfl⟩ := hreason
    rcases hentry with rfl | rfl | rfl | rfl | rfl | rfl | rfl | rfl | rfl | rfl | rfl | rfl | rfl |
      rfl | rfl <;> simp [runtimeRejections]

/-- **What an evaluation does.**  The targets grow, and a record is the record of the target that is
then stored: it introduces it, or it is a refresh of it and no root. -/
theorem evaluate_grows {result : Except CohortError (CohortIndicatorRecord D)}
    (h : evaluate input engine = (result, next)) : TargetsGrow engine next ∧
      ∀ record, result = .ok record → record.asset = input.aggregate.asset ∧
        (∃ target, next.targets[record.asset]? = some target ∧
          record.targetVersion = target.version) ∧
        (Introduces record ∧ (∀ target, engine.targets[record.asset]? = some target →
            target.version < record.targetVersion) ∨
          ¬ Introduces record ∧ record.independentExecutionRoot = false) := by
  cases hlook : look input engine with
  | error e =>
    obtain ⟨after, hrun, hunchanged⟩ := evaluate_of_refused hlook
    obtain ⟨rfl, rfl⟩ := Prod.mk.inj (hrun.symm.trans h)
    exact ⟨.of_eq hunchanged.targets_eq, fun _ hok => by cases hok⟩
  | ok observation =>
    rw [evaluate_of_seen hlook] at h
    cases hverdict : verdict input observation engine.targets[input.aggregate.asset]? with
    | error e =>
      rw [conclude_undecided hverdict] at h
      obtain ⟨rfl, rfl⟩ := Prod.mk.inj h
      exact ⟨.of_eq rfl, fun _ hok => by cases hok⟩
    | ok decided =>
      rw [conclude_decided hverdict] at h
      obtain ⟨rfl, rfl⟩ := Prod.mk.inj h
      obtain ⟨assessment, hassess, hrest⟩ := of_bind hverdict
      obtain ⟨settlement, hsettle, hdecided⟩ := of_bind hrest
      rw [pure_eq_ok_iff] at hdecided
      subst hdecided
      have hsame : (recorded input.aggregate.asset observation.current engine).targets =
          engine.targets := rfl
      obtain ⟨hgrow, htarget⟩ := targetsGrow_putTarget (Eq.refl _) hsettle hsame
      refine ⟨hgrow, fun record hok => ?_⟩
      cases hcombined : Decimal.checkedAdd settlement.target.sourceTarget input.technicalTarget with
      | none =>
        rw [hcombined] at hok
        cases hok
      | some combined =>
        rw [hcombined] at hok
        obtain rfl := Except.ok.inj hok
        refine ⟨rfl, ⟨_, htarget, rfl⟩, ?_⟩
        rcases settle_ok hsettle with ⟨hstored, hversion⟩ | ⟨-, hstored, hroot⟩
        · refine .inl ⟨fun reason hreason => ?_, hversion⟩
          simp only [indicatorRecord, hstored, if_true] at hreason
          exact assess_reasons hassess hreason
        · refine .inr ⟨fun hintroduces => ?_, hroot⟩
          refine (hintroduces .immaterialRefresh ?_).1 rfl
          simp [indicatorRecord, hstored]

/-- Every version of an asset is introduced at most once, by the first of its records. -/
structure RecordsSound (records : CohortRecords D) : Prop where
  ordered : records.records.Pairwise fun earlier later =>
    Introduces earlier → SameVersion earlier later → ¬ Introduces later
  reached : ∀ record ∈ records.records, Introduces record → ∃ target : MaterialTargetState D,
    records.engine.targets[record.asset]? = some target ∧ record.targetVersion ≤ target.version
  roots : ∀ record ∈ records.records, record.independentExecutionRoot = true → Introduces record

omit [Decimal D] in
/-- Later targets, and at most one record more that keeps the order. -/
theorem RecordsSound.push (h : RecordsSound records) (hgrow : TargetsGrow records.engine next)
    {pushed : Option (CohortIndicatorRecord D)}
    (hpushed : ∀ record ∈ pushed,
      (Introduces record ∧ (∃ target : MaterialTargetState D,
          next.targets[record.asset]? = some target ∧ record.targetVersion ≤ target.version) ∧
        ∀ target : MaterialTargetState D, records.engine.targets[record.asset]? = some target →
          target.version < record.targetVersion) ∨
      ¬ Introduces record ∧ record.independentExecutionRoot = false) :
    RecordsSound ({ records with engine := next }.push pushed) := by
  have hreached : ∀ record ∈ records.records, Introduces record →
      ∃ target : MaterialTargetState D, next.targets[record.asset]? = some target ∧
        record.targetVersion ≤ target.version := by
    intro record hrecord hintroduces
    obtain ⟨target, htarget, hle⟩ := h.reached record hrecord hintroduces
    obtain ⟨later, hlater, hgrown⟩ := hgrow _ target htarget
    exact ⟨later, hlater, hle.trans hgrown⟩
  cases pushed with
  | none =>
    unfold CohortRecords.push
    simp only [Option.toList_none, List.append_nil]
    exact ⟨h.ordered, hreached, h.roots⟩
  | some pushed =>
    have hnew := hpushed pushed rfl
    refine ⟨?_, ?_, ?_⟩
    · refine List.pairwise_append.mpr ⟨h.ordered, List.pairwise_singleton _ _, ?_⟩
      intro earlier hearlier later hlater hintroduces hsame hagain
      obtain rfl := List.mem_singleton.mp hlater
      rcases hnew with ⟨-, -, hversion⟩ | ⟨hnot, -⟩
      · obtain ⟨target, htarget, hle⟩ := h.reached earlier hearlier hintroduces
        have hlt := hversion target (hsame.1 ▸ htarget)
        have heq := hsame.2
        omega
      · exact hnot hagain
    · intro record hrecord hintroduces
      rcases List.mem_append.mp hrecord with hrecord | hrecord
      · exact hreached record hrecord hintroduces
      · obtain rfl := List.mem_singleton.mp hrecord
        exact hnew.elim (fun hnew => hnew.2.1) fun hnew => absurd hintroduces hnew.1
    · intro record hrecord hroot
      rcases List.mem_append.mp hrecord with hrecord | hrecord
      · exact h.roots record hrecord hroot
      · obtain rfl := List.mem_singleton.mp hrecord
        rcases hnew with ⟨hintroduces, -⟩ | ⟨-, hno⟩
        · exact hintroduces
        · rw [hno] at hroot
          cases hroot

theorem rejection_not_introduces {rejection : CohortRejection D}
    (h : rejectionRecord engine rejection = some record) :
    ¬ Introduces record ∧ record.independentExecutionRoot = false := by
  unfold rejectionRecord at h
  simp only [Option.bind_eq_bind, Option.bind_eq_some_iff] at h
  obtain ⟨_, -, _, -, ⟨⟩⟩ := h
  refine ⟨fun hintroduces => ?_, rfl⟩
  exact (hintroduces _ (Finset.mem_singleton_self _)).2 rejection.reason.2

theorem RecordsSound.step (h : RecordsSound records) (call : Call D) :
    RecordsSound (records.step call) := by
  cases call with
  | reject rejection =>
    exact h.push (.of_eq rfl) fun record hrecord => .inr (rejection_not_introduces hrecord)
  | signal layer input =>
    unfold CohortRecords.step
    dsimp only
    cases hrun : evaluate input records.engine with
    | mk result next =>
      obtain ⟨hgrow, hrecord⟩ := evaluate_grows hrun
      split
      · rename_i record after heq
        cases heq
        refine h.push hgrow fun listed hlisted => ?_
        have hsame : record = listed := by
          split at hlisted
          · exact Option.some.inj hlisted
          · cases hlisted
        subst hsame
        obtain ⟨-, ⟨target, htarget, hversion⟩, hkind⟩ := hrecord record rfl
        exact hkind.imp_left fun hnew => ⟨hnew.1, ⟨target, htarget, hversion.le⟩, hnew.2⟩
      · rename_i after heq
        cases heq
        have hpushed : RecordsSound ({ records with engine := next }.push none) := by
          refine h.push hgrow ?_
          intro record hnone
          cases hnone
        simpa [CohortRecords.push] using hpushed
      · rename_i error after _ heq
        cases heq
        exact h.push hgrow fun record hrejected => .inr (rejection_not_introduces hrejected)

theorem recordsSound_run (engine : VeryProfitableCohortEngine D) (calls : List (Call D)) :
    RecordsSound (run CohortRecords.step ⟨engine, []⟩ calls) := by
  induction calls using List.reverseRecOn with
  | nil => exact ⟨List.Pairwise.nil, by simp, by simp⟩
  | append_singleton calls call ih =>
    rw [run_append]
    exact ih.step call

theorem mem_compact_iff : record ∈ records.compactCohortDecisionRecords ↔
    ∃ before after, records.records = before ++ record :: after ∧
      ∀ later ∈ after, compactionKey later ≠ compactionKey record := by
  unfold compactCohortDecisionRecords
  rw [(List.mergeSort_perm _ _).mem_iff]
  exact mem_lastByKey_iff

/-- A record that introduced a version stays when no material record of it follows. -/
theorem RecordsSound.kept (h : RecordsSound records) (hfollows : NothingMaterialFollows records)
    (hrecord : record ∈ records.records) (hintroduces : Introduces record) :
    record ∈ records.compactCohortDecisionRecords := by
  obtain ⟨before, after, hsplit⟩ := List.append_of_mem hrecord
  refine mem_compact_iff.mpr ⟨before, after, hsplit, fun later hlater hkey => ?_⟩
  have hpair : [record, later].Sublist records.records := by
    rw [hsplit]
    exact (List.cons_sublist_cons.mpr (List.singleton_sublist.mpr hlater)).trans
      (List.sublist_append_right _ _)
  have hordered := List.pairwise_iff_forall_sublist.mp h.ordered hpair hintroduces
  have hnone := List.pairwise_iff_forall_sublist.mp hfollows hpair hintroduces
  unfold compactionKey at hkey
  split at hkey
  · rename_i hlaterMaterial
    split at hkey
    · rename_i hmaterial
      obtain ⟨hasset, hversion⟩ := CompactionKey.material.inj hkey
      rw [hnone hmaterial ⟨hasset.symm, hversion.symm⟩] at hlaterMaterial
      cases hlaterMaterial
    · cases hkey
  · rename_i hlaterClass
    split at hkey
    · cases hkey
    · rename_i hclass
      obtain ⟨hasset, hreasons⟩ := CompactionKey.rejectionClass.inj hkey
      have hzero {other : CohortIndicatorRecord D} (hother : ¬ isMaterial other = true) :
          other.targetVersion = 0 := by
        simp only [isMaterial, Bool.or_eq_true, decide_eq_true_eq, not_or] at hother
        omega
      refine hordered ⟨hasset.symm, (hzero hclass).trans (hzero hlaterClass).symm⟩ ?_
      unfold Introduces
      rw [hreasons]
      exact hintroduces

/-- Where a material record of its version follows, the record that introduced it is gone. -/
theorem RecordsSound.nothing_follows (h : RecordsSound records) (hkeeps : KeepsDecisions records) :
    NothingMaterialFollows records := by
  refine List.pairwise_iff_forall_sublist.mpr fun {earlier later} hpair hintroduces hmaterial hsame => ?_
  by_contra hlater
  rw [Bool.not_eq_false] at hlater
  have hkey : compactionKey later = compactionKey earlier := by
    unfold compactionKey
    rw [if_pos hlater, if_pos hmaterial, hsame.1, hsame.2]
  have hearlier : earlier ∈ records.records := hpair.subset List.mem_cons_self
  obtain ⟨before, after, hsplit, hlast⟩ :=
    mem_compact_iff.mp (hkeeps.introductions earlier hearlier hintroduces)
  have hne : later ≠ earlier := by
    rintro rfl
    exact List.pairwise_iff_forall_sublist.mp h.ordered hpair hintroduces ⟨rfl, rfl⟩ hintroduces
  have hnotin : later ∉ earlier :: after := by
    intro hmem
    rcases List.mem_cons.mp hmem with heq | hmem
    · exact hne heq
    · exact hlast later hmem hkey
  -- the later record stands before the last one of its key, and so does the earlier one
  have hbefore : earlier ∈ before := by
    rw [hsplit] at hpair
    obtain ⟨front, back, hsplit', hfront, hback⟩ := List.sublist_append_iff.mp hpair
    rcases List.eq_nil_or_concat back with rfl | ⟨rest, last, rfl⟩
    · rw [List.append_nil] at hsplit'
      exact hfront.subset (hsplit' ▸ List.mem_cons_self)
    · have hlast : last = later := by
        have := congrArg List.getLast? hsplit'
        simpa using this.symm
      exact absurd (hback.subset (by simp [hlast])) hnotin
  have htwice : [earlier, earlier].Sublist records.records := by
    rw [hsplit]
    exact (List.singleton_sublist.mpr hbefore).append
      (List.singleton_sublist.mpr List.mem_cons_self)
  exact List.pairwise_iff_forall_sublist.mp h.ordered htwice hintroduces ⟨rfl, rfl⟩ hintroduces

/-- The roots of the compaction are those of the records when none is lost. -/
theorem RecordsSound.root_count (h : RecordsSound records)
    (hroots : ∀ record ∈ records.records, record.independentExecutionRoot = true →
      record ∈ records.compactCohortDecisionRecords) :
    (records.compactCohortDecisionRecords.filter (·.independentExecutionRoot)).length =
      records.compactCohortDecisionSummary.independentExecutionRootCount := by
  have hcompact : (records.compactCohortDecisionRecords.filter
      (·.independentExecutionRoot)).Nodup := by
    apply List.Nodup.filter
    exact (List.mergeSort_perm _ _).nodup_iff.mpr (nodup_lastByKey _)
  have hrecords : (records.records.filter (·.independentExecutionRoot)).Nodup := by
    refine List.pairwise_iff_forall_sublist.mpr fun {earlier later} hpair heq => ?_
    have hroot := (List.mem_filter.mp (hpair.subset List.mem_cons_self))
    have hintroduces := h.roots earlier hroot.1 hroot.2
    subst heq
    exact List.pairwise_iff_forall_sublist.mp h.ordered (hpair.trans List.filter_sublist)
      hintroduces ⟨rfl, rfl⟩ hintroduces
  refine ((List.perm_ext_iff_of_nodup hcompact hrecords).mpr fun record => ?_).length_eq
  rw [List.mem_filter, List.mem_filter]
  refine and_congr_left fun hroot => ⟨fun hmem => ?_, fun hmem => hroots record hmem hroot⟩
  obtain ⟨before, after, hsplit, -⟩ := mem_compact_iff.mp hmem
  simp [hsplit]

/-- **What the compaction keeps of a run.**  It loses no decision exactly when no material record
of an asset and version follows the material one that introduced it. -/
theorem compaction_keeps_iff (engine : VeryProfitableCohortEngine D) (calls : List (Call D)) :
    KeepsDecisions (run CohortRecords.step ⟨engine, []⟩ calls) ↔
      NothingMaterialFollows (run CohortRecords.step ⟨engine, []⟩ calls) := by
  have hsound := recordsSound_run engine calls
  constructor
  · exact hsound.nothing_follows
  · intro hfollows
    have hroots : ∀ record ∈ (run CohortRecords.step ⟨engine, []⟩ calls).records,
        record.independentExecutionRoot = true →
          record ∈ (run CohortRecords.step ⟨engine, []⟩ calls).compactCohortDecisionRecords :=
      fun record hrecord hroot => hsound.kept hfollows hrecord (hsound.roots record hrecord hroot)
    exact ⟨hroots, fun record hrecord => hsound.kept hfollows hrecord, hsound.root_count hroots⟩

end

def sampleLayer : PreparedVeryProfitableLayer ℚ := ⟨⟨1, "", 1, 0⟩, {"a"}, ∅⟩

/-- A target, a second one, and the signal of the second again at the next tick. -/
def refreshedDecision : List (Call ℚ) :=
  let signal := sampleSignal (longAggregate "BTC" 1)
  let raised := { signal with existingWalletSourceTarget := 1 }
  [.signal sampleLayer signal, .signal sampleLayer raised, .signal sampleLayer raised]

/-- The refresh takes the place of the root. -/
theorem root_overwritten_by_refresh : ¬ ∀ (engine : VeryProfitableCohortEngine ℚ)
    (calls : List (Call ℚ)), KeepsDecisions (run CohortRecords.step ⟨engine, []⟩ calls) := by
  intro h
  obtain ⟨record, hrecord, hroot⟩ := List.any_eq_true.mp (show (run CohortRecords.step
    ⟨⟨∅, ∅⟩, []⟩ refreshedDecision).records.any (fun record => record.independentExecutionRoot &&
      decide (record.targetVersion = 1)) = true by decide +kernel)
  rw [Bool.and_eq_true, decide_eq_true_eq] at hroot
  have hkept := (h ⟨∅, ∅⟩ refreshedDecision).roots record hrecord hroot.1
  unfold compactCohortDecisionRecords at hkept
  rw [(List.mergeSort_perm _ _).mem_iff] at hkept
  have hnone : (lastByKey compactionKey (run CohortRecords.step ⟨⟨∅, ∅⟩, []⟩
      refreshedDecision).records).all (fun record => !record.independentExecutionRoot ||
        decide (record.targetVersion ≠ 1)) = true := by
    decide +kernel
  have hlost := List.all_eq_true.mp hnone record hkept
  simp [hroot] at hlost

end CopyTrade.Analysis
