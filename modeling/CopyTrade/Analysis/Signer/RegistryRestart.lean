import CopyTrade.Model.Signer.RegistryCalls

/-!
# Restarting from a persisted registry

`restore` checks that the entries are valid and kept under their own cloid, that `unknown_assets` is
the set recomputed from them, and that the last history record of every entry is its state.  The
mutators keep the first; the results below say at which calls one of the other two is lost.
-/

namespace CopyTrade.Analysis

open Foundation Model Model.SubmissionRegistry
open Std (ExtTreeMap ExtTreeSet)

variable {D : Type} [Decimal D]

/-- What every registry has, whatever calls it went through. -/
structure WellKeyed (r : SubmissionRegistry D) : Prop where
  capacity_pos : r.maximumEntries ≠ 0
  within_capacity : r.byCloid.size ≤ r.maximumEntries
  entry_valid : ∀ {cloid : String} {intent : ApprovedExecutionIntent D}
    {state : SubmissionState D}, r.byCloid[cloid]? = some (intent, state) →
      intent.validate = .ok () ∧ intent.cloid = cloid

/-- `unknown_assets` is the set of assets with an intent in `UnknownResult`. -/
def UnknownExact (r : SubmissionRegistry D) : Prop :=
  ∀ asset, asset ∈ r.unknownAssets ↔ HasUnknown r.byCloid asset

/-- The last history record of every cloid is its current state. -/
def HistoryCurrent (r : SubmissionRegistry D) : Prop :=
  ∀ cloid state, r.state cloid = some state → (r.lastRecord cloid).map (·.state) = some state

/-- A restart from the persisted image succeeds and returns the same registry. -/
def RestartSafe (r : SubmissionRegistry D) : Prop :=
  r.restore = .ok r ∧ UnknownExact r ∧ HistoryCurrent r

/-- The call keeps the persisted image acceptable: no `confirm_not_found` that resolves its
entry; no terminal transition while another intent of the asset is unknown; and no transition
out of `UnknownResult` into an open order state unless another intent of the asset is. -/
def keepsRestartable (r : SubmissionRegistry D) : RegistryCall D → Bool
  | .register _ => true
  | .transitionAt cloid next _ =>
    match r.byCloid[cloid]? with
    | none => true
    | some (intent, current) =>
      !transitionApplies cloid current next ||
        (if next.isUnknownResult then true
        else if next.isTerminal then !r.otherUnknown cloid intent.asset
        else !current.isUnknownResult || r.otherUnknown cloid intent.asset)
  | .confirmNotFound cloid observedAtMs requiredConfirmations minimumIntervalMs =>
    match r.state cloid with
    | none => true
    | some current =>
      !(current.isUnknownResult &&
        r.confirmationResolves cloid observedAtMs requiredConfirmations minimumIntervalMs)

theorem checkEntry_eq_ok_iff {entry : String × ApprovedExecutionIntent D × SubmissionState D} :
    checkEntry entry = .ok () ↔
      entry.2.1.validate = .ok () ∧ entry.2.1.cloid = entry.1 := by
  unfold checkEntry
  cases hvalid : entry.2.1.validate with
  | error e => simp [bind, Except.bind]
  | ok u =>
    by_cases hkey : entry.1 = entry.2.1.cloid
    · simp [bind, Except.bind, hkey]
    · simp [bind, Except.bind, hkey, Ne.symm hkey]

variable {r : SubmissionRegistry D} {cloid : String} {confirmations : ExtTreeMap String (List ℕ)}
  {unknownAssets : ExtTreeSet String} {intent : ApprovedExecutionIntent D}

theorem checkHistory_eq_ok_iff {entry : String × ApprovedExecutionIntent D × SubmissionState D} :
    r.checkHistory entry = .ok () ↔
      ∃ last, r.lastRecord entry.1 = some last ∧ last.state.eqv entry.2.2 = true := by
  unfold checkHistory
  cases hlast : r.lastRecord entry.1 with
  | none => simp
  | some last => by_cases hsame : last.state.eqv entry.2.2 <;> simp [hsame]

omit [Decimal D] in
theorem mem_expectedUnknown_iff {asset : String} :
    asset ∈ r.expectedUnknown ↔ HasUnknown r.byCloid asset := by
  simp only [expectedUnknown, mem_set_ofList, List.mem_filterMap, Prod.exists, mem_entries_iff]
  constructor
  · rintro ⟨cloid, intent, state, hget, hasset⟩
    by_cases hunknown : state.isUnknownResult
    · rw [if_pos hunknown, Option.some.injEq] at hasset
      exact ⟨cloid, intent, state, hget, hasset, hunknown⟩
    · rw [if_neg hunknown] at hasset
      cases hasset
  · rintro ⟨cloid, intent, state, hget, hasset, hunknown⟩
    exact ⟨cloid, intent, state, hget, by rw [if_pos hunknown, hasset]⟩

omit [Decimal D] in
theorem unknownExact_iff : UnknownExact r ↔ r.unknownAssets = r.expectedUnknown := by
  constructor
  · intro h
    apply ExtTreeSet.ext_mem
    intro asset
    rw [h asset, mem_expectedUnknown_iff]
  · intro h asset
    rw [h, mem_expectedUnknown_iff]

theorem restore_eq_ok (hkeyed : WellKeyed r) (hunknown : UnknownExact r)
    (hhistory : HistoryCurrent r) : r.restore = .ok r := by
  have hcapacity : (r.maximumEntries == 0 || decide (r.maximumEntries < r.byCloid.size)) =
      false := by
    have hpos := hkeyed.capacity_pos
    have hroom := hkeyed.within_capacity
    simp only [Bool.or_eq_false_iff, beq_eq_false_iff_ne, decide_eq_false_iff_not]
    omega
  have hentries : checkAll checkEntry r.entries = .ok () := by
    rw [checkAll_eq_ok_iff]
    intro entry hentry
    exact checkEntry_eq_ok_iff.mpr (hkeyed.entry_valid (mem_entries_iff.mp hentry))
  have hset : (r.unknownAssets != r.expectedUnknown) = false := by
    rw [unknownExact_iff.mp hunknown, bne_self_eq_false]
  have htails : checkAll r.checkHistory r.entries = .ok () := by
    rw [checkAll_eq_ok_iff]
    intro entry hentry
    have hstate : r.state entry.1 = some entry.2.2 := by
      rw [state, mem_entries_iff.mp hentry, Option.map_some]
    obtain ⟨last, hlast, hsame⟩ := Option.map_eq_some_iff.mp (hhistory _ _ hstate)
    exact checkHistory_eq_ok_iff.mpr ⟨last, hlast, by rw [hsame, SubmissionState.eqv_refl]⟩
  simp only [restore, hcapacity, hentries, hset, htails, bind, Except.bind, Bool.false_eq_true,
    if_false]

theorem restartSafe_iff (hkeyed : WellKeyed r) :
    RestartSafe r ↔ UnknownExact r ∧ HistoryCurrent r :=
  ⟨fun h => h.2, fun h => ⟨restore_eq_ok hkeyed h.1 h.2, h⟩⟩

omit [Decimal D] in
theorem lastRecord_push {key : String} {state : SubmissionState D} {recordedAtMs : ℕ}
    {byCloid : ExtTreeMap String (ApprovedExecutionIntent D × SubmissionState D)} :
    (SubmissionRegistry.mk byCloid unknownAssets confirmations r.maximumEntries
        (r.pushRecord cloid state recordedAtMs)).lastRecord key =
      if cloid = key then some ⟨cloid, state, recordedAtMs⟩ else r.lastRecord key := by
  simp only [lastRecord, pushRecord, List.reverse_append, List.reverse_cons, List.reverse_nil,
    List.nil_append, List.cons_append, List.find?_cons]
  by_cases hkey : cloid = key
  · simp only [hkey, beq_self_eq_true, if_true]
  · simp only [beq_eq_false_iff_ne.mpr hkey, if_neg hkey]

omit [Decimal D] in
theorem historyCurrent_insert {next : SubmissionState D} {recordedAtMs : ℕ} (h : HistoryCurrent r) :
    HistoryCurrent (SubmissionRegistry.mk (r.byCloid.insert cloid (intent, next)) unknownAssets
      confirmations r.maximumEntries (r.pushRecord cloid next recordedAtMs)) := by
  intro key current hstate
  rw [lastRecord_push]
  simp only [state, getElem?_insert_eq] at hstate
  by_cases hkey : cloid = key
  · rw [if_pos hkey] at hstate ⊢
    exact hstate
  · rw [if_neg hkey] at hstate ⊢
    exact h key current hstate

theorem wellKeyed_step (call : RegistryCall D) (h : WellKeyed r) : WellKeyed (r.step call) := by
  have hreplace {cloid : String} {intent : ApprovedExecutionIntent D}
      {current next : SubmissionState D} {unknownAssets : ExtTreeSet String}
      {confirmations : ExtTreeMap String (List ℕ)}
      {history : List (SubmissionTransitionRecord D)}
      (hget : r.byCloid[cloid]? = some (intent, current)) :
      WellKeyed (SubmissionRegistry.mk (r.byCloid.insert cloid (intent, next)) unknownAssets
        confirmations r.maximumEntries history) := by
    refine ⟨h.capacity_pos, ?_, ?_⟩
    · have hmem : cloid ∈ r.byCloid := by
        rw [ExtTreeMap.mem_iff_isSome_getElem?, hget, Option.isSome_some]
      have hsize : (r.byCloid.insert cloid (intent, next)).size = r.byCloid.size := by
        rw [ExtTreeMap.size_insert, if_pos (ExtTreeMap.contains_iff_mem.mpr hmem)]
      exact hsize.symm ▸ h.within_capacity
    · intro key other state hother
      simp only [getElem?_insert_eq] at hother
      by_cases hkey : cloid = key
      · rw [if_pos hkey] at hother
        cases hother
        exact hkey ▸ h.entry_valid hget
      · rw [if_neg hkey] at hother
        exact h.entry_valid hother
  rcases perform_cases r call with ⟨e, -, hsame⟩ | hperformed
  · rw [hsame]
    exact h
  generalize r.step call = r' at hperformed
  cases hperformed with
  | registered intent hvalid hfresh hopen hroom =>
    refine ⟨h.capacity_pos, ?_, ?_⟩
    · have hsize := ExtTreeMap.size_insert_le (t := r.byCloid) (k := intent.cloid)
        (v := (intent, .authorized))
      simp only
      omega
    · intro key other state hother
      simp only [getElem?_insert_eq] at hother
      by_cases hkey : intent.cloid = key
      · rw [if_pos hkey] at hother
        cases hother
        exact ⟨hvalid, hkey⟩
      · rw [if_neg hkey] at hother
        exact h.entry_valid hother
  | repeated => exact h
  | moved cloid next recordedAtMs intent current hget happlies => exact hreplace hget
  | counted => exact ⟨h.capacity_pos, h.within_capacity, h.entry_valid⟩
  | resolved cloid observedAtMs requiredConfirmations minimumIntervalMs intent current hget =>
    exact hreplace hget

omit [Decimal D] in
/-- `unknown_assets` stays exact when a transition is carried out iff the transition meets its
part of `keepsRestartable`. -/
theorem unknownExact_moved_iff {current next : SubmissionState D}
    (hget : r.byCloid[cloid]? = some (intent, current)) (hexact : UnknownExact r) :
    (∀ asset, asset ∈ r.unknownAssetsAfter intent.asset next ↔
        HasUnknown (r.byCloid.insert cloid (intent, next)) asset) ↔
      (if next.isUnknownResult then true
      else if next.isTerminal then !r.otherUnknown cloid intent.asset
      else !current.isUnknownResult || r.otherUnknown cloid intent.asset) = true := by
  -- An asset is unknown before the call by this entry or by another one.
  have hbefore (asset : String) : asset ∈ r.unknownAssets ↔
      (intent.asset = asset ∧ current.isUnknownResult = true) ∨
        r.otherUnknown cloid asset = true := by
    have hsame : r.byCloid.insert cloid (intent, current) = r.byCloid := by
      apply ExtTreeMap.ext_getElem?
      intro key
      rw [getElem?_insert_eq]
      split
      · rename_i hkey
        rw [← hkey, hget]
      · rfl
    rw [hexact asset, ← hasUnknown_insert_iff, hsame]
  simp only [hasUnknown_insert_iff, unknownAssetsAfter]
  cases hnext : next.isUnknownResult with
  | true =>
    simp only [if_true, mem_set_insert, and_true, iff_true, hbefore]
    intro asset
    tauto
  | false =>
    simp only [Bool.false_eq_true, if_false, and_false, false_or]
    cases hterminal : next.isTerminal with
    | true =>
      simp only [if_true, mem_set_erase, Bool.not_eq_true', hbefore]
      constructor
      · intro h
        by_contra hother
        have hmem := (h intent.asset).mpr (by simpa using hother)
        exact hmem.1 rfl
      · intro hlast asset
        constructor
        · rintro ⟨hne, ⟨hasset, -⟩ | hother⟩
          · exact absurd hasset hne
          · exact hother
        · intro hother
          refine ⟨?_, .inr hother⟩
          rintro rfl
          rw [hlast] at hother
          cases hother
    | false =>
      simp only [Bool.false_eq_true, if_false, Bool.or_eq_true, Bool.not_eq_true', hbefore]
      constructor
      · intro h
        cases hcurrent : current.isUnknownResult with
        | false => exact .inl rfl
        | true => exact .inr ((h intent.asset).mp (.inl ⟨rfl, hcurrent⟩))
      · intro h asset
        constructor
        · rintro (⟨rfl, hcurrent⟩ | hother)
          · rcases h with h | h
            · rw [hcurrent] at h
              cases h
            · exact h
          · exact hother
        · exact .inr

omit [Decimal D] in
theorem not_historyCurrent_resolved {current : SubmissionState D}
    (hget : r.byCloid[cloid]? = some (intent, current)) (hunknown : current.isUnknownResult = true)
    (hhistory : HistoryCurrent r) :
    ¬ HistoryCurrent (SubmissionRegistry.mk (r.byCloid.insert cloid (intent, .reconciledNotFound))
      unknownAssets confirmations r.maximumEntries r.history) := by
  intro h
  have hbefore := hhistory cloid current (by rw [state, hget, Option.map_some])
  have hafter := h cloid .reconciledNotFound (by
    simp only [state, getElem?_insert_eq, if_true, Option.map_some])
  have hsame : some current = some SubmissionState.reconciledNotFound := hbefore.symm.trans hafter
  cases hsame
  cases hunknown

theorem keepsRestartable_of_error {call : RegistryCall D} {e : SignerError}
    (h : r.perform call = .error e) : keepsRestartable r call = true := by
  cases call with
  | register intent => rfl
  | transitionAt cloid next recordedAtMs =>
    cases hget : r.byCloid[cloid]? with
    | none => simp only [keepsRestartable, hget]
    | some entry =>
      have hrefused := transitionApplies_of_error hget h
      simp only [keepsRestartable, hget, hrefused, Bool.not_false, Bool.true_or]
  | confirmNotFound cloid observedAtMs requiredConfirmations minimumIntervalMs =>
    cases hget : r.byCloid[cloid]? with
    | none => simp only [keepsRestartable, state, hget, Option.map_none]
    | some entry =>
      have hfails := confirmationResolves_of_error hget h
      simp only [keepsRestartable, state, hget, Option.map_some, hfails, Bool.not_false]

theorem restartSafe_step_iff (call : RegistryCall D) (hkeyed : WellKeyed r) (hsafe : RestartSafe r)
    :
    RestartSafe (r.step call) ↔ keepsRestartable r call = true := by
  obtain ⟨-, hexact, hhistory⟩ := hsafe
  rw [restartSafe_iff (wellKeyed_step call hkeyed)]
  rcases perform_cases r call with ⟨e, herror, hsame⟩ | hperformed
  · rw [hsame]
    refine ⟨fun _ => ?_, fun _ => ⟨hexact, hhistory⟩⟩
    exact keepsRestartable_of_error herror
  generalize r.step call = r' at hperformed
  cases hperformed with
  | registered intent hvalid hfresh hopen hroom =>
    refine ⟨fun _ => rfl, fun _ => ⟨?_, historyCurrent_insert hhistory⟩⟩
    intro asset
    rw [hasUnknown_insert_iff, otherUnknown_iff_of_fresh hfresh, ← hexact asset]
    simp only [SubmissionState.isUnknownResult, Bool.false_eq_true, and_false, false_or]
  | repeated cloid next recordedAtMs intent current hget hsame =>
    have hrepeats : transitionApplies cloid current next = false := by
      simp only [transitionApplies, hsame, Bool.not_true, Bool.false_and]
    simp only [keepsRestartable, hget, hrepeats, Bool.not_false, Bool.true_or, iff_true]
    exact ⟨hexact, hhistory⟩
  | moved cloid next recordedAtMs intent current hget happlies =>
    simp only [keepsRestartable, hget, happlies, Bool.not_true, Bool.false_or]
    rw [← unknownExact_moved_iff hget hexact]
    exact and_iff_left (historyCurrent_insert hhistory)
  | counted cloid observedAtMs requiredConfirmations minimumIntervalMs intent current hget
      hunknown hmore =>
    simp only [keepsRestartable, state, hget, Option.map_some, hmore, Bool.and_false,
      Bool.not_false, iff_true]
    exact ⟨hexact, hhistory⟩
  | resolved cloid observedAtMs requiredConfirmations minimumIntervalMs intent current hget
      hunknown hresolves =>
    simp only [keepsRestartable, state, hget, Option.map_some, hunknown, hresolves, Bool.and_self,
      Bool.not_true, Bool.false_eq_true, iff_false]
    exact fun h => not_historyCurrent_resolved hget hunknown hhistory h.2

theorem wellKeyed_withCapacity {maximumEntries : ℕ} (h : withCapacity maximumEntries = .ok r) :
    WellKeyed r ∧ RestartSafe r := by
  unfold withCapacity at h
  split at h
  · cases h
  rename_i hpos
  obtain rfl := (Except.ok.inj h).symm
  have hnone (cloid : String) : (SubmissionRegistry.empty maximumEntries :
      SubmissionRegistry D).byCloid[cloid]? = none := ExtTreeMap.getElem?_empty
  have hkeyed : WellKeyed (SubmissionRegistry.empty maximumEntries : SubmissionRegistry D) := by
    refine ⟨hpos, Nat.zero_le _, ?_⟩
    intro cloid intent state hget
    rw [hnone] at hget
    cases hget
  refine ⟨hkeyed, (restartSafe_iff hkeyed).mpr ⟨?_, ?_⟩⟩
  · intro asset
    constructor
    · intro hmem
      exact absurd hmem ExtTreeSet.not_mem_empty
    · rintro ⟨cloid, intent, state, hget, -⟩
      rw [hnone] at hget
      cases hget
  · intro cloid current hstate
    rw [state, hnone] at hstate
    cases hstate

/-- **Restart along a run.**  Every registry a run passes through, from a new one on, survives
a restart iff every call of the run meets `keepsRestartable`. -/
theorem restart_safe_iff {maximumEntries : ℕ} {start : SubmissionRegistry D}
    (hstart : withCapacity maximumEntries = .ok start) (calls : List (RegistryCall D)) :
    (∀ r ∈ states step start calls, RestartSafe r) ↔
      AllSteps step (fun r call => keepsRestartable r call = true) start calls := by
  obtain ⟨hkeyed, hsafe⟩ := wellKeyed_withCapacity hstart
  exact forall_states_iff_steps (I := WellKeyed) (P := RestartSafe)
    (fun _ call => wellKeyed_step call) (fun _ call => restartSafe_step_iff call)
    hkeyed hsafe calls

/-- A submission whose result is unknown and that two confirmations then resolve. -/
def resolvedRun : List (RegistryCall ℚ) :=
  [.register (sampleIntent (sampleCloid 1) "BTC" false),
    .transitionAt (sampleCloid 1) (.nonceAllocated 7) 0,
    .transitionAt (sampleCloid 1) (.signed 7) 0,
    .transitionAt (sampleCloid 1) (.submissionStarted 7) 0,
    .transitionAt (sampleCloid 1) (.unknownResult 7) 0,
    .confirmNotFound (sampleCloid 1) 100 2 50,
    .confirmNotFound (sampleCloid 1) 150 2 50]

theorem restart_safe_iff_resolvedRun :
    withCapacity 4 = .ok (SubmissionRegistry.empty 4 : SubmissionRegistry ℚ) ∧
      ∀ r ∈ states step (SubmissionRegistry.empty 4) (resolvedRun.take 6), RestartSafe r := by
  have hstart : withCapacity 4 = .ok (SubmissionRegistry.empty 4 : SubmissionRegistry ℚ) := rfl
  exact ⟨hstart, (restart_safe_iff hstart _).mpr (by decide +kernel)⟩

theorem resolved_registry_not_restored :
    ¬ ∀ (maximumEntries : ℕ) (start : SubmissionRegistry ℚ),
      withCapacity maximumEntries = .ok start →
        ∀ (calls : List (RegistryCall ℚ)), ∀ r ∈ states step start calls, RestartSafe r := by
  intro h
  have hlast := h 4 _ rfl resolvedRun _ (run_mem_states _ _)
  have hrefused : (run step (SubmissionRegistry.empty 4) resolvedRun).restore =
      .error .invalidExchangeState := by decide +kernel
  have hrestored := hlast.1
  rw [hrefused] at hrestored
  cases hrestored

end CopyTrade.Analysis
