import CopyTrade.Model.Signer.RegistryCalls

/-!
# Which assets the registry blocks

`unknown_assets` is meant to hold the asset of every intent whose submission result is unknown.  A
terminal transition of one intent releases the asset for all of them: a block is lost exactly at a
release whose asset has another intent in `UnknownResult`.
-/

namespace CopyTrade.Analysis

open Foundation Model Model.SubmissionRegistry
open Std (ExtTreeMap ExtTreeSet)

variable {D : Type} [Decimal D]

/-- Every asset with an intent in `UnknownResult` is blocked for exposure increases. -/
def BlocksUnknown (r : SubmissionRegistry D) : Prop :=
  ∀ asset, HasUnknown r.byCloid asset →
    r.permitsIncrease asset = false ∧
      ∀ intent : ApprovedExecutionIntent D, intent.asset = asset → intent.reduceOnly = false →
        ∃ e, r.register intent = .error e

/-- The cloid and the asset a call releases: the entry of a transition to a terminal state or
of a resolving `confirm_not_found`. -/
def released (r : SubmissionRegistry D) : RegistryCall D → Option (String × String)
  | .register _ => none
  | .transitionAt cloid next _ =>
    match r.byCloid[cloid]? with
    | none => none
    | some (intent, current) =>
      if next.isTerminal && transitionApplies cloid current next then some (cloid, intent.asset)
      else none
  | .confirmNotFound cloid observedAtMs requiredConfirmations minimumIntervalMs =>
    match r.byCloid[cloid]? with
    | none => none
    | some (intent, current) =>
      if current.isUnknownResult &&
          r.confirmationResolves cloid observedAtMs requiredConfirmations minimumIntervalMs then
        some (cloid, intent.asset)
      else none

/-- If the call releases an asset, no other intent of the asset is in `UnknownResult`. -/
def releasesLastUnknown (r : SubmissionRegistry D) (call : RegistryCall D) : Bool :=
  (released r call).all fun entry => !r.otherUnknown entry.1 entry.2

theorem blocksUnknown_iff {r : SubmissionRegistry D} :
    BlocksUnknown r ↔ ∀ asset, HasUnknown r.byCloid asset → asset ∈ r.unknownAssets := by
  constructor
  · intro h asset hunknown
    have hpermits := (h asset hunknown).1
    simpa only [permitsIncrease, Bool.not_eq_false', ExtTreeSet.contains_iff_mem] using hpermits
  · intro h asset hunknown
    have hmem := h asset hunknown
    refine ⟨by simpa only [permitsIncrease, Bool.not_eq_false', ExtTreeSet.contains_iff_mem], ?_⟩
    intro intent hasset hreduce
    cases hregister : r.register intent with
    | error e => exact ⟨e, rfl⟩
    | ok next =>
      cases register_eq_ok hregister with
      | registered _ _ _ hopen _ =>
        rcases hopen with hopen | hopen
        · rw [hreduce] at hopen
          cases hopen
        · exact absurd (hasset ▸ hmem) hopen

theorem released_eq_none_of_error {r : SubmissionRegistry D} {call : RegistryCall D}
    {e : SignerError} (h : r.perform call = .error e) : released r call = none := by
  cases call with
  | register intent => rfl
  | transitionAt cloid next recordedAtMs =>
    cases hget : r.byCloid[cloid]? with
    | none => simp only [released, hget]
    | some entry =>
      have hrefused := transitionApplies_of_error hget h
      simp only [released, hget, hrefused, Bool.and_false, Bool.false_eq_true, if_false]
  | confirmNotFound cloid observedAtMs requiredConfirmations minimumIntervalMs =>
    cases hget : r.byCloid[cloid]? with
    | none => simp only [released, hget]
    | some entry =>
      have hfails := confirmationResolves_of_error hget h
      simp only [released, hget, hfails, Bool.false_eq_true, if_false]

/-- A registry that blocks its unknown assets does so after the entry of `cloid` becomes
terminal and its asset is released iff no other intent of the asset is unknown. -/
theorem blocksUnknown_release_iff {r : SubmissionRegistry D} {cloid : String}
    {intent : ApprovedExecutionIntent D} {next : SubmissionState D}
    {confirmations : ExtTreeMap String (List ℕ)} {history : List (SubmissionTransitionRecord D)}
    (hblocks : BlocksUnknown r) (hnext : next.isUnknownResult = false) :
    BlocksUnknown (SubmissionRegistry.mk (r.byCloid.insert cloid (intent, next))
        (r.unknownAssets.erase intent.asset) confirmations r.maximumEntries history) ↔
      r.otherUnknown cloid intent.asset = false := by
  rw [blocksUnknown_iff] at hblocks ⊢
  simp only [hasUnknown_insert_iff, mem_set_erase, hnext, Bool.false_eq_true, and_false, false_or]
  constructor
  · intro h
    by_contra hother
    exact (h intent.asset (by simpa using hother)).1 rfl
  · intro hlast asset hother
    refine ⟨?_, hblocks asset (hasUnknown_of_otherUnknown hother)⟩
    rintro rfl
    rw [hlast] at hother
    cases hother

theorem blocksUnknown_step_iff {r : SubmissionRegistry D} (call : RegistryCall D)
    (hblocks : BlocksUnknown r) :
    BlocksUnknown (r.step call) ↔ releasesLastUnknown r call = true := by
  rcases perform_cases r call with ⟨e, herror, hsame⟩ | hperformed
  · rw [hsame, releasesLastUnknown, released_eq_none_of_error herror]
    exact ⟨fun _ => rfl, fun _ => hblocks⟩
  generalize r.step call = r' at hperformed
  cases hperformed with
  | registered intent hvalid hfresh hopen hroom =>
    refine ⟨fun _ => rfl, fun _ => blocksUnknown_iff.mpr ?_⟩
    intro asset hunknown
    rw [hasUnknown_insert_iff] at hunknown
    rcases hunknown with ⟨-, habsurd⟩ | hother
    · cases habsurd
    · exact blocksUnknown_iff.mp hblocks asset (hasUnknown_of_otherUnknown hother)
  | repeated cloid next recordedAtMs intent current hget hsame =>
    have hnone : released r (.transitionAt cloid next recordedAtMs) = none := by
      simp only [released, hget, transitionApplies, hsame, Bool.not_true, Bool.false_and,
        Bool.and_false, Bool.false_eq_true, if_false]
    rw [releasesLastUnknown, hnone]
    exact ⟨fun _ => rfl, fun _ => hblocks⟩
  | moved cloid next recordedAtMs intent current hget happlies =>
    cases hterminal : next.isTerminal with
    | true =>
      have hnext : next.isUnknownResult = false := by cases next <;> simp_all [
        SubmissionState.isTerminal, SubmissionState.isUnknownResult]
      have hreleased : released r (.transitionAt cloid next recordedAtMs) =
          some (cloid, intent.asset) := by
        simp only [released, hget, hterminal, happlies, Bool.and_self, if_true]
      simp only [releasesLastUnknown, hreleased, Option.all_some, Bool.not_eq_true',
        unknownAssetsAfter, hnext, hterminal, Bool.false_eq_true, if_false, if_true]
      exact blocksUnknown_release_iff hblocks hnext
    | false =>
      have hnone : released r (.transitionAt cloid next recordedAtMs) = none := by
        simp only [released, hget, hterminal, Bool.false_and, Bool.false_eq_true, if_false]
      rw [releasesLastUnknown, hnone]
      refine ⟨fun _ => rfl, fun _ => blocksUnknown_iff.mpr ?_⟩
      intro asset hunknown
      rw [hasUnknown_insert_iff] at hunknown
      simp only [unknownAssetsAfter, hterminal, Bool.false_eq_true, if_false]
      rcases hunknown with ⟨hasset, hnext⟩ | hother
      · rw [if_pos hnext, mem_set_insert]
        exact .inl hasset
      · have hold := blocksUnknown_iff.mp hblocks asset (hasUnknown_of_otherUnknown hother)
        split
        · exact (mem_set_insert _ _ _).mpr (.inr hold)
        · exact hold
  | counted cloid observedAtMs requiredConfirmations minimumIntervalMs intent current hget
      hunknown hmore =>
    have hnone : released r (.confirmNotFound cloid observedAtMs requiredConfirmations
        minimumIntervalMs) = none := by
      simp only [released, hget, hmore, Bool.and_false, Bool.false_eq_true, if_false]
    rw [releasesLastUnknown, hnone]
    refine ⟨fun _ => rfl, fun _ => blocksUnknown_iff.mpr ?_⟩
    intro asset hasset
    exact blocksUnknown_iff.mp hblocks asset hasset
  | resolved cloid observedAtMs requiredConfirmations minimumIntervalMs intent current hget
      hunknown hresolves =>
    have hreleased : released r (.confirmNotFound cloid observedAtMs requiredConfirmations
        minimumIntervalMs) = some (cloid, intent.asset) := by
      simp only [released, hget, hunknown, hresolves, Bool.and_self, if_true]
    simp only [releasesLastUnknown, hreleased, Option.all_some, Bool.not_eq_true']
    exact blocksUnknown_release_iff hblocks rfl

theorem blocksUnknown_empty (maximumEntries : ℕ) :
    BlocksUnknown (SubmissionRegistry.empty maximumEntries : SubmissionRegistry D) := by
  rw [blocksUnknown_iff]
  rintro asset ⟨cloid, intent, state, hget, -⟩
  simp only [SubmissionRegistry.empty, ExtTreeMap.getElem?_empty] at hget
  cases hget

/-- **Blocking along a run.**  Every state of a run from an empty registry blocks the assets of
its unknown intents iff every release of the run is the release of the last unknown intent of
its asset. -/
theorem unknown_assets_blocked_iff (maximumEntries : ℕ) (calls : List (RegistryCall D)) :
    (∀ r ∈ states step (SubmissionRegistry.empty maximumEntries) calls, BlocksUnknown r) ↔
      AllSteps step (fun r call => releasesLastUnknown r call = true)
        (SubmissionRegistry.empty maximumEntries) calls :=
  forall_states_iff_steps (I := fun _ => True) (fun _ _ _ => trivial)
    (fun _ call _ hblocks => blocksUnknown_step_iff call hblocks) trivial
    (blocksUnknown_empty maximumEntries) calls

def rejectedExitRun : List (RegistryCall ℚ) :=
  [.register (sampleIntent (sampleCloid 1) "BTC" false),
    .transitionAt (sampleCloid 1) (.nonceAllocated 7) 0,
    .transitionAt (sampleCloid 1) (.signed 7) 0,
    .transitionAt (sampleCloid 1) (.submissionStarted 7) 0,
    .transitionAt (sampleCloid 1) (.unknownResult 7) 0,
    .register (sampleIntent (sampleCloid 2) "BTC" true),
    .transitionAt (sampleCloid 2) (.rejected "tick size") 0]

/-- The rejection of the exit unblocks the asset while the first intent is still unknown. -/
theorem rejected_exit_unblocks :
    ¬ ∀ (maximumEntries : ℕ) (calls : List (RegistryCall ℚ)),
      ∀ r ∈ states step (SubmissionRegistry.empty maximumEntries) calls, BlocksUnknown r := by
  intro h
  have hlast := h 4 rejectedExitRun _ (run_mem_states _ _)
  obtain ⟨hget, hpermits⟩ :
      (run step (SubmissionRegistry.empty 4) rejectedExitRun).byCloid[sampleCloid 1]? =
          some (sampleIntent (sampleCloid 1) "BTC" false, .unknownResult 7) ∧
        (run step (SubmissionRegistry.empty 4) rejectedExitRun).permitsIncrease "BTC" = true := by
    decide +kernel
  have hblocked := (hlast "BTC" ⟨_, _, _, hget, rfl, rfl⟩).1
  rw [hblocked] at hpermits
  cases hpermits

end CopyTrade.Analysis
