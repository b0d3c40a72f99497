import CopyTrade.Foundation.Runs
import CopyTrade.Model.Signer.Registry

/-!
# Sequences of registry calls

The three mutators of `SubmissionRegistry` as the labels of one system: a call that fails
leaves the registry as it was.  `Performed` lists what a call that succeeds can do to the
registry, guards included, and `perform_cases` is the inversion lemma that every invariant
of the registry is derived from.
-/

namespace CopyTrade.Model

open Foundation
open Std (ExtTreeMap ExtTreeSet)

inductive RegistryCall (D : Type)
  | register (intent : ApprovedExecutionIntent D)
  | transitionAt (cloid : String) (next : SubmissionState D) (recordedAtMs : ℕ)
  | confirmNotFound (cloid : String) (observedAtMs requiredConfirmations minimumIntervalMs : ℕ)

variable {D : Type} [Decimal D]

namespace SubmissionRegistry

def perform (r : SubmissionRegistry D) : RegistryCall D → Except SignerError (SubmissionRegistry D)
  | .register intent => r.register intent
  | .transitionAt cloid next recordedAtMs => r.transitionAt cloid next recordedAtMs
  | .confirmNotFound cloid observedAtMs requiredConfirmations minimumIntervalMs =>
    (r.confirmNotFound cloid observedAtMs requiredConfirmations minimumIntervalMs).map Prod.snd

def step (r : SubmissionRegistry D) (call : RegistryCall D) : SubmissionRegistry D :=
  match r.perform call with
  | .ok next => next
  | .error _ => r

/-- Some intent of `asset` registered under another cloid is in `UnknownResult`. -/
def otherUnknown (r : SubmissionRegistry D) (cloid asset : String) : Bool :=
  r.entries.any fun entry =>
    entry.1 != cloid && entry.2.1.asset == asset && entry.2.2.isUnknownResult

variable {r : SubmissionRegistry D} {cloid : String} {intent : ApprovedExecutionIntent D}

omit [Decimal D] in
theorem mem_entries_iff {entry : String × ApprovedExecutionIntent D × SubmissionState D} :
    entry ∈ r.entries ↔ r.byCloid[entry.1]? = some entry.2 := by
  obtain ⟨cloid, value⟩ := entry
  exact ExtTreeMap.mem_toList_iff_getElem?_eq_some

variable {asset : String} {next : SubmissionRegistry D} {recordedAtMs requiredConfirmations : ℕ}

omit [Decimal D] in
theorem otherUnknown_iff :
    r.otherUnknown cloid asset = true ↔
      ∃ other intent state, other ≠ cloid ∧ r.byCloid[other]? = some (intent, state) ∧
        intent.asset = asset ∧ state.isUnknownResult = true := by
  simp only [otherUnknown, List.any_eq_true, Prod.exists, mem_entries_iff, Bool.and_eq_true,
    bne_iff_ne, beq_iff_eq]
  constructor
  · rintro ⟨other, intent, state, hget, ⟨hne, hasset⟩, hunknown⟩
    exact ⟨other, intent, state, hne, hget, hasset, hunknown⟩
  · rintro ⟨other, intent, state, hne, hget, hasset, hunknown⟩
    exact ⟨other, intent, state, hget, ⟨hne, hasset⟩, hunknown⟩

/-- Some registered intent of `asset` is in `UnknownResult`. -/
def HasUnknown (byCloid : ExtTreeMap String (ApprovedExecutionIntent D × SubmissionState D))
    (asset : String) : Prop :=
  ∃ (cloid : String) (intent : ApprovedExecutionIntent D) (state : SubmissionState D),
    byCloid[cloid]? = some (intent, state) ∧ intent.asset = asset ∧
      state.isUnknownResult = true

omit [Decimal D] in
theorem hasUnknown_of_otherUnknown (h : r.otherUnknown cloid asset = true) :
    HasUnknown r.byCloid asset := by
  obtain ⟨other, intent, state, -, hget, hasset, hunknown⟩ := otherUnknown_iff.mp h
  exact ⟨other, intent, state, hget, hasset, hunknown⟩

omit [Decimal D] in
/-- After the entry of `cloid` is replaced, an asset has an unknown intent iff the new entry is
one or another entry is. -/
theorem hasUnknown_insert_iff {next : SubmissionState D} :
    HasUnknown (r.byCloid.insert cloid (intent, next)) asset ↔
      (intent.asset = asset ∧ next.isUnknownResult = true) ∨ r.otherUnknown cloid asset = true := by
  rw [otherUnknown_iff]
  constructor
  · rintro ⟨key, other, state, hget, hasset, hunknown⟩
    simp only [getElem?_insert_eq] at hget
    by_cases hkey : cloid = key
    · rw [if_pos hkey] at hget
      cases hget
      exact .inl ⟨hasset, hunknown⟩
    · rw [if_neg hkey] at hget
      exact .inr ⟨key, other, state, fun h => hkey h.symm, hget, hasset, hunknown⟩
  · rintro (⟨hasset, hunknown⟩ | ⟨key, other, state, hne, hget, hasset, hunknown⟩)
    · refine ⟨cloid, intent, next, ?_, hasset, hunknown⟩
      simp only [getElem?_insert_eq, if_true]
    · refine ⟨key, other, state, ?_, hasset, hunknown⟩
      rw [getElem?_insert_of_ne (Ne.symm hne)]
      exact hget

omit [Decimal D] in
/-- Every unknown intent is another one than an unregistered cloid. -/
theorem otherUnknown_iff_of_fresh (hfresh : r.byCloid[cloid]? = none) :
    r.otherUnknown cloid asset = true ↔ HasUnknown r.byCloid asset := by
  refine ⟨hasUnknown_of_otherUnknown, ?_⟩
  rintro ⟨key, intent, state, hget, hasset, hunknown⟩
  refine otherUnknown_iff.mpr ⟨key, intent, state, ?_, hget, hasset, hunknown⟩
  rintro rfl
  rw [hfresh] at hget
  cases hget

/-- The transition `cloid` from `current` to `next` is carried out: it is no repetition of the
current state and passes every check. -/
def transitionApplies (cloid : String) (current next : SubmissionState D) : Bool :=
  !current.eqv next && !transitionRefused cloid current next

/-- `confirm_not_found` reaches its last confirmation and resolves the entry. -/
def confirmationResolves (r : SubmissionRegistry D) (cloid : String)
    (observedAtMs requiredConfirmations minimumIntervalMs : ℕ) : Bool :=
  !(requiredConfirmations < 2 || minimumIntervalMs == 0) &&
    !r.confirmationTooSoon cloid observedAtMs minimumIntervalMs &&
    !decide ((r.confirmations cloid).length + 1 < requiredConfirmations)

/-- The effect of a call that returns `Ok`. -/
inductive Performed (r : SubmissionRegistry D) : RegistryCall D → SubmissionRegistry D → Prop
  | registered (intent : ApprovedExecutionIntent D) (hvalid : intent.validate = .ok ())
      (hfresh : r.byCloid[intent.cloid]? = none)
      (hopen : intent.reduceOnly = true ∨ intent.asset ∉ r.unknownAssets)
      (hroom : r.byCloid.size < r.maximumEntries) :
      Performed r (.register intent) { r with
        byCloid := r.byCloid.insert intent.cloid (intent, .authorized)
        history := r.pushRecord intent.cloid .authorized 0 }
  | repeated (cloid : String) (next : SubmissionState D) (recordedAtMs : ℕ)
      (intent : ApprovedExecutionIntent D) (current : SubmissionState D)
      (hget : r.byCloid[cloid]? = some (intent, current)) (hsame : current.eqv next = true) :
      Performed r (.transitionAt cloid next recordedAtMs) r
  | moved (cloid : String) (next : SubmissionState D) (recordedAtMs : ℕ)
      (intent : ApprovedExecutionIntent D) (current : SubmissionState D)
      (hget : r.byCloid[cloid]? = some (intent, current))
      (happlies : transitionApplies cloid current next = true) :
      Performed r (.transitionAt cloid next recordedAtMs) { r with
        byCloid := r.byCloid.insert cloid (intent, next)
        unknownAssets := r.unknownAssetsAfter intent.asset next
        notFoundConfirmations :=
          if next.isTerminal then r.notFoundConfirmations.erase cloid
          else r.notFoundConfirmations
        history := r.pushRecord cloid next recordedAtMs }
  | counted (cloid : String) (observedAtMs requiredConfirmations minimumIntervalMs : ℕ)
      (intent : ApprovedExecutionIntent D) (current : SubmissionState D)
      (hget : r.byCloid[cloid]? = some (intent, current))
      (hunknown : current.isUnknownResult = true)
      (hmore : r.confirmationResolves cloid observedAtMs requiredConfirmations
        minimumIntervalMs = false) :
      Performed r
        (.confirmNotFound cloid observedAtMs requiredConfirmations minimumIntervalMs) { r with
          notFoundConfirmations :=
            r.notFoundConfirmations.insert cloid (r.confirmations cloid ++ [observedAtMs]) }
  | resolved (cloid : String) (observedAtMs requiredConfirmations minimumIntervalMs : ℕ)
      (intent : ApprovedExecutionIntent D) (current : SubmissionState D)
      (hget : r.byCloid[cloid]? = some (intent, current))
      (hunknown : current.isUnknownResult = true)
      (hresolves : r.confirmationResolves cloid observedAtMs requiredConfirmations
        minimumIntervalMs = true) :
      Performed r
        (.confirmNotFound cloid observedAtMs requiredConfirmations minimumIntervalMs) { r with
          byCloid := r.byCloid.insert cloid (intent, .reconciledNotFound)
          unknownAssets := r.unknownAssets.erase intent.asset
          notFoundConfirmations := r.notFoundConfirmations.erase cloid }

/-- `register` succeeds exactly on a valid, fresh, unblocked intent while there is room. -/
theorem register_eq_ok (h : r.register intent = .ok next) :
    r.Performed (.register intent) next := by
  cases hvalid : intent.validate with
  | error e =>
    simp only [register, hvalid, bind, Except.bind] at h
    cases h
  | ok u =>
    simp only [register, hvalid, bind, Except.bind] at h
    split at h
    · cases h
    split at h
    · cases h
    split at h
    · cases h
    rename_i hfresh hblocked hroom
    obtain rfl := (Except.ok.inj h).symm
    refine .registered intent hvalid ?_ ?_ (by omega)
    · rw [← Option.not_isSome_iff_eq_none, ← ExtTreeMap.contains_eq_isSome_getElem?]
      exact hfresh
    · simp only [Bool.and_eq_true, Bool.not_eq_true', ExtTreeSet.contains_iff_mem,
        not_and] at hblocked
      cases hreduce : intent.reduceOnly with
      | true => exact .inl rfl
      | false => exact .inr (hblocked hreduce)

theorem transitionAt_eq_ok {target : SubmissionState D}
    (h : r.transitionAt cloid target recordedAtMs = .ok next) :
    r.Performed (.transitionAt cloid target recordedAtMs) next := by
  unfold transitionAt at h
  cases hget : r.byCloid[cloid]? with
  | none =>
    rw [hget] at h
    cases h
  | some entry =>
    obtain ⟨intent, current⟩ := entry
    simp only [hget] at h
    split at h
    · rename_i hsame
      obtain rfl := (Except.ok.inj h).symm
      exact .repeated cloid target recordedAtMs intent current hget hsame
    split at h
    · cases h
    rename_i hdiff hallowed
    obtain rfl := (Except.ok.inj h).symm
    refine .moved cloid target recordedAtMs intent current hget ?_
    simp only [transitionApplies, Bool.and_eq_true, Bool.not_eq_true']
    exact ⟨Bool.not_eq_true _ ▸ hdiff, Bool.not_eq_true _ ▸ hallowed⟩

theorem confirmNotFound_eq_ok {outcome : Bool × SubmissionRegistry D}
    {observedAtMs minimumIntervalMs : ℕ}
    (h : r.confirmNotFound cloid observedAtMs requiredConfirmations minimumIntervalMs =
      .ok outcome) :
    r.Performed (.confirmNotFound cloid observedAtMs requiredConfirmations minimumIntervalMs)
      outcome.2 := by
  unfold confirmNotFound at h
  split at h
  · cases h
  rename_i hconfig
  cases hget : r.byCloid[cloid]? with
  | none =>
    rw [hget] at h
    cases h
  | some entry =>
    obtain ⟨intent, current⟩ := entry
    simp only [hget] at h
    split at h
    · cases h
    rename_i hcurrent
    have hunknown : current.isUnknownResult = true := by simpa using hcurrent
    split at h
    · cases h
    rename_i hsoon
    have hsoon' : r.confirmationTooSoon cloid observedAtMs minimumIntervalMs = false := by
      simpa using hsoon
    have hconfig' : (decide (requiredConfirmations < 2) || minimumIntervalMs == 0) = false := by
      simpa using hconfig
    split at h
    · rename_i hmore
      obtain rfl := (Except.ok.inj h).symm
      refine .counted cloid observedAtMs requiredConfirmations minimumIntervalMs intent current
        hget hunknown ?_
      simp only [confirmationResolves, hmore, decide_true, Bool.not_true, Bool.and_false]
    · rename_i henough
      obtain rfl := (Except.ok.inj h).symm
      refine .resolved cloid observedAtMs requiredConfirmations minimumIntervalMs intent current
        hget hunknown ?_
      simp only [confirmationResolves, hconfig', hsoon', henough, decide_false, Bool.not_false,
        Bool.and_self]

/-- What a call that returns `Ok` has done. -/
theorem perform_eq_ok {call : RegistryCall D} (h : r.perform call = .ok next) :
    r.Performed call next := by
  cases call with
  | register intent => exact register_eq_ok h
  | transitionAt cloid target recordedAtMs => exact transitionAt_eq_ok h
  | confirmNotFound cloid observedAtMs requiredConfirmations minimumIntervalMs =>
    simp only [perform] at h
    cases hconfirm : r.confirmNotFound cloid observedAtMs requiredConfirmations
        minimumIntervalMs with
    | error e =>
      rw [hconfirm] at h
      cases h
    | ok outcome =>
      rw [hconfirm] at h
      obtain rfl := (Except.ok.inj h).symm
      exact confirmNotFound_eq_ok hconfirm

/-- **The inversion lemma.**  A step leaves the registry alone or has one of the effects of
`Performed`. -/
theorem perform_cases (r : SubmissionRegistry D) (call : RegistryCall D) :
    (∃ e, r.perform call = .error e ∧ r.step call = r) ∨ r.Performed call (r.step call) := by
  cases h : r.perform call with
  | error e => exact .inl ⟨e, rfl, by simp only [step, h]⟩
  | ok next =>
    refine .inr ?_
    have hstep : r.step call = next := by simp only [step, h]
    rw [hstep]
    exact perform_eq_ok h

theorem transitionApplies_of_error {current next : SubmissionState D} {e : SignerError}
    (hget : r.byCloid[cloid]? = some (intent, current))
    (h : r.perform (.transitionAt cloid next recordedAtMs) = .error e) :
    transitionApplies cloid current next = false := by
  by_contra happlies
  simp only [transitionApplies, Bool.not_eq_false, Bool.and_eq_true,
    Bool.not_eq_true'] at happlies
  simp only [perform, transitionAt, hget, happlies.1, happlies.2, Bool.false_eq_true,
    if_false] at h
  cases h

/-- A confirmation that is refused does not resolve an unknown entry. -/
theorem confirmationResolves_of_error {current : SubmissionState D}
    {observedAtMs minimumIntervalMs : ℕ} {e : SignerError}
    (hget : r.byCloid[cloid]? = some (intent, current))
    (h : r.perform (.confirmNotFound cloid observedAtMs requiredConfirmations
      minimumIntervalMs) = .error e) :
    (current.isUnknownResult && r.confirmationResolves cloid observedAtMs requiredConfirmations
      minimumIntervalMs) = false := by
  by_contra hresolves
  simp only [confirmationResolves, Bool.not_eq_false, Bool.and_eq_true, Bool.not_eq_true',
    decide_eq_false_iff_not] at hresolves
  obtain ⟨hunknown, ⟨hconfig, hsoon⟩, hmore⟩ := hresolves
  simp only [perform, confirmNotFound, hconfig, hget, hunknown, hsoon, hmore,
    Bool.not_true, Bool.false_eq_true, if_false] at h
  cases h

end SubmissionRegistry

def sampleIntent (cloid asset : String) (reduceOnly : Bool) : ApprovedExecutionIntent ℚ where
  decisionId := hex32 (Bytes.replicate 32 0x11)
  targetVersion := 1
  rootCloid := cloid
  cloid := cloid
  parentCloid := none
  continuationGeneration := 0
  asset := asset
  assetIndex := 0
  isBuy := true
  reduceOnly := reduceOnly
  limitPrice := 100
  quantity := 1
  riskProjectionHash := hex32 (Bytes.replicate 32 0x22)
  riskPolicyHash := hex32 (Bytes.replicate 32 0x33)
  configurationHash := hex32 (Bytes.replicate 32 0x44)
  releaseManifestHash := hex32 (Bytes.replicate 32 0x55)
  decisionReferencePrice := 100
  decisionTimestampMs := 1
  expiresAtMono := 1
  canonicalIntentHash := hex32 (Bytes.replicate 32 0x66)

def sampleCloid (byte : UInt8) : String := toHex (Bytes.replicate 16 byte)

end CopyTrade.Model
