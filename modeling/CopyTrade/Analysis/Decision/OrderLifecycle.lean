import CopyTrade.Foundation.Results
import CopyTrade.Foundation.Runs
import CopyTrade.Model.Core.Lifecycle

/-!
# The lifecycle of an order is monotone

Along a run of lifecycle events a final state is never left, the filled quantity never falls, an
order is taken for missing only after the confirmations the policy asks for, and an observation that
comes twice changes nothing the second time.
-/

namespace CopyTrade.Analysis

open Foundation Model

variable {D : Type} [Decimal D]

def isUnsubmitted : LifecycleState D → Bool
  | .decisionConstructed _ | .riskValidated _ | .actionPlanned _
  | .awaitingFutureSubmission _ => true
  | _ => false

def isSubmissionUnknown : LifecycleState D → Bool
  | .submissionUnknown _ _ _ _ => true
  | _ => false

def isReconciledNotFound : LifecycleState D → Bool
  | .reconciledNotFound _ => true
  | _ => false

def isFinal : LifecycleState D → Bool
  | .reconciledFilled _ _ _ | .reconciledCancelled _ _ | .reconciledRejected _ _ => true
  | _ => false

def isFound : LifecycleState D → Bool
  | .reconciledOpen _ _ | .reconciledPartiallyFilled _ _ _ | .reconciledFilled _ _ _
  | .reconciledCancelled _ _ | .reconciledRejected _ _ => true
  | _ => false

def isReplaceable : LifecycleState D → Bool
  | .submissionUnknown _ _ _ _ | .reconciledNotFound _ | .reconciledOpen _ _ => true
  | _ => false

def carriedQuantity : LifecycleState D → Option D
  | .reconciledPartiallyFilled _ _ filledQuantity | .reconciledFilled _ _ filledQuantity =>
    some filledQuantity
  | _ => none

def isPositive : ReconciliationObservation D → Bool
  | .notFound _ => false
  | _ => true

/-- A further confirmation at `observedAt`: in time, and the interval after the last one. -/
structure Confirms (policy : ReconciliationPolicy) (firstUnknownAt : ℕ)
    (confirmations : List ℕ) (observedAt : ℕ) : Prop where
  from_first : firstUnknownAt ≤ observedAt
  in_lifetime : observedAt ≤ firstUnknownAt + policy.maximumUnknownLifetimeMs
  interval : ∀ previous, confirmations.getLast? = some previous →
    previous + policy.minimumConfirmationIntervalMs ≤ observedAt

/-- The states an accepted observation leads to. -/
inductive Observed (policy : ReconciliationPolicy) (current : LifecycleState D)
    (observation : ReconciliationObservation D) : LifecycleState D → Prop
  | same (h : isPositive observation = true → isSubmissionUnknown current = false) :
      Observed policy current observation current
  | counted (action : Lifecycle.PlannedAction D) (firstUnknownAt : ℕ) (attempts : UInt32)
      (confirmations : List ℕ) (observedAt : ℕ)
      (hcurrent : current = .submissionUnknown action firstUnknownAt attempts confirmations)
      (hobservation : observation = .notFound observedAt)
      (hconfirms : Confirms policy firstUnknownAt confirmations observedAt)
      (hmore : ¬ policy.requiredNotFoundConfirmations ≤ UInt32.ofNat (confirmations.length + 1)) :
      Observed policy current observation
        (.submissionUnknown action firstUnknownAt (attempts + 1) (confirmations ++ [observedAt]))
  | resolved (action : Lifecycle.PlannedAction D) (firstUnknownAt : ℕ) (attempts : UInt32)
      (confirmations : List ℕ) (observedAt : ℕ)
      (hcurrent : current = .submissionUnknown action firstUnknownAt attempts confirmations)
      (hobservation : observation = .notFound observedAt)
      (hconfirms : Confirms policy firstUnknownAt confirmations observedAt)
      (henough : policy.requiredNotFoundConfirmations ≤ UInt32.ofNat (confirmations.length + 1)) :
      Observed policy current observation (.reconciledNotFound action)
  | found (action : Lifecycle.PlannedAction D) (next : LifecycleState D)
      (hcurrent : isReplaceable current = true)
      (hnext : positiveState action observation = .ok next) : Observed policy current observation next
  | grown (action : Lifecycle.PlannedAction D) (exchangeOrderRef : String) (filledQuantity : D)
      (next : LifecycleState D)
      (hcurrent : current = .reconciledPartiallyFilled action exchangeOrderRef filledQuantity)
      (hnext : positiveState action observation = .ok next)
      (hgrown : ∀ quantity, carriedQuantity next = some quantity →
        Decimal.le filledQuantity quantity = true)
      (hfinal : carriedQuantity next = none → isFinal next = true) :
      Observed policy current observation next

variable {action : Lifecycle.PlannedAction D} {next current : LifecycleState D}
  {observation : ReconciliationObservation D} {policy : ReconciliationPolicy}

theorem isFound_of_positiveState (h : positiveState action observation = .ok next) :
    isPositive observation = true ∧ isFound next = true := by
  cases observation with
  | notFound observedAt => cases h
  | opened orderRef originalQuantity remainingQuantity observedAt =>
    rw [positiveState] at h
    split at h
    · cases h
    split at h
    · cases h
    split at h
    · cases h
      exact ⟨rfl, rfl⟩
    · cases h
      exact ⟨rfl, rfl⟩
  | filled orderRef filledQuantity observedAt =>
    rw [positiveState] at h
    obtain ⟨u, -, h⟩ := of_bind h
    cases h
    exact ⟨rfl, rfl⟩
  | cancelled orderRef filledQuantity observedAt =>
    rw [positiveState] at h
    split at h
    · cases h
    · cases h
      exact ⟨rfl, rfl⟩
  | rejected reason observedAt =>
    cases h
    exact ⟨rfl, rfl⟩

theorem observed_of_observeNotFound {firstUnknownAt observedAt : ℕ} {attempts : UInt32}
    {confirmations : List ℕ} (hinterval : 0 < policy.minimumConfirmationIntervalMs)
    (hfirst : firstUnknownAt ≤ observedAt)
    (h : observeNotFound (.submissionUnknown action firstUnknownAt attempts confirmations) action
      firstUnknownAt attempts confirmations observedAt policy = .ok next) :
    Observed policy (.submissionUnknown action firstUnknownAt attempts confirmations)
      (.notFound observedAt) next := by
  unfold observeNotFound at h
  split at h
  · cases h
  rename_i hlifetime
  split at h
  · cases h
    exact .same fun hpositive => absurd hpositive Bool.false_ne_true
  split at h
  · cases h
  split at h
  · cases h
  rename_i hsoon
  have hconfirms : Confirms policy firstUnknownAt confirmations observedAt := by
    refine ⟨hfirst, by omega, ?_⟩
    intro previous hlast
    rw [hlast, Option.any_some, decide_eq_true_eq] at hsoon
    omega
  simp only [List.length_append, List.length_singleton] at h
  split at h
  · rename_i henough
    cases h
    exact .resolved action firstUnknownAt attempts confirmations observedAt rfl rfl hconfirms henough
  · rename_i hmore
    cases h
    exact .counted action firstUnknownAt attempts confirmations observedAt rfl rfl hconfirms hmore

variable {knownRef : Option String} {event : LifecycleEvent D} {events : List (LifecycleEvent D)}
  {start : LifecycleState D}

theorem reconcileKnownPositive_eq_ok
    (h : reconcileKnownPositive current action knownRef observation = .ok next) :
    next = current ∨
      positiveState action observation = .ok next ∧ replaceKnown current next = .ok next := by
  have hpositive : ∀ candidate, positiveState action observation = .ok candidate →
      (if candidate.eqv current then .ok current else replaceKnown current candidate) = .ok next →
      next = current ∨
        positiveState action observation = .ok next ∧ replaceKnown current next = .ok next := by
    intro candidate hcandidate hnext
    split at hnext
    · exact .inl (Except.ok.inj hnext).symm
    · have hsame : next = candidate := by
        unfold replaceKnown at hnext
        split at hnext
        · exact (Except.ok.inj hnext).symm
        · split at hnext
          · split at hnext
            · exact (Except.ok.inj hnext).symm
            · cases hnext
          · split at hnext
            · exact (Except.ok.inj hnext).symm
            · cases hnext
          · exact (Except.ok.inj hnext).symm
          · cases hnext
        · cases hnext
        · cases hnext
        · cases hnext
      subst hsame
      exact .inr ⟨hcandidate, hnext⟩
  unfold reconcileKnownPositive at h
  split at h
  · exact .inl (Except.ok.inj h).symm
  · cases h
  · split at h
    · cases h
    · obtain ⟨candidate, hcandidate, hnext⟩ := of_bind h
      exact hpositive candidate hcandidate hnext

theorem replaceKnown_partiallyFilled {exchangeOrderRef : String} {filledQuantity : D}
    (h : replaceKnown (.reconciledPartiallyFilled action exchangeOrderRef filledQuantity) next =
      .ok next) :
    (∀ quantity, carriedQuantity next = some quantity →
      Decimal.le filledQuantity quantity = true) ∧
      (carriedQuantity next = none → isFinal next = true) := by
  have hle : ∀ (quantity : D), (if Decimal.le filledQuantity quantity then
      (.ok next : Except TransitionError (LifecycleState D))
      else .error .reconciliationConflict) = .ok next →
      Decimal.le filledQuantity quantity = true := by
    intro quantity hquantity
    split at hquantity
    · assumption
    · cases hquantity
  cases next with
  | reconciledPartiallyFilled other ref quantity =>
    refine ⟨?_, fun hnone => (nomatch hnone)⟩
    rintro value ⟨⟩
    exact hle quantity h
  | reconciledFilled other ref quantity =>
    refine ⟨?_, fun hnone => (nomatch hnone)⟩
    rintro value ⟨⟩
    exact hle quantity h
  | reconciledCancelled other ref => exact ⟨fun _ hsome => (nomatch hsome), fun _ => rfl⟩
  | _ => cases h

/-- **The inversion lemma** of `apply_reconciliation_observation`. -/
theorem applyReconciliationObservation_eq_ok (hinterval : 0 < policy.minimumConfirmationIntervalMs)
    (h : applyReconciliationObservation current observation policy = .ok next) :
    Observed policy current observation next := by
  cases current with
  | submissionUnknown action firstUnknownAt attempts confirmations =>
    unfold applyReconciliationObservation at h
    dsimp only at h
    split at h
    · cases h
    rename_i hfirst
    cases observation with
    | notFound observedAt => exact observed_of_observeNotFound hinterval (Nat.le_of_not_lt hfirst) h
    | _ => exact .found action next rfl h
  | reconciledNotFound action =>
    unfold applyReconciliationObservation at h
    cases observation with
    | notFound observedAt =>
      cases h
      exact .same fun _ => rfl
    | _ => exact .found action next rfl h
  | reconciledOpen action exchangeOrderRef =>
    rcases reconcileKnownPositive_eq_ok h with rfl | ⟨hnext, -⟩
    · exact .same fun _ => rfl
    · exact .found action next rfl hnext
  | reconciledPartiallyFilled action exchangeOrderRef filledQuantity =>
    rcases reconcileKnownPositive_eq_ok h with rfl | ⟨hnext, hreplace⟩
    · exact .same fun _ => rfl
    · obtain ⟨hgrown, hfinal⟩ := replaceKnown_partiallyFilled hreplace
      exact .grown action exchangeOrderRef filledQuantity next rfl hnext hgrown hfinal
  | reconciledFilled action exchangeOrderRef filledQuantity =>
    rcases reconcileKnownPositive_eq_ok h with rfl | ⟨-, hreplace⟩
    · exact .same fun _ => rfl
    · cases hreplace
  | reconciledCancelled action exchangeOrderRef =>
    rcases reconcileKnownPositive_eq_ok h with rfl | ⟨-, hreplace⟩
    · exact .same fun _ => rfl
    · cases hreplace
  | reconciledRejected action reason =>
    unfold applyReconciliationObservation at h
    dsimp only at h
    split at h
    · split at h
      · cases h
        exact .same fun _ => rfl
      · cases h
    · cases h
      exact .same fun _ => rfl
    · cases h
  | _ => cases h

/-- The states an accepted event leads to. -/
inductive Moved (policy : ReconciliationPolicy) (current : LifecycleState D) :
    LifecycleEvent D → LifecycleState D → Prop
  | same (event : LifecycleEvent D)
      (hevent : ∀ observation, event ≠ .reconciliationObserved observation) :
      Moved policy current event current
  | advanced (event : LifecycleEvent D) (next : LifecycleState D)
      (hcurrent : isUnsubmitted current = true) (hnext : isUnsubmitted next = true)
      (hevent : ∀ observation, event ≠ .reconciliationObserved observation) :
      Moved policy current event next
  | unknown (action : Lifecycle.PlannedAction D) (observedAt : ℕ)
      (hcurrent : current = .awaitingFutureSubmission action)
      (hrequired : 0 < policy.requiredNotFoundConfirmations) :
      Moved policy current (.futureSubmissionUnknown observedAt)
        (.submissionUnknown action observedAt 0 [])
  | observed (observation : ReconciliationObservation D) (next : LifecycleState D)
      (h : Observed policy current observation next) :
      Moved policy current (.reconciliationObserved observation) next

theorem validate_eq_ok {validated : ReconciliationPolicy} (h : policy.validate = .ok validated) :
    validated = policy ∧ 0 < policy.requiredNotFoundConfirmations ∧
      0 < policy.minimumConfirmationIntervalMs := by
  unfold ReconciliationPolicy.validate at h
  split at h
  · cases h
  rename_i hvalid
  cases h
  simp only [Bool.or_eq_true, beq_iff_eq, not_or] at hvalid
  exact ⟨rfl, UInt32.pos_iff_ne_zero.mpr hvalid.1.1.1, Nat.pos_of_ne_zero hvalid.1.1.2⟩

/-- **The inversion lemma** of `apply_lifecycle_event`. -/
theorem applyLifecycleEvent_eq_ok (h : applyLifecycleEvent current event policy = .ok next) :
    Moved policy current event next := by
  unfold applyLifecycleEvent at h
  obtain ⟨validated, hvalidate, hmatch⟩ := of_bind h
  obtain ⟨rfl, hrequired, hinterval⟩ := validate_eq_ok hvalidate
  cases event with
  | riskValidated eventId =>
    cases current with
    | decisionConstructed decisionId =>
      dsimp only at hmatch
      split at hmatch
      · cases hmatch
        exact .advanced _ _ rfl rfl (by simp)
      · cases hmatch
    | riskValidated decisionId =>
      dsimp only at hmatch
      split at hmatch
      · cases hmatch
        exact .same _ (by simp)
      · cases hmatch
    | _ => cases hmatch
  | actionPlanned planned =>
    cases current with
    | riskValidated decisionId =>
      dsimp only at hmatch
      split at hmatch
      · cases hmatch
        exact .advanced _ _ rfl rfl (by simp)
      · cases hmatch
    | actionPlanned action =>
      dsimp only at hmatch
      split at hmatch
      · cases hmatch
        exact .same _ (by simp)
      · cases hmatch
    | _ => cases hmatch
  | awaitFutureSubmission =>
    cases current with
    | actionPlanned action =>
      cases hmatch
      exact .advanced _ _ rfl rfl (by simp)
    | awaitingFutureSubmission action =>
      cases hmatch
      exact .same _ (by simp)
    | _ => cases hmatch
  | futureSubmissionUnknown observedAt =>
    cases current with
    | awaitingFutureSubmission action =>
      cases hmatch
      exact .unknown action observedAt rfl hrequired
    | submissionUnknown action firstUnknownAt attempts confirmations =>
      dsimp only at hmatch
      split at hmatch
      · cases hmatch
        exact .same _ (by simp)
      · cases hmatch
    | _ => cases hmatch
  | reconciliationObserved observation =>
    refine .observed observation next (applyReconciliationObservation_eq_ok hinterval ?_)
    cases current <;> exact hmatch

theorem lifecycleStep_cases (policy : ReconciliationPolicy) (current : LifecycleState D)
    (event : LifecycleEvent D) :
    (∃ e, applyLifecycleEvent current event policy = .error e ∧
      lifecycleStep policy current event = current) ∨
      applyLifecycleEvent current event policy = .ok (lifecycleStep policy current event) ∧
        Moved policy current event (lifecycleStep policy current event) := by
  unfold lifecycleStep
  cases h : applyLifecycleEvent current event policy with
  | error e => exact .inl ⟨e, rfl, rfl⟩
  | ok next => exact .inr ⟨rfl, applyLifecycleEvent_eq_ok h⟩

/-- A later state keeps a final state and the filled quantity of an earlier one. -/
structure LifecycleKept (earlier later : LifecycleState D) : Prop where
  final : isFinal earlier = true → later = earlier
  filled : ∀ before after, carriedQuantity earlier = some before →
    carriedQuantity later = some after → Decimal.le before after = true

/-- What a step keeps, with what makes it transitive: a filled quantity is carried on until the
order is final. -/
structure LifecycleGrows (earlier later : LifecycleState D) : Prop where
  final : isFinal earlier = true → later = earlier
  filled : ∀ before, carriedQuantity earlier = some before →
    (∃ after, carriedQuantity later = some after ∧ Decimal.le before after = true) ∨
      carriedQuantity later = none ∧ isFinal later = true

theorem LifecycleGrows.refl (state : LifecycleState D) : LifecycleGrows state state :=
  ⟨fun _ => rfl, fun before h => .inl ⟨before, h, Decimal.le_iff.mpr le_rfl⟩⟩

theorem LifecycleGrows.trans {a b c : LifecycleState D} (hab : LifecycleGrows a b)
    (hbc : LifecycleGrows b c) : LifecycleGrows a c := by
  refine ⟨?_, ?_⟩
  · intro hfinal
    have hb := hab.final hfinal
    subst hb
    exact hbc.final hfinal
  · intro before ha
    rcases hab.filled before ha with ⟨middle, hb, hle⟩ | ⟨hb, hfinal⟩
    · rcases hbc.filled middle hb with ⟨after, hc, hle'⟩ | hdone
      · exact .inl ⟨after, hc,
          Decimal.le_iff.mpr ((Decimal.le_iff.mp hle).trans (Decimal.le_iff.mp hle'))⟩
      · exact .inr hdone
    · rw [hbc.final hfinal]
      exact .inr ⟨hb, hfinal⟩

theorem LifecycleGrows.kept {earlier later : LifecycleState D} (h : LifecycleGrows earlier later) :
    LifecycleKept earlier later := by
  refine ⟨h.final, ?_⟩
  intro before after hearlier hlater
  rcases h.filled before hearlier with ⟨value, hvalue, hle⟩ | ⟨hnone, -⟩
  · rw [hvalue] at hlater
    exact Option.some.inj hlater ▸ hle
  · rw [hnone] at hlater
    cases hlater

theorem lifecycleGrows_of_none {earlier later : LifecycleState D}
    (hfinal : isFinal earlier = false) (hnone : carriedQuantity earlier = none) :
    LifecycleGrows earlier later := by
  refine ⟨fun h => ?_, fun before h => ?_⟩
  · rw [hfinal] at h
    cases h
  · rw [hnone] at h
    cases h

theorem lifecycleGrows_step (policy : ReconciliationPolicy) (current : LifecycleState D)
    (event : LifecycleEvent D) : LifecycleGrows current (lifecycleStep policy current event) := by
  rcases lifecycleStep_cases policy current event with ⟨e, -, hsame⟩ | ⟨-, hmoved⟩
  · rw [hsame]
    exact .refl current
  generalize lifecycleStep policy current event = next at hmoved
  cases hmoved with
  | same event hevent => exact .refl current
  | advanced event next hcurrent hnext hevent =>
    cases current <;> first | exact lifecycleGrows_of_none rfl rfl | cases hcurrent
  | unknown action observedAt hcurrent hrequired =>
    subst hcurrent
    exact lifecycleGrows_of_none rfl rfl
  | observed observation next hobserved =>
    cases hobserved with
    | same h => exact .refl current
    | counted action firstUnknownAt attempts confirmations observedAt hcurrent =>
      subst hcurrent
      exact lifecycleGrows_of_none rfl rfl
    | resolved action firstUnknownAt attempts confirmations observedAt hcurrent =>
      subst hcurrent
      exact lifecycleGrows_of_none rfl rfl
    | found action next hcurrent hnext =>
      cases current <;> first | exact lifecycleGrows_of_none rfl rfl | cases hcurrent
    | grown action exchangeOrderRef filledQuantity next hcurrent hnext hgrown hfinal =>
      subst hcurrent
      refine ⟨fun h => absurd h Bool.false_ne_true, ?_⟩
      rintro before ⟨⟩
      cases hcarried : carriedQuantity next with
      | none => exact .inr ⟨rfl, hfinal hcarried⟩
      | some quantity => exact .inl ⟨quantity, rfl, hgrown quantity hcarried⟩

theorem lifecycleKept_run (policy : ReconciliationPolicy) (start : LifecycleState D)
    (events : List (LifecycleEvent D)) :
    (states (lifecycleStep policy) start events).Pairwise LifecycleKept :=
  (pairwise_states_iff_steps (C := fun _ _ => True) (fun _ _ _ => trivial)
    (fun current event _ => lifecycleGrows_step policy current event)
    (fun _ _ _ => LifecycleGrows.trans) (fun _ _ => LifecycleGrows.kept) start events).mpr (allSteps_of_forall (fun _ _ => trivial) start events)

theorem reconcileKnownPositive_self (hnext : positiveState action observation = .ok next)
    (hknown : knownRef = observation.orderRef) (hsome : observation.orderRef.isSome = true) :
    reconcileKnownPositive next action knownRef observation = .ok next := by
  subst hknown
  cases observation with
  | notFound observedAt => cases hsome
  | rejected reason observedAt => cases hsome
  | _ =>
    unfold reconcileKnownPositive
    simp only [ReconciliationObservation.orderRef, Option.any_some, bne_self_eq_false,
      Bool.false_eq_true, if_false, hnext, ok_bind, LifecycleState.eqv_refl, if_true]

theorem applyReconciliationObservation_positiveState
    (hnext : positiveState action observation = .ok next) :
    applyReconciliationObservation next observation policy = .ok next := by
  have hknown := reconcileKnownPositive_self hnext rfl
  cases observation with
  | notFound observedAt => cases hnext
  | opened orderRef originalQuantity remainingQuantity observedAt =>
    have h := hnext
    rw [positiveState] at h
    split at h
    · cases h
    split at h
    · cases h
    split at h
    · cases h
      exact hknown rfl
    · cases h
      exact hknown rfl
  | filled orderRef filledQuantity observedAt =>
    have h := hnext
    rw [positiveState] at h
    obtain ⟨u, -, h'⟩ := of_bind h
    cases h'
    exact hknown rfl
  | cancelled orderRef filledQuantity observedAt =>
    have h := hnext
    rw [positiveState] at h
    split at h
    · cases h
    · cases h
      exact hknown rfl
  | rejected reason observedAt =>
    cases hnext
    exact if_pos rfl

/-- **Repeated observations.**  An observation that was accepted is accepted again and changes
nothing. -/
theorem applyReconciliationObservation_again (hinterval : 0 < policy.minimumConfirmationIntervalMs)
    (h : applyReconciliationObservation current observation policy = .ok next) :
    applyReconciliationObservation next observation policy = .ok next := by
  cases applyReconciliationObservation_eq_ok hinterval h with
  | same hsame => exact h
  | counted action firstUnknownAt attempts confirmations observedAt hcurrent hobservation
      hconfirms hmore =>
    subst hobservation
    have hfirst : ¬ observedAt < firstUnknownAt := Nat.not_lt.mpr hconfirms.from_first
    have hlifetime : ¬ policy.maximumUnknownLifetimeMs < observedAt - firstUnknownAt := by
      have hle := hconfirms.in_lifetime
      omega
    unfold applyReconciliationObservation
    dsimp only
    rw [if_neg (show ¬ (ReconciliationObservation.notFound (D := D) observedAt).observedAt <
      firstUnknownAt from hfirst)]
    unfold observeNotFound
    rw [if_neg hlifetime, if_pos (by simp)]
  | resolved action firstUnknownAt attempts confirmations observedAt hcurrent hobservation
      hconfirms henough =>
    subst hobservation
    rfl
  | found action next hcurrent hnext => exact applyReconciliationObservation_positiveState hnext
  | grown action exchangeOrderRef filledQuantity next hcurrent hnext hgrown hfinal =>
    exact applyReconciliationObservation_positiveState hnext

theorem applyLifecycleEvent_observed_iff :
    applyLifecycleEvent current (.reconciliationObserved observation) policy = .ok next ↔
      policy.validate = .ok policy ∧
        applyReconciliationObservation current observation policy = .ok next := by
  unfold applyLifecycleEvent
  rw [bind_eq_ok_iff]
  constructor
  · rintro ⟨validated, hvalidate, hmatch⟩
    obtain ⟨rfl, -⟩ := validate_eq_ok hvalidate
    exact ⟨hvalidate, by cases current <;> exact hmatch⟩
  · rintro ⟨hvalidate, happly⟩
    exact ⟨policy, hvalidate, by cases current <;> exact happly⟩

theorem lifecycleStep_again (policy : ReconciliationPolicy) (current : LifecycleState D)
    (observation : ReconciliationObservation D) :
    lifecycleStep policy (lifecycleStep policy current (.reconciliationObserved observation))
        (.reconciliationObserved observation) =
      lifecycleStep policy current (.reconciliationObserved observation) := by
  cases h : applyLifecycleEvent current (.reconciliationObserved observation) policy with
  | error e =>
    have hsame : lifecycleStep policy current (.reconciliationObserved observation) = current := by
      simp only [lifecycleStep, h]
    rw [hsame, hsame]
  | ok next =>
    obtain ⟨hvalidate, happly⟩ := applyLifecycleEvent_observed_iff.mp h
    obtain ⟨-, -, hinterval⟩ := validate_eq_ok hvalidate
    have hagain := applyLifecycleEvent_observed_iff.mpr
      ⟨hvalidate, applyReconciliationObservation_again hinterval happly⟩
    simp only [lifecycleStep, h, hagain]

/-- The times at which the order was observed to be missing. -/
def notFoundTimes (events : List (LifecycleEvent D)) : List ℕ :=
  events.filterMap fun
    | .reconciliationObserved (.notFound observedAt) => some observedAt
    | _ => none

/-- The event is an observation of the order, and it is accepted. -/
def AcceptsPositive (policy : ReconciliationPolicy) (current : LifecycleState D)
    (event : LifecycleEvent D) : Prop :=
  ∃ observation next, event = .reconciliationObserved observation ∧
    isPositive observation = true ∧ applyLifecycleEvent current event policy = .ok next

/-- Among the events after the submission became unknown at `firstUnknownAt` the order was
observed missing at `times`, pairwise the interval apart and within the lifetime, and no
observation of it was accepted. -/
def MissingAt (policy : ReconciliationPolicy) (start : LifecycleState D)
    (events : List (LifecycleEvent D)) (firstUnknownAt : ℕ) (times : List ℕ) : Prop :=
  ∃ before since action,
    events = before ++ .futureSubmissionUnknown firstUnknownAt :: since ∧
    run (lifecycleStep policy) start before = .awaitingFutureSubmission action ∧
    times.Sublist (notFoundTimes since) ∧
    times.Pairwise (fun earlier later =>
      earlier + policy.minimumConfirmationIntervalMs ≤ later) ∧
    (∀ observedAt ∈ times, firstUnknownAt ≤ observedAt ∧
      observedAt ≤ firstUnknownAt + policy.maximumUnknownLifetimeMs) ∧
    AllSteps (lifecycleStep policy) (fun current event => ¬ AcceptsPositive policy current event)
      (run (lifecycleStep policy) start (before ++ [.futureSubmissionUnknown firstUnknownAt])) since

section

variable {policy : ReconciliationPolicy} {start : LifecycleState D}
  {events : List (LifecycleEvent D)} {firstUnknownAt : ℕ} {times : List ℕ}

theorem missingAt_start {action : Lifecycle.PlannedAction D}
    (hstate : run (lifecycleStep policy) start events = .awaitingFutureSubmission action) :
    MissingAt policy start (events ++ [.futureSubmissionUnknown firstUnknownAt]) firstUnknownAt
      [] :=
  ⟨events, [], action, rfl, hstate, List.nil_sublist _, List.Pairwise.nil,
    fun _ hmem => (List.not_mem_nil hmem).elim, trivial⟩

theorem missingAt_snoc (h : MissingAt policy start events firstUnknownAt times)
    {event : LifecycleEvent D}
    (hevent : ¬ AcceptsPositive policy (run (lifecycleStep policy) start events) event) :
    MissingAt policy start (events ++ [event]) firstUnknownAt times := by
  obtain ⟨before, since, action, rfl, hstate, hsublist, hpairwise, hbounds, hsteps⟩ := h
  refine ⟨before, since ++ [event], action, ?_, hstate, ?_, hpairwise, hbounds, ?_⟩
  · rw [List.append_assoc, List.cons_append]
  · unfold notFoundTimes
    rw [List.filterMap_append]
    exact hsublist.trans (List.sublist_append_left _ _)
  · refine allSteps_append.mpr ⟨hsteps, ?_, trivial⟩
    rw [← run_append, List.append_assoc, List.singleton_append]
    exact hevent

theorem missingAt_confirm (h : MissingAt policy start events firstUnknownAt times)
    {observedAt : ℕ} (hconfirms : Confirms policy firstUnknownAt times observedAt) :
    MissingAt policy start (events ++ [.reconciliationObserved (.notFound observedAt)])
      firstUnknownAt (times ++ [observedAt]) := by
  have hevent : ¬ AcceptsPositive policy (run (lifecycleStep policy) start events)
      (.reconciliationObserved (.notFound observedAt)) := by
    rintro ⟨observation, next, hsame, hpositive, -⟩
    cases hsame
    cases hpositive
  obtain ⟨before, since, action, rfl, hstate, hsublist, hpairwise, hbounds, hsteps⟩ := h
  refine ⟨before, since ++ [.reconciliationObserved (.notFound observedAt)], action, ?_, hstate,
    ?_, ?_, ?_, ?_⟩
  · rw [List.append_assoc, List.cons_append]
  · unfold notFoundTimes
    rw [List.filterMap_append]
    exact hsublist.append (List.Sublist.refl _)
  · rw [List.pairwise_append]
    refine ⟨hpairwise, List.pairwise_singleton _ _, ?_⟩
    intro earlier hmem later hlater
    rw [List.mem_singleton] at hlater
    subst hlater
    -- Every confirmation is at most the last one, which the interval is counted from.
    obtain ⟨previous, hprevious⟩ : ∃ previous, times.getLast? = some previous := by
      cases hlast : times.getLast? with
      | none =>
        rw [List.getLast?_eq_none_iff] at hlast
        rw [hlast] at hmem
        exact absurd hmem List.not_mem_nil
      | some previous => exact ⟨previous, rfl⟩
    have hinterval := hconfirms.interval previous hprevious
    obtain ⟨initial, rfl⟩ := List.getLast?_eq_some_iff.mp hprevious
    rw [List.mem_append, List.mem_singleton] at hmem
    rcases hmem with hinitial | rfl
    · have hle := (List.pairwise_append.mp hpairwise).2.2 earlier hinitial previous
        (List.mem_singleton.mpr rfl)
      omega
    · exact hinterval
  · intro value hmem
    rw [List.mem_append, List.mem_singleton] at hmem
    rcases hmem with hold | rfl
    · exact hbounds value hold
    · exact ⟨hconfirms.from_first, hconfirms.in_lifetime⟩
  · refine allSteps_append.mpr ⟨hsteps, ?_, trivial⟩
    rw [← run_append, List.append_assoc, List.singleton_append]
    exact hevent

end

def ConfirmationsStand (policy : ReconciliationPolicy) (start : LifecycleState D)
    (events : List (LifecycleEvent D)) : Prop :=
  ∀ action firstUnknownAt attempts confirmations,
    run (lifecycleStep policy) start events =
      .submissionUnknown action firstUnknownAt attempts confirmations →
    confirmations.length < policy.requiredNotFoundConfirmations.toNat ∧
      MissingAt policy start events firstUnknownAt confirmations

theorem confirmationsStand_snoc (h : ConfirmationsStand policy start events)
    (event : LifecycleEvent D) : ConfirmationsStand policy start (events ++ [event]) := by
  intro action firstUnknownAt attempts confirmations hstate
  rw [run_append, run_cons, run_nil] at hstate
  -- Where the state is kept, so are the confirmations.
  have hkeep (hevent : ¬ AcceptsPositive policy (run (lifecycleStep policy) start events) event)
      (hsame : run (lifecycleStep policy) start events =
        .submissionUnknown action firstUnknownAt attempts confirmations) :
      confirmations.length < policy.requiredNotFoundConfirmations.toNat ∧
        MissingAt policy start (events ++ [event]) firstUnknownAt confirmations := by
    obtain ⟨hlength, hmissing⟩ := h action firstUnknownAt attempts confirmations hsame
    exact ⟨hlength, missingAt_snoc hmissing hevent⟩
  rcases lifecycleStep_cases policy (run (lifecycleStep policy) start events) event with
    ⟨e, herror, hsame⟩ | ⟨-, hmoved⟩
  · refine hkeep ?_ (hsame.symm.trans hstate)
    rintro ⟨observation, next, -, -, haccepted⟩
    rw [herror] at haccepted
    cases haccepted
  rw [hstate] at hmoved
  generalize hcurrent : run (lifecycleStep policy) start events = current at hmoved hkeep
  generalize hnext : LifecycleState.submissionUnknown action firstUnknownAt attempts confirmations =
    next at hmoved hkeep
  cases hmoved with
  | same event hevent =>
    refine hkeep ?_ rfl
    rintro ⟨observation, next, hobservation, -, -⟩
    exact hevent observation hobservation
  | advanced event next hbefore hafter hevent =>
    subst hnext
    cases hafter
  | unknown action observedAt hawaiting hrequired =>
    cases hnext
    exact ⟨UInt32.lt_iff_toNat_lt.mp hrequired, missingAt_start (hcurrent.trans hawaiting)⟩
  | observed observation next hobserved =>
    cases hobserved with
    | same hpositive =>
      refine hkeep ?_ rfl
      rintro ⟨other, state, hother, hpos, -⟩
      cases hother
      have hunknown := hpositive hpos
      rw [← hnext] at hunknown
      cases hunknown
    | counted action firstUnknownAt attempts confirmations observedAt hbefore hobservation
        hconfirms hmore =>
      cases hnext
      subst hobservation
      obtain ⟨hlength, hmissing⟩ := h _ _ _ _ (hcurrent.trans hbefore)
      refine ⟨?_, missingAt_confirm hmissing hconfirms⟩
      rw [List.length_append, List.length_singleton]
      have hbound := policy.requiredNotFoundConfirmations.toNat_lt
      rw [UInt32.le_iff_toNat_le, UInt32.toNat_ofNat', Nat.mod_eq_of_lt (by omega)] at hmore
      omega
    | resolved action firstUnknownAt attempts confirmations observedAt hbefore hobservation
        hconfirms henough => cases hnext
    | found action next hbefore hafter =>
      have hfound := (isFound_of_positiveState hafter).2
      rw [← hnext] at hfound
      cases hfound
    | grown action exchangeOrderRef filledQuantity next hbefore hafter hgrown hfinal =>
      have hfound := (isFound_of_positiveState hafter).2
      rw [← hnext] at hfound
      cases hfound

theorem confirmationsStand_run (policy : ReconciliationPolicy) (decisionId : Hash)
    (events : List (LifecycleEvent D)) :
    ConfirmationsStand policy (.decisionConstructed decisionId) events := by
  induction events using List.reverseRecOn with
  | nil =>
    intro action firstUnknownAt attempts confirmations hstate
    cases hstate
  | append_singleton events event ih => exact confirmationsStand_snoc ih event

theorem missingAt_of_enters (h : ConfirmationsStand policy start events)
    (hbefore : isReconciledNotFound (run (lifecycleStep policy) start events) = false)
    (hafter : isReconciledNotFound
      (lifecycleStep policy (run (lifecycleStep policy) start events) event) = true) :
    ∃ firstUnknownAt times, times.length = policy.requiredNotFoundConfirmations.toNat ∧
      MissingAt policy start (events ++ [event]) firstUnknownAt times := by
  rcases lifecycleStep_cases policy (run (lifecycleStep policy) start events) event with
    ⟨e, herror, hsame⟩ | ⟨-, hmoved⟩
  · rw [hsame, hbefore] at hafter
    cases hafter
  generalize hcurrent : run (lifecycleStep policy) start events = current at hmoved hbefore hafter
  generalize lifecycleStep policy current event = next at hmoved hafter
  cases hmoved with
  | same event hevent =>
    rw [hbefore] at hafter
    cases hafter
  | advanced event next hunsubmitted hnext hevent =>
    cases next <;>
      first
      | exact absurd hafter Bool.false_ne_true
      | exact absurd hnext Bool.false_ne_true
  | unknown action observedAt hawaiting hrequired => cases hafter
  | observed observation next hobserved =>
    cases hobserved with
    | same hpositive =>
      rw [hbefore] at hafter
      cases hafter
    | counted => cases hafter
    | resolved action firstUnknownAt attempts confirmations observedAt hunknown hobservation
        hconfirms henough =>
      subst hobservation
      obtain ⟨hlength, hmissing⟩ := h _ _ _ _ (hcurrent.trans hunknown)
      refine ⟨firstUnknownAt, confirmations ++ [observedAt], ?_,
        missingAt_confirm hmissing hconfirms⟩
      rw [List.length_append, List.length_singleton]
      rw [UInt32.le_iff_toNat_le, UInt32.toNat_ofNat', Nat.mod_eq_of_lt (by omega)] at henough
      omega
    | found action next hreplaceable hnext =>
      have hfound := (isFound_of_positiveState hnext).2
      cases next <;>
        first
        | exact absurd hafter Bool.false_ne_true
        | exact absurd hfound Bool.false_ne_true
    | grown action exchangeOrderRef filledQuantity next hpartial hnext hgrown hfinal =>
      have hfound := (isFound_of_positiveState hnext).2
      cases next <;>
        first
        | exact absurd hafter Bool.false_ne_true
        | exact absurd hfound Bool.false_ne_true

/-- **Order lifecycle monotonicity.**  Along every run final states and filled quantities are kept;
the event that enters `ReconciledNotFound` completes the confirmations of the policy; and an
observation that comes twice does what it does once. -/
theorem order_lifecycle_monotone (policy : ReconciliationPolicy) (decisionId : Hash)
    (events : List (LifecycleEvent D)) :
    (states (lifecycleStep policy) (.decisionConstructed decisionId) events).Pairwise
        LifecycleKept ∧
      (∀ event : LifecycleEvent D,
        isReconciledNotFound (run (lifecycleStep policy) (.decisionConstructed decisionId)
          events) = false →
        isReconciledNotFound (lifecycleStep policy (run (lifecycleStep policy)
          (.decisionConstructed decisionId) events) event) = true →
        ∃ firstUnknownAt times, times.length = policy.requiredNotFoundConfirmations.toNat ∧
          MissingAt policy (.decisionConstructed decisionId) (events ++ [event]) firstUnknownAt
            times) ∧
      ∀ observation : ReconciliationObservation D,
        run (lifecycleStep policy) (.decisionConstructed decisionId)
            (events ++ [.reconciliationObserved observation,
              .reconciliationObserved observation]) =
          run (lifecycleStep policy) (.decisionConstructed decisionId)
            (events ++ [.reconciliationObserved observation]) := by
  refine ⟨lifecycleKept_run policy _ events, ?_, ?_⟩
  · intro event hbefore hafter
    exact missingAt_of_enters (confirmationsStand_run policy decisionId events) hbefore hafter
  · intro observation
    rw [run_append, run_append]
    exact lifecycleStep_again policy _ observation

def twoConfirmations : ReconciliationPolicy where
  requiredNotFoundConfirmations := 2
  minimumConfirmationIntervalMs := 1000
  maximumAttempts := 4
  maximumUnknownLifetimeMs := 10000

/-- An order whose submission is unknown from 500 on and that is missing at 1500. -/
def missingOnce : List (LifecycleEvent ℚ) :=
  let action : Lifecycle.PlannedAction ℚ :=
    ⟨default, 1, "BTC", .buy, 100, false, 0, 0, default⟩
  [.riskValidated default, .actionPlanned action, .awaitFutureSubmission,
    .futureSubmissionUnknown 500, .reconciliationObserved (.notFound 1500)]

theorem order_lifecycle_monotone_missing :
    ∃ firstUnknownAt times, times.length = twoConfirmations.requiredNotFoundConfirmations.toNat ∧
      MissingAt twoConfirmations (.decisionConstructed default)
        (missingOnce ++ [.reconciliationObserved (.notFound 2500)]) firstUnknownAt times :=
  (order_lifecycle_monotone twoConfirmations default missingOnce).2.1
    (.reconciliationObserved (.notFound 2500)) (by decide +kernel) (by decide +kernel)

end CopyTrade.Analysis
