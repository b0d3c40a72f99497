import CopyTrade.Model.Signer.RegistryCalls

/-!
# Exchange evidence in the signer's registry

An order id that differs from the cloid is never replaced and a terminal state is never left.  The
filled quantity is compared only between two partial fills: a partial fill may be followed by a fill
or a cancellation of a smaller quantity, and exactly these transitions lose quantity.
-/

namespace CopyTrade.Analysis

open Foundation Model Model.SubmissionRegistry

variable {D : Type} [Decimal D]

def filledQuantity : SubmissionState D → Option D
  | .partiallyFilled _ filled | .filled _ filled | .cancelled _ filled => some filled
  | _ => none

/-- The evidence of `earlier` stands in `later`: an exchange order id, being one that differs
from the cloid, is not replaced by another one, the filled quantity has not decreased, and a
terminal state has not changed. -/
structure EvidenceKept (cloid : String) (earlier later : SubmissionState D) : Prop where
  order : ∀ orderId other, earlier.orderId = some orderId → orderId ≠ cloid →
    later.orderId = some other → other = orderId
  filled : ∀ before after, filledQuantity earlier = some before → filledQuantity later = some after →
    Decimal.le before after = true
  terminal : earlier.isTerminal = true → later = earlier

def EvidenceStands (earlier later : SubmissionRegistry D) : Prop :=
  ∀ cloid before after, earlier.state cloid = some before → later.state cloid = some after →
    EvidenceKept cloid before after

/-- The filled quantity falls from a partial fill to a fill or a cancellation. -/
def quantityFalls : SubmissionState D → SubmissionState D → Bool
  | .partiallyFilled _ before, .filled _ after => Decimal.lt after before
  | .partiallyFilled _ before, .cancelled _ after => Decimal.lt after before
  | _, _ => false

/-- The call moves no cloid from a partial fill to a fill or a cancellation of less. -/
def keepsQuantity (r : SubmissionRegistry D) : RegistryCall D → Bool
  | .transitionAt cloid next _ =>
    match r.state cloid with
    | none => true
    | some current => !(transitionApplies cloid current next && quantityFalls current next)
  | _ => true

/-- What the relation along a run has to say to be transitive: a state with evidence is followed
by states with evidence, or is terminal. -/
structure EvidenceGrows (cloid : String) (earlier later : SubmissionState D) : Prop where
  order : ∀ orderId, earlier.orderId = some orderId → orderId ≠ cloid →
    later.orderId = some orderId ∨ later.orderId = none ∧ later.isTerminal = true
  filled : ∀ before, filledQuantity earlier = some before →
    ∃ after, filledQuantity later = some after ∧ Decimal.le before after = true
  terminal : earlier.isTerminal = true → later = earlier

theorem EvidenceGrows.refl (cloid : String) (state : SubmissionState D) :
    EvidenceGrows cloid state state :=
  ⟨fun _ h _ => .inl h, fun before h => ⟨before, h, Decimal.le_iff.mpr le_rfl⟩, fun _ => rfl⟩

variable {cloid : String} {current next : SubmissionState D}

theorem EvidenceGrows.trans {a b c : SubmissionState D} (hab : EvidenceGrows cloid a b)
    (hbc : EvidenceGrows cloid b c) : EvidenceGrows cloid a c := by
  refine ⟨?_, ?_, ?_⟩
  · intro orderId ha hne
    rcases hab.order orderId ha hne with hb | ⟨hb, hterminal⟩
    · exact hbc.order orderId hb hne
    · rw [hbc.terminal hterminal]
      exact .inr ⟨hb, hterminal⟩
  · intro before ha
    obtain ⟨middle, hb, hle⟩ := hab.filled before ha
    obtain ⟨after, hc, hle'⟩ := hbc.filled middle hb
    exact ⟨after, hc, Decimal.le_iff.mpr ((Decimal.le_iff.mp hle).trans (Decimal.le_iff.mp hle'))⟩
  · intro hterminal
    have hb := hab.terminal hterminal
    subst hb
    exact hbc.terminal hterminal

theorem EvidenceGrows.kept {earlier later : SubmissionState D}
    (h : EvidenceGrows cloid earlier later) : EvidenceKept cloid earlier later := by
  refine ⟨?_, ?_, h.terminal⟩
  · intro orderId other hearlier hne hlater
    rcases h.order orderId hearlier hne with hsame | ⟨hnone, -⟩
    · rw [hsame] at hlater
      exact (Option.some.inj hlater).symm
    · rw [hnone] at hlater
      cases hlater
  · intro before after hearlier hlater
    obtain ⟨value, hvalue, hle⟩ := h.filled before hearlier
    rw [hvalue] at hlater
    exact Option.some.inj hlater ▸ hle

omit [Decimal D] in
theorem not_isTerminal_of_validTransition (h : validTransition current next = true) :
    current.isTerminal = false := by
  cases current <;> first | rfl | (cases next <;> exact absurd h Bool.false_ne_true)

omit [Decimal D] in
theorem orderId_of_validTransition (h : validTransition current next = true)
    (hcurrent : current.orderId.isSome = true) :
    next.orderId.isSome = true ∨ next.isTerminal = true := by
  cases current <;> cases next <;>
    first
    | exact .inl rfl
    | exact .inr rfl
    | exact absurd h Bool.false_ne_true
    | exact absurd hcurrent Bool.false_ne_true

theorem transitionApplies_iff :
    transitionApplies cloid current next = true ↔
      current.eqv next = false ∧ transitionRefused cloid current next = false := by
  simp [transitionApplies]

theorem order_of_transitionApplies (h : transitionApplies cloid current next = true)
    {orderId : String} (hcurrent : current.orderId = some orderId) (hne : orderId ≠ cloid) :
    next.orderId = some orderId ∨ next.orderId = none ∧ next.isTerminal = true := by
  have hrefused := (transitionApplies_iff.mp h).2
  unfold transitionRefused at hrefused
  simp only [Bool.or_eq_false_iff, Bool.not_eq_false'] at hrefused
  obtain ⟨⟨⟨hsame, -⟩, -⟩, hvalid⟩ := hrefused
  cases hnext : next.orderId with
  | some other =>
    rw [hcurrent, hnext] at hsame
    simp only [Bool.and_eq_false_iff, bne_eq_false_iff_eq] at hsame
    rcases hsame with hcloid | hother
    · exact absurd hcloid hne
    · exact .inl (by rw [hother])
  | none =>
    refine .inr ⟨rfl, ?_⟩
    have hevidence := orderId_of_validTransition hvalid (by rw [hcurrent]; rfl)
    rw [hnext] at hevidence
    exact hevidence.resolve_left Bool.false_ne_true

theorem filled_of_transitionApplies (h : transitionApplies cloid current next = true) {before : D}
    (hcurrent : filledQuantity current = some before) :
    ∃ after, filledQuantity next = some after ∧
      (Decimal.le before after = true ↔ quantityFalls current next = false) := by
  have hrefused := (transitionApplies_iff.mp h).2
  unfold transitionRefused at hrefused
  simp only [Bool.or_eq_false_iff, Bool.not_eq_false'] at hrefused
  obtain ⟨⟨-, hpartial⟩, hvalid⟩ := hrefused
  have hle : ∀ after : D, Decimal.le before after = true ↔ Decimal.lt after before = false := by
    intro after
    rw [Decimal.le_iff, ← Bool.not_eq_true, Decimal.lt_iff, not_lt]
  cases current with
  | partiallyFilled orderId filled =>
    cases hcurrent
    cases next with
    | partiallyFilled other after =>
      refine ⟨after, rfl, ?_⟩
      simp only [Bool.or_eq_false_iff] at hpartial
      exact iff_of_true ((hle after).mpr hpartial.2) rfl
    | filled other after => exact ⟨after, rfl, hle after⟩
    | cancelled other after => exact ⟨after, rfl, hle after⟩
    | _ => exact absurd hvalid Bool.false_ne_true
  | filled orderId filled => cases next <;> exact absurd hvalid Bool.false_ne_true
  | cancelled orderId filled => cases next <;> exact absurd hvalid Bool.false_ne_true
  | _ => cases hcurrent

theorem evidenceGrows_of_transition (h : transitionApplies cloid current next = true)
    (hquantity : quantityFalls current next = false) : EvidenceGrows cloid current next := by
  refine ⟨fun orderId hcurrent hne => order_of_transitionApplies h hcurrent hne, ?_, ?_⟩
  · intro before hcurrent
    obtain ⟨after, hnext, hle⟩ := filled_of_transitionApplies h hcurrent
    exact ⟨after, hnext, hle.mpr hquantity⟩
  · intro hterminal
    have hrefused := (transitionApplies_iff.mp h).2
    unfold transitionRefused at hrefused
    simp only [Bool.or_eq_false_iff, Bool.not_eq_false'] at hrefused
    rw [not_isTerminal_of_validTransition hrefused.2] at hterminal
    cases hterminal

theorem quantityFalls_of_kept (h : EvidenceKept cloid current next) :
    quantityFalls current next = false := by
  cases hfalls : quantityFalls current next with
  | false => rfl
  | true =>
    cases current with
    | partiallyFilled orderId before =>
      cases next with
      | filled other after =>
        have hle := Decimal.le_iff.mp (h.filled before after rfl rfl)
        exact absurd (Decimal.lt_iff.mp hfalls) (not_lt.mpr hle)
      | cancelled other after =>
        have hle := Decimal.le_iff.mp (h.filled before after rfl rfl)
        exact absurd (Decimal.lt_iff.mp hfalls) (not_lt.mpr hle)
      | _ => cases hfalls
    | _ => cases hfalls

theorem evidenceGrows_step {r : SubmissionRegistry D} {call : RegistryCall D}
    (h : keepsQuantity r call = true) (cloid : String) {before : SubmissionState D}
    (hbefore : r.state cloid = some before) :
    ∃ after, (r.step call).state cloid = some after ∧ EvidenceGrows cloid before after := by
  rcases perform_cases r call with ⟨e, -, hsame⟩ | hperformed
  · rw [hsame]
    exact ⟨before, hbefore, .refl cloid before⟩
  generalize r.step call = r' at hperformed
  have hother : ∀ {key : String} {value : ApprovedExecutionIntent D × SubmissionState D},
      key ≠ cloid → (r.byCloid.insert key value)[cloid]?.map Prod.snd = some before := by
    intro key value hne
    rw [getElem?_insert_of_ne hne]
    exact hbefore
  cases hperformed with
  | registered intent hvalid hfresh hopen hroom =>
    refine ⟨before, hother ?_, .refl cloid before⟩
    rintro rfl
    rw [state, hfresh] at hbefore
    cases hbefore
  | repeated => exact ⟨before, hbefore, .refl cloid before⟩
  | counted => exact ⟨before, hbefore, .refl cloid before⟩
  | moved key next recordedAtMs intent current hget happlies =>
    by_cases hkey : key = cloid
    · subst hkey
      obtain rfl : current = before := by
        rw [state, hget] at hbefore
        exact Option.some.inj hbefore
      have hquantity : quantityFalls current next = false := by
        simpa [keepsQuantity, hbefore, happlies] using h
      refine ⟨next, ?_, evidenceGrows_of_transition happlies hquantity⟩
      simp only [state, getElem?_insert_eq, if_true, Option.map_some]
    · exact ⟨before, hother hkey, .refl cloid before⟩
  | resolved key observedAtMs requiredConfirmations minimumIntervalMs intent current hget
      hunknown hresolves =>
    by_cases hkey : key = cloid
    · subst hkey
      obtain rfl : current = before := by
        rw [state, hget] at hbefore
        exact Option.some.inj hbefore
      refine ⟨.reconciledNotFound, ?_, ?_⟩
      · simp only [state, getElem?_insert_eq, if_true, Option.map_some]
      · -- The state before is `UnknownResult`, which carries no evidence.
        cases current with
        | unknownResult nonce =>
          exact ⟨fun _ hid => (nomatch hid), fun _ hfilled => (nomatch hfilled),
            fun hterminal => (nomatch hterminal)⟩
        | _ => cases hunknown
    · exact ⟨before, hother hkey, .refl cloid before⟩

theorem keepsQuantity_of_stands {r : SubmissionRegistry D} {call : RegistryCall D}
    (h : EvidenceStands r (r.step call)) : keepsQuantity r call = true := by
  cases call with
  | register intent => rfl
  | confirmNotFound cloid observedAtMs requiredConfirmations minimumIntervalMs => rfl
  | transitionAt cloid next recordedAtMs =>
    unfold keepsQuantity
    dsimp only
    cases hcurrent : r.state cloid with
    | none => rfl
    | some current =>
      cases happlies : transitionApplies cloid current next with
      | false => simp only [happlies, Bool.false_and, Bool.not_false]
      | true =>
        obtain ⟨heqv, hrefused⟩ := transitionApplies_iff.mp happlies
        obtain ⟨⟨intent, state⟩, hget, rfl⟩ := Option.map_eq_some_iff.mp hcurrent
        have hnext : (r.step (.transitionAt cloid next recordedAtMs)).state cloid = some next := by
          simp only [step, perform, transitionAt, hget, heqv, hrefused, Bool.false_eq_true,
            if_false, SubmissionRegistry.state, getElem?_insert_eq, if_true, Option.map_some]
        have hkept := h cloid _ next hcurrent hnext
        simp only [quantityFalls_of_kept hkept, Bool.and_false, Bool.not_false]

/-- **Exchange evidence along a run.**  The evidence of every state stands in every later one
iff no call of the run moves a cloid from a partial fill to a fill or a cancellation of less. -/
theorem exchange_evidence_iff (start : SubmissionRegistry D) (calls : List (RegistryCall D)) :
    (states step start calls).Pairwise EvidenceStands ↔
      AllSteps step (fun r call => keepsQuantity r call = true) start calls := by
  refine pairwise_states_iff_steps
    (R := fun earlier later => ∀ cloid before, earlier.state cloid = some before →
      ∃ after, later.state cloid = some after ∧ EvidenceGrows cloid before after)
    ?_ ?_ ?_ ?_ start calls
  · intro r call
    exact keepsQuantity_of_stands
  · intro r call h cloid before
    exact evidenceGrows_step h cloid
  · intro a b c hab hbc cloid before hbefore
    obtain ⟨middle, hmiddle, hgrows⟩ := hab cloid before hbefore
    obtain ⟨after, hafter, hgrows'⟩ := hbc cloid middle hmiddle
    exact ⟨after, hafter, hgrows.trans hgrows'⟩
  · intro earlier later h cloid before after hbefore hafter
    obtain ⟨state, hstate, hgrows⟩ := h cloid before hbefore
    rw [hafter, Option.some.injEq] at hstate
    exact hstate ▸ hgrows.kept

def shrinkingRun : List (RegistryCall ℚ) :=
  [.register (sampleIntent (sampleCloid 1) "BTC" false),
    .transitionAt (sampleCloid 1) (.nonceAllocated 7) 0,
    .transitionAt (sampleCloid 1) (.signed 7) 0,
    .transitionAt (sampleCloid 1) (.submissionStarted 7) 0,
    .transitionAt (sampleCloid 1) (.acknowledged "90") 0,
    .transitionAt (sampleCloid 1) (.partiallyFilled "90" 5) 0,
    .transitionAt (sampleCloid 1) (.filled "90" 3) 0]

theorem filled_quantity_decreases :
    ¬ ∀ (start : SubmissionRegistry ℚ) (calls : List (RegistryCall ℚ)),
      (states step start calls).Pairwise EvidenceStands := by
  intro h
  have hpair := List.pairwise_iff_getElem.mp (h (SubmissionRegistry.empty 4) shrinkingRun) 6 7
    (by decide +kernel) (by decide +kernel) (by decide)
  have hkept := hpair (sampleCloid 1) (.partiallyFilled "90" 5) (.filled "90" 3)
    (by decide +kernel) (by decide +kernel)
  exact absurd (hkept.filled 5 3 rfl rfl) (by decide +kernel)

end CopyTrade.Analysis
