import Mathlib.Data.List.Basic

/-!
# Runs of a deterministic labelled system

A system is a step function `step : S → A → S`; its nondeterminism is in the labels.  `run` plays a
list of labels, `states` lists every state the run passes through, and `AllSteps C` says that every
step of the run meets `C` at the state it starts from.

`forall_states_of_steps` carries an invariant along a run whose steps all meet a condition, and
`forall_states_iff_steps` turns an exact step lemma into the same equivalence for whole runs.
-/

namespace CopyTrade.Foundation

variable {S A : Type*}

def run (step : S → A → S) (s : S) (as : List A) : S :=
  as.foldl step s

/-- Every state passed through while playing `as` from `s`, the first one included. -/
def states (step : S → A → S) : S → List A → List S
  | s, [] => [s]
  | s, a :: as => s :: states step (step s a) as

/-- Every step of the run meets `C` at the state it starts from. -/
def AllSteps (step : S → A → S) (C : S → A → Prop) : S → List A → Prop
  | _, [] => True
  | s, a :: as => C s a ∧ AllSteps step C (step s a) as

instance AllSteps.decidable (step : S → A → S) (C : S → A → Prop) [∀ s a, Decidable (C s a)] :
    ∀ s as, Decidable (AllSteps step C s as)
  | _, [] => isTrue trivial
  | s, a :: as =>
    have := AllSteps.decidable step C (step s a) as
    inferInstanceAs (Decidable (C s a ∧ AllSteps step C (step s a) as))

variable {step : S → A → S}

@[simp] theorem run_nil (s : S) : run step s [] = s := rfl

@[simp] theorem run_cons (s : S) (a : A) (as : List A) :
    run step s (a :: as) = run step (step s a) as := rfl

theorem run_append (s : S) (as bs : List A) :
    run step s (as ++ bs) = run step (run step s as) bs :=
  List.foldl_append

variable {C : S → A → Prop} {as : List A} {s : S} {I : S → Prop}

theorem allSteps_append {bs : List A} :
    AllSteps step C s (as ++ bs) ↔ AllSteps step C s as ∧ AllSteps step C (run step s as) bs := by
  induction as generalizing s with
  | nil => exact (and_iff_right trivial).symm
  | cons a as ih => rw [List.cons_append, AllSteps, AllSteps, ih, run_cons, and_assoc]

theorem allSteps_of_forall (h : ∀ s a, C s a) (s : S) (as : List A) : AllSteps step C s as := by
  induction as generalizing s with
  | nil => trivial
  | cons a as ih => exact ⟨h s a, ih _⟩

variable {Q : S → A → Prop} {P : S → Prop}

theorem allSteps_congr (hI : ∀ s a, I s → I (step s a)) (h : ∀ s a, I s → (C s a ↔ Q s a))
    (hs : I s) (as : List A) : AllSteps step C s as ↔ AllSteps step Q s as := by
  induction as generalizing s with
  | nil => rfl
  | cons a as ih => rw [AllSteps, AllSteps, h s a hs, ih (hI s a hs)]

theorem allSteps_of_steps (hstep : ∀ s a, I s → C s a → I (step s a))
    (hQ : ∀ s a, I s → C s a → Q s a) (hs : I s) (h : AllSteps step C s as) :
    AllSteps step Q s as := by
  induction as generalizing s with
  | nil => trivial
  | cons a as ih => exact ⟨hQ s a hs h.1, ih (hstep s a hs h.1) h.2⟩

theorem run_mem_states (s : S) (as : List A) : run step s as ∈ states step s as := by
  induction as generalizing s with
  | nil => simp [states]
  | cons a as ih =>
    rw [run_cons, states]
    exact List.mem_cons_of_mem _ (ih _)

theorem mem_states_iff {t : S} : t ∈ states step s as ↔ ∃ bs, bs <+: as ∧ run step s bs = t := by
  induction as generalizing s with
  | nil =>
    simp only [states, List.mem_singleton, List.prefix_nil, exists_eq_left, run_nil]
    exact eq_comm
  | cons a as ih =>
    rw [states, List.mem_cons, ih]
    constructor
    · rintro (rfl | ⟨bs, hbs, rfl⟩)
      · exact ⟨[], List.nil_prefix, rfl⟩
      · exact ⟨a :: bs, List.cons_prefix_cons.mpr ⟨rfl, hbs⟩, rfl⟩
    · rintro ⟨bs, hbs, rfl⟩
      cases bs with
      | nil => exact .inl rfl
      | cons b bs =>
        obtain ⟨rfl, htail⟩ := List.cons_prefix_cons.mp hbs
        exact .inr ⟨bs, htail, rfl⟩

/-- **The run rule.**  An invariant that every step meeting `C` keeps holds in every state
of a run whose steps all meet `C`. -/
theorem forall_states_of_steps (hstep : ∀ s a, I s → C s a → I (step s a)) (hs : I s)
    (has : AllSteps step C s as) : ∀ t ∈ states step s as, I t := by
  induction as generalizing s with
  | nil => simpa [states] using hs
  | cons a as ih =>
    intro t ht
    rcases List.mem_cons.mp ht with rfl | ht
    · exact hs
    · exact ih (hstep s a hs has.1) has.2 t ht

theorem run_invariant (hstep : ∀ s a, I s → I (step s a)) (hs : I s) (as : List A) :
    I (run step s as) := by
  induction as generalizing s with
  | nil => exact hs
  | cons a as ih => exact ih (hstep s a hs)

/-- **The exact run rule.**  Let `I` be kept by every step, and let a step from a state
with `I` and `P` reach `P` exactly when it meets `C`.  Then `P` holds all along a run iff
every step of the run meets `C`. -/
theorem forall_states_iff_steps (hI : ∀ s a, I s → I (step s a))
    (hstep : ∀ s a, I s → P s → (P (step s a) ↔ C s a)) (hs : I s) (hP : P s) (as : List A) :
    (∀ t ∈ states step s as, P t) ↔ AllSteps step C s as := by
  induction as generalizing s with
  | nil => simpa [states, AllSteps] using hP
  | cons a as ih =>
    simp only [states, AllSteps, List.forall_mem_cons]
    constructor
    · rintro ⟨-, htail⟩
      have hnext : P (step s a) := htail _ (by cases as <;> simp [states])
      exact ⟨(hstep s a hs hP).mp hnext, (ih (hI s a hs) hnext).mp htail⟩
    · rintro ⟨hC, htail⟩
      have hnext : P (step s a) := (hstep s a hs hP).mpr hC
      exact ⟨hP, (ih (hI s a hs) hnext).mpr htail⟩

/-- **The exact run rule for steps and states.**  Let `I` be kept by every step of an admitted
label, and let such a step from a state with `I` and `P` be a `Q`-step to a state with `P` exactly
when it meets `C`.  Then a run of admitted labels has only `Q`-steps and `P` all along iff every step
of it meets `C`. -/
theorem steps_and_states_iff {L : A → Prop} (hI : ∀ s a, I s → L a → I (step s a))
    (hstep : ∀ s a, I s → P s → L a → (Q s a ∧ P (step s a) ↔ C s a)) (hs : I s) (hP : P s)
    (has : ∀ a ∈ as, L a) :
    (AllSteps step Q s as ∧ ∀ t ∈ states step s as, P t) ↔ AllSteps step C s as := by
  induction as generalizing s with
  | nil => simpa [states, AllSteps] using hP
  | cons a as ih =>
    rw [List.forall_mem_cons] at has
    obtain ⟨ha, has⟩ := has
    simp only [states, AllSteps, List.forall_mem_cons]
    constructor
    · rintro ⟨⟨hQ, hQs⟩, -, hPs⟩
      have hnext : P (step s a) := hPs _ (by cases as <;> simp [states])
      exact ⟨(hstep s a hs hP ha).mp ⟨hQ, hnext⟩, (ih (hI s a hs ha) hnext has).mp ⟨hQs, hPs⟩⟩
    · rintro ⟨hC, hCs⟩
      obtain ⟨hQ, hnext⟩ := (hstep s a hs hP ha).mpr hC
      obtain ⟨hQs, hPs⟩ := (ih (hI s a hs ha) hnext has).mpr hCs
      exact ⟨⟨hQ, hQs⟩, hP, hPs⟩

theorem allSteps_and_states_iff {L : A → Prop} (hI : ∀ s a, I s → L a → I (step s a))
    (hiff : ∀ s a, I s → P s → L a → (Q s a ↔ C s a))
    (hkeep : ∀ s a, I s → P s → L a → Q s a → P (step s a)) (hs : I s) (hP : P s)
    (has : ∀ a ∈ as, L a) :
    (AllSteps step Q s as ∧ ∀ t ∈ states step s as, P t) ↔ AllSteps step C s as := by
  refine steps_and_states_iff hI ?_ hs hP has
  intro s a hs hP ha
  constructor
  · exact fun h => (hiff s a hs hP ha).mp h.1
  · intro hC
    have hQ := (hiff s a hs hP ha).mpr hC
    exact ⟨hQ, hkeep s a hs hP ha hQ⟩

/-- **The exact run rule for a measure.**  Let no step of a kind lower a measure, and let it leave
the measure alone exactly when it meets `C`.  Then a run of such steps leaves the measure alone iff
every step meets `C`. -/
theorem run_measure_eq_iff {H : S → A → Prop} {measure : S → ℕ}
    (hI : ∀ s a, I s → H s a → I (step s a))
    (hle : ∀ s a, I s → H s a → measure s ≤ measure (step s a))
    (heq : ∀ s a, I s → H s a → (measure (step s a) = measure s ↔ C s a)) (hs : I s)
    (hH : AllSteps step H s as) :
    measure s ≤ measure (run step s as) ∧
      (measure (run step s as) = measure s ↔ AllSteps step C s as) := by
  induction as generalizing s with
  | nil => exact ⟨Nat.le_refl _, iff_of_true rfl trivial⟩
  | cons a as ih =>
    obtain ⟨hrest, hiff⟩ := ih (hI s a hs hH.1) hH.2
    have hfirst := hle s a hs hH.1
    rw [run_cons, AllSteps, ← hiff, ← heq s a hs hH.1]
    omega

theorem start_mem_states (s : S) (as : List A) : s ∈ states step s as := by
  cases as <;> simp [states]

/-- **The exact run rule for pairs of states.**  Let `P` fail at a step that does not meet `C`,
and let `R` be a transitive relation within `P` that holds at every step that does.  Then `P`
holds between every earlier and every later state of a run iff every step meets `C`. -/
theorem pairwise_states_iff_steps {P R : S → S → Prop} (hP : ∀ s a, P s (step s a) → C s a)
    (hR : ∀ s a, C s a → R s (step s a)) (htrans : ∀ s t u, R s t → R t u → R s u)
    (hRP : ∀ s t, R s t → P s t) (s : S) (as : List A) :
    (states step s as).Pairwise P ↔ AllSteps step C s as := by
  induction as generalizing s with
  | nil => simp [states, AllSteps]
  | cons a as ih =>
    simp only [states, AllSteps, List.pairwise_cons]
    constructor
    · rintro ⟨hhead, htail⟩
      exact ⟨hP s a (hhead _ (start_mem_states _ _)), (ih _).mp htail⟩
    · rintro ⟨hC, htail⟩
      refine ⟨?_, (ih _).mpr htail⟩
      intro t ht
      refine hRP s t (forall_states_of_steps (I := R s) ?_ (hR s a hC) htail t ht)
      intro u b hu hC'
      exact htrans s u _ hu (hR u b hC')

end CopyTrade.Foundation
