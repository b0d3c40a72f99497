import CopyTrade.Foundation.Results
import CopyTrade.Foundation.Runs
import CopyTrade.Model.Core.Snapshots

/-!
# The ages of the stored snapshots

The store replaces a snapshot by later ones only.  `fresh` asks for the age since a snapshot was
received, `accept` for the age since the source observed it as well.
-/

namespace CopyTrade.Analysis

open Foundation Model Model.SnapshotStore

variable {T : Type}

/-- The age rules of `accept`: the validity of a snapshot, the time since it was received, and the
time since the source observed it. -/
structure WithinAge (policy : FreshnessPolicy) (snapshot : SourceSnapshot T) (nowMs : ℕ) : Prop where
  valid : nowMs ≤ snapshot.validUntil
  received : nowMs - snapshot.receivedAt ≤ policy.configuredMaxAgeMs
  observed : ∀ observedAt, snapshot.sourceObservedAt = some observedAt →
    nowMs - observedAt ≤ policy.configuredMaxAgeMs

theorem fresh_eq_some_iff {store : SnapshotStore T} {candidateId : String} {nowMs : ℕ}
    {snapshot : SourceSnapshot T} : store.fresh candidateId nowMs = some snapshot ↔
      store.accepted[candidateId]? = some snapshot ∧ nowMs ≤ snapshot.validUntil ∧
        nowMs - snapshot.receivedAt ≤ store.policy.configuredMaxAgeMs := by
  unfold fresh
  cases store.accepted[candidateId]? with
  | none => simp
  | some stored =>
    dsimp only
    split
    · rename_i hrecent
      constructor
      · rintro ⟨⟩
        exact ⟨rfl, hrecent⟩
      · rintro ⟨⟨⟩, -⟩
        rfl
    · rename_i hrecent
      constructor
      · rintro ⟨⟩
      · rintro ⟨⟨⟩, hvalid, hage⟩
        exact absurd ⟨hvalid, hage⟩ hrecent

/-- A later snapshot of a candidate: the same one, or one with a higher sequence that was neither
received nor observed earlier. -/
def Succeeds (earlier later : SourceSnapshot T) : Prop :=
  later = earlier ∨ earlier.sequence < later.sequence ∧ earlier.receivedAt ≤ later.receivedAt ∧
    observedBefore later.sourceObservedAt earlier.sourceObservedAt = false

/-- The policy is kept, and the place of a candidate is empty before or holds an earlier snapshot. -/
def Advances (before after : SnapshotStore T) : Prop :=
  after.policy = before.policy ∧ ∀ (candidateId : String) (earlier : SourceSnapshot T),
    before.accepted[candidateId]? = some earlier →
      ∃ later, after.accepted[candidateId]? = some later ∧ Succeeds earlier later

theorem observedBefore_trans {a b c : Option ℕ} (hab : observedBefore b a = false)
    (hbc : observedBefore c b = false) : observedBefore c a = false := by
  cases a <;> cases b <;> cases c <;> simp_all [observedBefore]
  omega

theorem Succeeds.trans {a b c : SourceSnapshot T} (hab : Succeeds a b) (hbc : Succeeds b c) :
    Succeeds a c := by
  rcases hbc with rfl | ⟨hsequence, hreceived, hobserved⟩
  · exact hab
  · rcases hab with rfl | ⟨hsequence', hreceived', hobserved'⟩
    · exact .inr ⟨hsequence, hreceived, hobserved⟩
    · apply Or.inr
      exact ⟨by omega, by omega, observedBefore_trans hobserved' hobserved⟩

theorem Advances.trans {a b c : SnapshotStore T} (hab : Advances a b) (hbc : Advances b c) :
    Advances a c := by
  refine ⟨hbc.1.trans hab.1, ?_⟩
  intro candidateId earlier hearlier
  obtain ⟨middle, hmiddle, hfirst⟩ := hab.2 candidateId earlier hearlier
  obtain ⟨later, hlater, hsecond⟩ := hbc.2 candidateId middle hmiddle
  exact ⟨later, hlater, hfirst.trans hsecond⟩

theorem succeeds_of_not_outOfOrder {current snapshot : SourceSnapshot T}
    (h : outOfOrder current snapshot = false) : Succeeds current snapshot := by
  simp only [outOfOrder, Bool.or_eq_false_iff, decide_eq_false_iff_not, not_le, not_lt] at h
  exact .inr ⟨h.1.1, h.1.2, h.2⟩

theorem accept_store (store : SnapshotStore T) (snapshot : SourceSnapshot T) (nowMs : ℕ)
    (payloadValid : Bool) :
    (store.accept snapshot nowMs payloadValid).2 = store ∨
      (store.accept snapshot nowMs payloadValid).2 =
          { store with accepted := store.accepted.insert snapshot.candidateId snapshot } ∧
        ∀ current, store.accepted[snapshot.candidateId]? = some current →
          outOfOrder current snapshot = false := by
  unfold accept
  split
  · exact .inl rfl
  split
  · exact .inl rfl
  split
  · exact .inl rfl
  split
  · exact .inl rfl
  split
  · exact .inl rfl
  split
  · exact .inl rfl
  split
  · exact .inl rfl
  split
  · exact .inl rfl
  · rename_i horder
    refine .inr ⟨rfl, ?_⟩
    intro current hcurrent
    simpa [hcurrent] using horder

theorem advances_after (store : SnapshotStore T) (call : AcceptCall T) :
    Advances store (store.after call) := by
  unfold after
  rcases accept_store store call.snapshot call.nowMs call.payloadValid with hkept | ⟨hstored, horder⟩
  · rw [hkept]
    exact ⟨rfl, fun _ earlier h => ⟨earlier, h, .inl rfl⟩⟩
  · rw [hstored]
    refine ⟨rfl, ?_⟩
    intro candidateId earlier hearlier
    rw [getElem?_insert_eq]
    split
    · rename_i hsame
      subst hsame
      exact ⟨_, rfl, succeeds_of_not_outOfOrder (horder earlier hearlier)⟩
    · exact ⟨earlier, hearlier, .inl rfl⟩

theorem pairwise_advances (store : SnapshotStore T) (calls : List (AcceptCall T)) :
    (states SnapshotStore.after store calls).Pairwise Advances := by
  apply (pairwise_states_iff_steps (C := fun _ _ => True) (R := Advances) ?_ ?_ ?_ ?_ store
    calls).mpr
  · exact allSteps_of_forall (fun _ _ => trivial) store calls
  · exact fun _ _ _ => trivial
  · exact fun s call _ => advances_after s call
  · exact fun _ _ _ => Advances.trans
  · exact fun _ _ h => h

theorem policy_of_mem_states {policy : FreshnessPolicy} {store : SnapshotStore T}
    (hnew : SnapshotStore.new policy = .ok store) {calls : List (AcceptCall T)}
    {after : SnapshotStore T} (h : after ∈ states SnapshotStore.after store calls) :
    after.policy = policy := by
  have hpolicy : store.policy = policy := by
    obtain ⟨checked, hchecked, hok⟩ := of_bind hnew
    unfold FreshnessPolicy.validate at hchecked
    split at hchecked
    · cases hchecked
    · cases hchecked
      cases hok
      rfl
  obtain ⟨played, -, rfl⟩ := mem_states_iff.mp h
  refine run_invariant (I := fun state : SnapshotStore T => state.policy = policy) ?_ hpolicy played
  intro state call hstate
  exact (advances_after state call).1.trans hstate

/-- The stored snapshots of a candidate are replaced by later ones only, and what `fresh` returns is
within the age rules of `accept` exactly when the source did not observe it too long ago. -/
theorem fresh_within_age_iff {policy : FreshnessPolicy} {store : SnapshotStore T}
    (hnew : SnapshotStore.new policy = .ok store) (calls : List (AcceptCall T)) :
    (∀ after ∈ states SnapshotStore.after store calls, ∀ candidateId nowMs snapshot,
      after.fresh candidateId nowMs = some snapshot →
        (WithinAge policy snapshot nowMs ↔
          ∀ observedAt, snapshot.sourceObservedAt = some observedAt →
            nowMs - observedAt ≤ policy.configuredMaxAgeMs)) ∧
      (states SnapshotStore.after store calls).Pairwise Advances := by
  refine ⟨?_, pairwise_advances store calls⟩
  intro after hafter candidateId nowMs snapshot hfresh
  obtain ⟨-, hvalid, hreceived⟩ := fresh_eq_some_iff.mp hfresh
  rw [policy_of_mem_states hnew hafter] at hreceived
  constructor
  · exact fun hage => hage.observed
  · exact fun hobserved => ⟨hvalid, hreceived, hobserved⟩

def sampleSnapshots : SnapshotStore Unit :=
  { policy := { configuredMaxAgeMs := 10, maximumFutureSkewMs := 0 }, accepted := ∅ }

def sampleSnapshot : SourceSnapshot Unit :=
  { candidateId := "0xa", payload := (), requestedAt := 5, receivedAt := 5,
    sourceObservedAt := some 0, validUntil := 100, sequence := 1 }

theorem fresh_within_age_iff_sample :
    (∀ after ∈ states SnapshotStore.after sampleSnapshots [⟨sampleSnapshot, 5, true⟩],
      ∀ candidateId nowMs snapshot, after.fresh candidateId nowMs = some snapshot →
        (WithinAge sampleSnapshots.policy snapshot nowMs ↔
          ∀ observedAt, snapshot.sourceObservedAt = some observedAt → nowMs - observedAt ≤ 10)) ∧
      (states SnapshotStore.after sampleSnapshots [⟨sampleSnapshot, 5, true⟩]).Pairwise Advances :=
  fresh_within_age_iff (by rfl) [⟨sampleSnapshot, 5, true⟩]

/-- A snapshot observed at 0 and received at 5 is accepted, and at 12 it is fresh although `accept`
would call it expired. -/
theorem fresh_returns_expired_snapshot :
    SnapshotStore.new sampleSnapshots.policy = .ok sampleSnapshots ∧
      (sampleSnapshots.accept sampleSnapshot 5 true).1 = .accepted ∧
      (sampleSnapshots.after ⟨sampleSnapshot, 5, true⟩).fresh "0xa" 12 = some sampleSnapshot ∧
      ((sampleSnapshots.after ⟨sampleSnapshot, 5, true⟩).accept sampleSnapshot 12 true).1 =
        .expired ∧
      ¬ WithinAge sampleSnapshots.policy sampleSnapshot 12 := by
  refine ⟨by rfl, by decide +kernel, by decide +kernel, by decide +kernel, ?_⟩
  intro hage
  have hobserved := hage.observed 0 rfl
  simp [sampleSnapshots] at hobserved

end CopyTrade.Analysis
