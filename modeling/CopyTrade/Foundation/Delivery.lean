import Mathlib.Order.Interval.Finset.Nat

/-!
# Delivery out of order

The sequence numbers `1, 2, …` arrive in any order and any number of times.  The numbers up
to the first gap can be used at once; the numbers behind a gap wait for it to be filled.
-/

namespace CopyTrade.Foundation

/-- A number below `q` has not arrived. -/
def Ahead (seen : List ℕ) (q : ℕ) : Prop :=
  ∃ m ∈ Finset.Ico 1 q, m ∉ seen

instance (seen : List ℕ) (q : ℕ) : Decidable (Ahead seen q) :=
  inferInstanceAs (Decidable (∃ m ∈ Finset.Ico 1 q, m ∉ seen))

def waiting (seen : List ℕ) : Finset ℕ :=
  seen.toFinset.filter (Ahead seen)

variable {q : ℕ} {seen : List ℕ}

theorem mem_waiting_iff : q ∈ waiting seen ↔ q ∈ seen ∧ Ahead seen q := by
  unfold waiting
  rw [Finset.mem_filter, List.mem_toFinset]

theorem card_waiting_le_length (seen : List ℕ) : (waiting seen).card ≤ seen.length :=
  (Finset.card_filter_le _ _).trans (List.toFinset_card_le seen)

/-- A number ahead of its turn leaves the same numbers ahead: below it one is still missing. -/
theorem ahead_append_iff (h : Ahead seen q) (m : ℕ) : Ahead (seen ++ [q]) m ↔ Ahead seen m := by
  constructor
  · rintro ⟨gap, hgap, hmissing⟩
    exact ⟨gap, hgap, fun hseen => hmissing (List.mem_append_left _ hseen)⟩
  · rintro ⟨gap, hgap, hmissing⟩
    obtain ⟨lower, hlower, habsent⟩ := h
    rw [Finset.mem_Ico] at hgap hlower
    by_cases heq : gap = q
    · refine ⟨lower, Finset.mem_Ico.mpr ⟨hlower.1, by omega⟩, ?_⟩
      rw [List.mem_append, List.mem_singleton]
      rintro (hseen | rfl)
      · exact habsent hseen
      · omega
    · refine ⟨gap, Finset.mem_Ico.mpr hgap, ?_⟩
      rw [List.mem_append, List.mem_singleton]
      rintro (hseen | hnew)
      · exact hmissing hseen
      · exact heq hnew

/-- A number that arrives ahead of its turn for the first time joins the waiting ones. -/
theorem card_waiting_append (hahead : Ahead seen q) (hnew : q ∉ seen) :
    (waiting (seen ++ [q])).card = (waiting seen).card + 1 := by
  have hinsert : waiting (seen ++ [q]) = insert q (waiting seen) := by
    ext m
    rw [mem_waiting_iff, ahead_append_iff hahead, Finset.mem_insert, mem_waiting_iff,
      List.mem_append, List.mem_singleton]
    constructor
    · rintro ⟨hseen | rfl, hm⟩
      · exact .inr ⟨hseen, hm⟩
      · exact .inl rfl
    · rintro (rfl | ⟨hseen, hm⟩)
      · exact ⟨.inr rfl, hahead⟩
      · exact ⟨.inl hseen, hm⟩
  have hout : q ∉ waiting seen := fun hwaits => hnew (mem_waiting_iff.mp hwaits).1
  rw [hinsert, Finset.card_insert_of_notMem hout]

theorem card_waiting_le {n : ℕ} (h : ∀ q ∈ seen, q ≤ n + 1) : (waiting seen).card ≤ n := by
  have hsubset : waiting seen ⊆ Finset.Icc 2 (n + 1) := by
    intro q hq
    obtain ⟨hseen, m, hm, -⟩ := mem_waiting_iff.mp hq
    rw [Finset.mem_Ico] at hm
    rw [Finset.mem_Icc]
    exact ⟨by omega, h q hseen⟩
  have hcard := Finset.card_le_card hsubset
  rw [Nat.card_Icc] at hcard
  omega

/-- The numbers up to `k` have arrived, and `k + 1` has not. -/
structure Contiguous (seen : List ℕ) (k : ℕ) : Prop where
  arrived : ∀ m, 1 ≤ m → m ≤ k → m ∈ seen
  missing : k + 1 ∉ seen

section

variable {seen : List ℕ} {k : ℕ}

theorem contiguous_nil : Contiguous [] 0 := by
  refine ⟨?_, by simp⟩
  intro m hlow hhigh
  omega

variable {q : ℕ}

theorem Contiguous.ahead_iff (h : Contiguous seen k) : Ahead seen q ↔ k + 1 < q := by
  constructor
  · rintro ⟨m, hm, hmissing⟩
    rw [Finset.mem_Ico] at hm
    by_contra hle
    exact hmissing (h.arrived m hm.1 (by omega))
  · intro hlt
    refine ⟨k + 1, ?_, h.missing⟩
    rw [Finset.mem_Ico]
    omega

theorem Contiguous.mem_waiting_iff (h : Contiguous seen k) :
    q ∈ waiting seen ↔ q ∈ seen ∧ k < q := by
  rw [Foundation.mem_waiting_iff, h.ahead_iff]
  constructor
  · rintro ⟨hseen, hlt⟩
    exact ⟨hseen, by omega⟩
  · rintro ⟨hseen, hlt⟩
    have hne : q ≠ k + 1 := by
      rintro rfl
      exact h.missing hseen
    exact ⟨hseen, by omega⟩

theorem card_waiting_of_nodup (hmissing : 1 ∉ seen) (hzero : 0 ∉ seen) (hnodup : seen.Nodup) :
    (waiting seen).card = seen.length := by
  have hcontiguous : Contiguous seen 0 := by
    refine ⟨?_, hmissing⟩
    intro m hlow hhigh
    omega
  have hall : waiting seen = seen.toFinset := by
    ext q
    rw [hcontiguous.mem_waiting_iff, List.mem_toFinset]
    constructor
    · intro hq
      exact hq.1
    · intro hq
      refine ⟨hq, Nat.pos_of_ne_zero ?_⟩
      rintro rfl
      exact hzero hq
  rw [hall, List.toFinset_card_of_nodup hnodup]

theorem Contiguous.append (h : Contiguous seen k) (hq : q ≠ k + 1) :
    Contiguous (seen ++ [q]) k := by
  refine ⟨?_, ?_⟩
  · intro m hlow hhigh
    exact List.mem_append_left _ (h.arrived m hlow hhigh)
  · intro hmem
    rcases List.mem_append.mp hmem with hseen | hnew
    · exact h.missing hseen
    · exact hq (List.mem_singleton.mp hnew).symm

theorem Contiguous.close (h : Contiguous seen k) {next : ℕ} (hle : k + 1 ≤ next)
    (harrived : ∀ m, k + 1 < m → m ≤ next → m ∈ seen) (hmissing : next + 1 ∉ seen) :
    Contiguous (seen ++ [k + 1]) next := by
  refine ⟨?_, ?_⟩
  · intro m hlow hhigh
    rw [List.mem_append, List.mem_singleton]
    rcases lt_trichotomy m (k + 1) with hlt | heq | hgt
    · exact .inl (h.arrived m hlow (by omega))
    · exact .inr heq
    · exact .inl (harrived m hgt hhigh)
  · intro hmem
    rcases List.mem_append.mp hmem with hseen | hnew
    · exact hmissing hseen
    · have := List.mem_singleton.mp hnew
      omega

end

theorem forall_split_cons {α : Type*} {P : List α → α → Prop} {a : α} {l : List α} :
    (∀ before b rest, a :: l = before ++ b :: rest → P before b) ↔
      P [] a ∧ ∀ before b rest, l = before ++ b :: rest → P (a :: before) b := by
  constructor
  · intro h
    refine ⟨h [] a l rfl, ?_⟩
    rintro before b rest rfl
    exact h (a :: before) b rest rfl
  · rintro ⟨hfirst, hlater⟩ before b rest hsplit
    cases before with
    | nil =>
      cases hsplit
      exact hfirst
    | cons c before =>
      cases hsplit
      exact hlater before b rest rfl

end CopyTrade.Foundation
