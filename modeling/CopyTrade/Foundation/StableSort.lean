import Mathlib.Data.List.MinMax
import Mathlib.Data.List.Sort

/-!
# Neighbours in a sorted list

The insertion sort is stable, so that the part of a sorted list with some property is the sorted
part of the list, and the ends of a sorted list are the least and the greatest of its entries.  Two
neighbours of one stamp in a list sorted by time are neighbours in the part with that stamp.
-/

namespace CopyTrade.Foundation

variable {α β : Type}

section

variable {r : α → α → Prop} [DecidableRel r]

theorem orderedInsert_of_forall {a : α} {l : List α} (h : ∀ b ∈ l, r a b) :
    l.orderedInsert r a = a :: l := by
  cases l with
  | nil => simp
  | cons b l => simp [h b (by simp)]

/-- An entry that does not count is inserted without a trace, one that counts into the part that
counts. -/
theorem filter_orderedInsert [IsTrans α r] (p : α → Bool) (a : α) {l : List α} (h : l.Pairwise r) :
    (l.orderedInsert r a).filter p =
      if p a then (l.filter p).orderedInsert r a else l.filter p := by
  induction l with
  | nil => by_cases ha : p a = true <;> simp [ha]
  | cons b l ih =>
    obtain ⟨hb, hl⟩ := List.pairwise_cons.mp h
    by_cases hab : r a b
    · -- Everything behind is at least as late, so the new entry stands in front of what is kept.
      have hall : ∀ c ∈ (b :: l).filter p, r a c := by
        intro c hc
        rcases List.mem_cons.mp (List.mem_of_mem_filter hc) with rfl | hmem
        · exact hab
        · exact IsTrans.trans a b c hab (hb c hmem)
      rw [List.orderedInsert_cons_of_le r l hab, List.filter_cons, orderedInsert_of_forall hall]
    · rw [List.orderedInsert_of_not_le r l hab, List.filter_cons, ih hl]
      by_cases hpb : p b = true
      · by_cases hpa : p a = true <;> simp [hpa, hpb, hab]
      · by_cases hpa : p a = true <;> simp [hpa, hpb]

theorem filter_insertionSort [IsTrans α r] [Std.Total r] (p : α → Bool) (l : List α) :
    (l.insertionSort r).filter p = (l.filter p).insertionSort r := by
  induction l with
  | nil => simp
  | cons a l ih =>
    rw [List.insertionSort_cons, filter_orderedInsert p a (List.pairwise_insertionSort r l), ih]
    by_cases ha : p a = true <;> simp [ha]

theorem orderedInsert_append {a : α} {l m : List α} (h : ∀ b ∈ m, r a b) :
    (l ++ m).orderedInsert r a = l.orderedInsert r a ++ m := by
  induction l with
  | nil => simp [orderedInsert_of_forall h]
  | cons b l ih => by_cases hab : r a b <;> simp [hab, ih]

theorem insertionSort_append {l m : List α} (h : ∀ a ∈ l, ∀ b ∈ m, r a b) :
    (l ++ m).insertionSort r = l.insertionSort r ++ m.insertionSort r := by
  induction l with
  | nil => simp
  | cons a l ih =>
    have hrest : ∀ b ∈ m.insertionSort r, r a b := by
      intro b hb
      exact h a (by simp) b ((List.mem_insertionSort r).mp hb)
    simp only [List.cons_append, List.insertionSort_cons]
    rw [ih fun a ha => h a (by simp [ha]), orderedInsert_append hrest]

variable [LinearOrder β] {key : α → β}

theorem head?_insertionSort (hkey : ∀ a b, r a b ↔ key a ≤ key b) (l : List α) :
    (l.insertionSort r).head? = l.argmin key := by
  induction l with
  | nil => simp
  | cons a l ih =>
    rw [List.insertionSort_cons, List.argmin_cons, ← ih]
    cases hsort : l.insertionSort r with
    | nil => simp
    | cons b rest =>
      by_cases hab : r a b
      · simp [hab, not_lt.mpr ((hkey a b).mp hab)]
      · simp [hab, lt_of_not_ge fun hle => hab ((hkey a b).mpr hle)]

theorem getLast?_insertionSort (hkey : ∀ a b, r a b ↔ key a ≤ key b) (l : List α) :
    (l.insertionSort r).getLast? = l.reverse.argmax key := by
  have hinsert : ∀ (a : α) (m : List α), m.Pairwise r → (m.orderedInsert r a).getLast? =
      m.getLast?.elim (some a) fun b => if r a b then some b else some a := by
    intro a m hm
    induction m with
    | nil => simp
    | cons b m ih =>
      obtain ⟨hb, hm⟩ := List.pairwise_cons.mp hm
      by_cases hab : r a b
      · rw [List.orderedInsert_cons_of_le r m hab, List.getLast?_cons_cons]
        cases hlast : (b :: m).getLast? with
        | none => simp at hlast
        | some c =>
          have hac : r a c := by
            rcases List.mem_cons.mp (List.mem_of_getLast? hlast) with rfl | hmem
            · exact hab
            · exact (hkey a c).mpr (((hkey a b).mp hab).trans ((hkey b c).mp (hb c hmem)))
          simp [hac]
      · rw [List.orderedInsert_of_not_le r m hab]
        cases m with
        | nil => simp [hab]
        | cons c rest =>
          rw [List.getLast?_cons_cons, ← ih hm]
          cases hinserted : (c :: rest).orderedInsert r a with
          | nil =>
            have := List.mem_orderedInsert r (a := a) (b := a) (l := c :: rest)
            simp [hinserted] at this
          | cons d inserted => rw [List.getLast?_cons_cons]
  induction l with
  | nil => simp
  | cons a l ih =>
    rw [List.insertionSort_cons, List.reverse_cons, List.argmax_concat, ← ih]
    have hsorted : (l.insertionSort r).Pairwise r := by
      have : IsTrans α r := ⟨fun a b c hab hbc =>
        (hkey a c).mpr (((hkey a b).mp hab).trans ((hkey b c).mp hbc))⟩
      have : Std.Total r := ⟨fun a b => (le_total (key a) (key b)).imp (hkey a b).mpr (hkey b a).mpr⟩
      exact List.pairwise_insertionSort r l
    rw [hinsert a _ hsorted]
    cases (l.insertionSort r).getLast? with
    | none => simp
    | some b =>
      by_cases hab : r a b
      · simp [hab, not_lt.mpr ((hkey a b).mp hab)]
      · simp [hab, lt_of_not_ge fun hle => hab ((hkey a b).mpr hle)]

end

def Adjacent (l : List α) (a b : α) : Prop := ∃ before after, l = before ++ a :: b :: after

theorem mem_zip_tail_iff {l : List α} {a b : α} : (a, b) ∈ l.zip l.tail ↔ Adjacent l a b := by
  unfold Adjacent
  induction l with
  | nil => simp
  | cons x l ih =>
    cases l with
    | nil => simp [List.cons_eq_append_iff]
    | cons y l =>
      simp only [List.tail_cons, List.zip_cons_cons, List.mem_cons, Prod.mk.injEq] at ih ⊢
      constructor
      · rintro (⟨rfl, rfl⟩ | hmem)
        · exact ⟨[], l, rfl⟩
        · obtain ⟨before, after, heq⟩ := ih.mp hmem
          exact ⟨x :: before, after, by rw [heq]; rfl⟩
      · rintro ⟨before, after, heq⟩
        cases before with
        | nil =>
          simp only [List.nil_append, List.cons.injEq] at heq
          exact .inl ⟨heq.1.symm, heq.2.1.symm⟩
        | cons z before =>
          simp only [List.cons_append, List.cons.injEq] at heq
          exact .inr (ih.mpr ⟨before, after, heq.2⟩)

/-- What holds of all entries before one of which it holds cuts a list in two. -/
theorem filter_append_filter_not {p : α → Bool} {l : List α}
    (h : l.Pairwise fun a b => p b = true → p a = true) :
    l.filter p ++ l.filter (fun a => !p a) = l := by
  induction l with
  | nil => simp
  | cons a l ih =>
    obtain ⟨ha, hl⟩ := List.pairwise_cons.mp h
    by_cases hp : p a = true
    · simp [hp, ih hl]
    · have hnone : l.filter p = [] := by
        rw [List.filter_eq_nil_iff]
        exact fun b hb hpb => hp (ha b hb hpb)
      have hrest := ih hl
      rw [hnone, List.nil_append] at hrest
      simp [hp, hnone, hrest]

/-- In a list in the order of time, two entries of one instant are neighbours exactly when they are
neighbours among the entries of that instant. -/
theorem adjacent_filter_iff {time : α → ℕ} {l : List α}
    (h : l.Pairwise fun a b => time a ≤ time b) {a b : α} {t : ℕ} :
    Adjacent l a b ∧ time a = t ∧ time b = t ↔
      Adjacent (l.filter fun c => time c = t) a b := by
  constructor
  · rintro ⟨⟨before, after, rfl⟩, ha, hb⟩
    exact ⟨before.filter fun c => time c = t, after.filter fun c => time c = t, by simp [ha, hb]⟩
  · rintro ⟨before, after, heq⟩
    have hmem : ∀ c ∈ [a, b], time c = t := by
      intro c hc
      have : c ∈ l.filter fun c => time c = t := by
        rw [heq]
        simp only [List.mem_cons, List.not_mem_nil, or_false] at hc
        rcases hc with rfl | rfl <;> simp
      simpa using (List.mem_filter.mp this).2
    refine ⟨?_, hmem a (by simp), hmem b (by simp)⟩
    have hlow := filter_append_filter_not (p := fun c => decide (time c < t))
      (h.imp fun hle => by simp; omega)
    have hhigh := filter_append_filter_not (p := fun c => decide (time c ≤ t))
      ((h.filter fun c => !decide (time c < t)).imp fun hle => by simp; omega)
    have hlevel : ((l.filter fun c => !decide (time c < t)).filter fun c => time c ≤ t) =
        l.filter fun c => time c = t := by
      rw [List.filter_filter]
      refine List.filter_congr fun c _ => ?_
      rw [Bool.eq_iff_iff]
      simp
      omega
    rw [hlevel, heq] at hhigh
    rw [← hhigh] at hlow
    rw [← hlow]
    exact ⟨(l.filter fun c => time c < t) ++ before,
      after ++ (l.filter fun c => !decide (time c < t)).filter fun c => !decide (time c ≤ t), by simp⟩

/-- Where a list with a property is followed by one without it, the only neighbours that differ in
it are the last of the one and the first of the other. -/
theorem adjacent_append_iff {q : α → Prop} {l m : List α} (hl : ∀ a ∈ l, q a)
    (hm : ∀ a ∈ m, ¬ q a) {a b : α} :
    Adjacent (l ++ m) a b ∧ q a ∧ ¬ q b ↔ l.getLast? = some a ∧ m.head? = some b := by
  constructor
  · rintro ⟨⟨before, after, heq⟩, ha, hb⟩
    rw [show before ++ a :: b :: after = (before ++ [a]) ++ b :: after by simp] at heq
    rcases List.append_eq_append_iff.mp heq with ⟨rest, hfirst, hsecond⟩ | ⟨rest, hfirst, hsecond⟩
    · rcases List.eq_nil_or_concat rest with rfl | ⟨front, last, rfl⟩
      · simp only [List.append_nil, List.nil_append] at hfirst hsecond
        simp [← hfirst, hsecond]
      · -- The earlier one would be in the second list.
        rw [List.concat_eq_append, ← List.append_assoc] at hfirst
        obtain ⟨-, hlast⟩ := List.append_inj' hfirst rfl
        simp only [List.cons.injEq, and_true] at hlast
        subst hlast
        exact absurd ha (hm a (by simp [hsecond]))
    · cases rest with
      | nil =>
        simp only [List.append_nil, List.nil_append] at hfirst hsecond
        simp [hfirst, ← hsecond]
      | cons c rest =>
        -- The later one would be in the first list.
        simp only [List.cons_append, List.cons.injEq] at hsecond
        refine absurd (hl b ?_) hb
        simp [hfirst, hsecond.1]
  · rintro ⟨hlast, hhead⟩
    obtain ⟨before, rfl⟩ := List.getLast?_eq_some_iff.mp hlast
    obtain ⟨after, rfl⟩ := List.head?_eq_some_iff.mp hhead
    exact ⟨⟨before, after, by simp⟩, hl a (by simp), hm b (by simp)⟩

end CopyTrade.Foundation
