import Mathlib.Algebra.Order.BigOperators.Group.Finset
import Mathlib.Algebra.Order.BigOperators.Group.List
import Mathlib.Algebra.Order.Field.Basic
import Mathlib.Data.Finset.Max
import Mathlib.Data.Prod.Lex
import Mathlib.Tactic.Linarith

/-!
# Values within intervals, and what has to go for a sum to be small enough

Each value of a list lies in an interval of its own.  The sum of the values lies between the sums of
the ends, and the sum of the absolute values is at most the sum of the largest absolute values of
each interval (its peak).  `clampTo r x` is `x` cut to the range from `-r` to `r`; the range is
symmetric, so clamping commutes with the negation.

Items of positive amounts are removed one after the other, always the smallest one that is left,
until the amounts of the others are within a bound: what stays fits together with all larger ones.
-/

namespace CopyTrade.Foundation

open Finset

section

variable {ι K : Type} [AddCommGroup K] [LinearOrder K] [IsOrderedAddMonoid K]

def peak (low high : K) : K := max |low| |high|

omit [IsOrderedAddMonoid K] in
theorem peak_eq_or (low high : K) : peak low high = |low| ∨ peak low high = |high| := by
  rcases le_total |low| |high| with h | h
  · exact .inr (max_eq_right h)
  · exact .inl (max_eq_left h)

theorem abs_le_peak {low value high : K} (hlow : low ≤ value) (hhigh : value ≤ high) :
    |value| ≤ peak low high :=
  abs_le_max_abs_abs hlow hhigh

/-- The value lies in its interval. -/
structure Within (low high : ι → K) (value : ι → K) (i : ι) : Prop where
  low : low i ≤ value i
  high : value i ≤ high i

variable {l : List ι} {low high value : ι → K}

theorem sum_low_le (h : ∀ i ∈ l, Within low high value i) : (l.map low).sum ≤ (l.map value).sum :=
  List.sum_le_sum fun i hi => (h i hi).low

theorem sum_le_high (h : ∀ i ∈ l, Within low high value i) :
    (l.map value).sum ≤ (l.map high).sum :=
  List.sum_le_sum fun i hi => (h i hi).high

theorem abs_sum_le_peak (h : ∀ i ∈ l, Within low high value i) :
    |(l.map value).sum| ≤ peak (l.map low).sum (l.map high).sum :=
  abs_le_peak (sum_low_le h) (sum_le_high h)

theorem sum_abs_le_sum_peak (h : ∀ i ∈ l, Within low high value i) :
    (l.map fun i => |value i|).sum ≤ (l.map fun i => peak (low i) (high i)).sum :=
  List.sum_le_sum fun i hi => abs_le_peak (h i hi).low (h i hi).high

end

section

variable {K : Type*} [Field K] [LinearOrder K] [IsStrictOrderedRing K] {r x : K}

def clampTo (r x : K) : K := max (-r) (min x r)

theorem clampTo_of_abs_le (h : |x| ≤ r) : clampTo r x = x := by
  obtain ⟨hlow, hhigh⟩ := abs_le.mp h
  rw [clampTo, min_eq_left hhigh, max_eq_right hlow]

theorem clampTo_of_le (hr : 0 ≤ r) (h : r ≤ x) : clampTo r x = r := by
  rw [clampTo, min_eq_right h, max_eq_right (by linarith)]

theorem clampTo_of_le_neg (hr : 0 ≤ r) (h : x ≤ -r) : clampTo r x = -r := by
  rw [clampTo, min_eq_left (by linarith), max_eq_left h]

theorem abs_le_or_beyond (r x : K) : |x| ≤ r ∨ r ≤ x ∨ x ≤ -r := by
  rcases le_total |x| r with h | h
  · exact .inl h
  · rcases le_abs.mp h with h | h
    · exact .inr (.inl h)
    · exact .inr (.inr (by linarith))

theorem abs_clampTo_le_bound (hr : 0 ≤ r) : |clampTo r x| ≤ r :=
  abs_le.mpr ⟨le_max_left _ _, max_le (by linarith) (min_le_right x r)⟩

theorem clampTo_neg (hr : 0 ≤ r) : clampTo r (-x) = -clampTo r x := by
  rcases abs_le_or_beyond r x with h | h | h
  · rw [clampTo_of_abs_le h, clampTo_of_abs_le (by rwa [abs_neg])]
  · rw [clampTo_of_le hr h, clampTo_of_le_neg hr (neg_le_neg h)]
  · rw [clampTo_of_le_neg hr h, clampTo_of_le hr (by linarith), neg_neg]

end

variable {ι K : Type} [LinearOrder ι] [AddCommGroup K] [LinearOrder K] [IsOrderedAddMonoid K]
  {amount : ι → K} {bound : K} {all kept : Finset ι}

/-- An item is removed before another: it has a smaller amount, or the same and a smaller key. -/
def Before (amount : ι → K) (i j : ι) : Prop :=
  amount i < amount j ∨ amount i = amount j ∧ i < j

instance (amount : ι → K) (i j : ι) : Decidable (Before amount i j) :=
  inferInstanceAs (Decidable (_ ∨ _))

section

omit [AddCommGroup K] [IsOrderedAddMonoid K]

theorem not_before_self (i : ι) : ¬ Before amount i i := by
  rintro (h | ⟨-, h⟩)
  · exact lt_irrefl _ h
  · exact lt_irrefl _ h

theorem before_or_eq_or_before (amount : ι → K) (i j : ι) :
    Before amount i j ∨ i = j ∨ Before amount j i := by
  rcases lt_trichotomy (amount i) (amount j) with h | h | h
  · exact .inl (.inl h)
  · rcases lt_trichotomy i j with hkey | hkey | hkey
    · exact .inl (.inr ⟨h, hkey⟩)
    · exact .inr (.inl hkey)
    · exact .inr (.inr (.inr ⟨h.symm, hkey⟩))
  · exact .inr (.inr (.inl h))

theorem Before.trans {i j k : ι} (h : Before amount i j) (h' : Before amount j k) :
    Before amount i k := by
  rcases h with h | ⟨h, hkey⟩
  · rcases h' with h' | ⟨h', -⟩
    · exact .inl (h.trans h')
    · exact .inl (h' ▸ h)
  · rcases h' with h' | ⟨h', hkey'⟩
    · exact .inl (h ▸ h')
    · exact .inr ⟨h.trans h', hkey.trans hkey'⟩

end

/-- The amounts of an item and of all that are removed after it. -/
def fromOn (amount : ι → K) (all : Finset ι) (i : ι) : K :=
  ∑ j ∈ all with ¬ Before amount j i, amount j

def survivors (amount : ι → K) (bound : K) (all : Finset ι) : Finset ι :=
  all.filter fun i => fromOn amount all i ≤ bound

/-- Some of the smallest items have been removed, and none that fits with all larger ones. -/
structure PrunedTo (amount : ι → K) (bound : K) (all kept : Finset ι) : Prop where
  subset : kept ⊆ all
  upper : ∀ i ∈ kept, ∀ j ∈ all, Before amount i j → j ∈ kept
  removed : ∀ i ∈ all, i ∉ kept → bound < fromOn amount all i

omit [IsOrderedAddMonoid K] in
theorem prunedTo_self : PrunedTo amount bound all all where
  subset := Subset.refl all
  upper _ _ _ hj _ := hj
  removed _ hi hnot := absurd hi hnot

omit [IsOrderedAddMonoid K] in
/-- The smallest item that is left is removed while the rest is too large. -/
theorem PrunedTo.erase (h : PrunedTo amount bound all kept) {i : ι} (hi : i ∈ kept)
    (hleast : ∀ j ∈ kept, j ≠ i → Before amount i j) (hlarge : bound < ∑ j ∈ kept, amount j) :
    PrunedTo amount bound all (kept.erase i) where
  subset := (erase_subset i kept).trans h.subset
  upper j hj k hk hbefore := by
    obtain ⟨hne, hjKept⟩ := mem_erase.mp hj
    refine mem_erase.mpr ⟨?_, h.upper j hjKept k hk hbefore⟩
    rintro rfl
    exact not_before_self k ((hleast j hjKept hne).trans hbefore)
  removed j hj hnot := by
    by_cases hkept : j ∈ kept
    · have hsame : j = i := by
        by_contra hne
        exact hnot (mem_erase.mpr ⟨hne, hkept⟩)
      subst hsame
      -- What is left is the item and all that are removed after it.
      have hrest : (all.filter fun k => ¬ Before amount k j) = kept := by
        ext k
        rw [mem_filter]
        constructor
        · rintro ⟨hk, hnotBefore⟩
          rcases before_or_eq_or_before amount k j with hbefore | rfl | hafter
          · exact absurd hbefore hnotBefore
          · exact hi
          · exact h.upper j hi k hk hafter
        · intro hk
          refine ⟨h.subset hk, fun hbefore => ?_⟩
          have hne : k ≠ j := by
            rintro rfl
            exact not_before_self k hbefore
          exact not_before_self k (hbefore.trans (hleast k hk hne))
      unfold fromOn
      rwa [hrest]
    · exact h.removed j hj hkept

theorem PrunedTo.eq_survivors (h : PrunedTo amount bound all kept)
    (hnonneg : ∀ i ∈ all, 0 ≤ amount i) (hsmall : ∑ j ∈ kept, amount j ≤ bound) :
    kept = survivors amount bound all := by
  ext i
  unfold survivors
  rw [mem_filter]
  constructor
  · intro hi
    refine ⟨h.subset hi, le_trans ?_ hsmall⟩
    refine sum_le_sum_of_subset_of_nonneg ?_ fun j hj _ => hnonneg j (h.subset hj)
    intro j hj
    obtain ⟨hj, hnotBefore⟩ := mem_filter.mp hj
    rcases before_or_eq_or_before amount j i with hbefore | rfl | hafter
    · exact absurd hbefore hnotBefore
    · exact hi
    · exact h.upper i hi j hj hafter
  · rintro ⟨hi, hfits⟩
    by_contra hnot
    exact absurd (h.removed i hi hnot) (not_lt.mpr hfits)

theorem sum_survivors_le (hnonneg : ∀ i ∈ all, 0 ≤ amount i) (hbound : 0 ≤ bound) :
    ∑ i ∈ survivors amount bound all, amount i ≤ bound := by
  rcases (survivors amount bound all).eq_empty_or_nonempty with hempty | hsome
  · rwa [hempty, sum_empty]
  · obtain ⟨least, hleast, hmin⟩ := exists_min_image _ (fun i => toLex (amount i, i)) hsome
    unfold survivors at hleast
    refine le_trans ?_ (mem_filter.mp hleast).2
    refine sum_le_sum_of_subset_of_nonneg ?_ fun j hj _ => hnonneg j (mem_filter.mp hj).1
    intro j hj
    refine mem_filter.mpr ⟨(mem_filter.mp hj).1, fun hbefore => ?_⟩
    have hless : toLex (amount j, j) < toLex (amount least, least) :=
      Prod.Lex.toLex_lt_toLex.mpr hbefore
    exact absurd hless (not_lt.mpr (hmin j hj))

/-- The smallest element of a list, found in one pass; among equals the first one. -/
def leastOf {α : Type} (less : α → α → Bool) (l : List α) : Option α :=
  l.foldl (fun best a =>
    match best with
    | none => some a
    | some current => if less a current then some a else some current) none

theorem leastOf_concat {α : Type} (less : α → α → Bool) (l : List α) (a : α) :
    leastOf less (l ++ [a]) =
      match leastOf less l with
      | none => some a
      | some current => if less a current then some a else some current := by
  unfold leastOf
  rw [List.foldl_append, List.foldl_cons, List.foldl_nil]

theorem leastOf_eq_none {α : Type} {less : α → α → Bool} {l : List α}
    (h : leastOf less l = none) : l = [] := by
  induction l using List.reverseRecOn with
  | nil => rfl
  | append_singleton l a ih =>
    rw [leastOf_concat] at h
    split at h
    · cases h
    · split at h
      · cases h
      · cases h

omit [AddCommGroup K] [IsOrderedAddMonoid K] in
/-- The smallest element comes before all others: its size is smaller, or the same and it stands
first. -/
theorem leastOf_spec {α : Type} {less : α → α → Bool} {f : α → K} {R : α → α → Prop}
    (hless : ∀ a b, less a b = true ↔ f a < f b) {l : List α} (hl : l.Pairwise R) {a : α}
    (h : leastOf less l = some a) :
    a ∈ l ∧ ∀ b ∈ l, b = a ∨ f a < f b ∨ f a = f b ∧ R a b := by
  induction l using List.reverseRecOn generalizing a with
  | nil => cases h
  | append_singleton l last ih =>
    rw [List.pairwise_append] at hl
    obtain ⟨hl, -, hlast⟩ := hl
    rw [leastOf_concat] at h
    cases hbest : leastOf less l with
    | none =>
      rw [hbest, Option.some.injEq] at h
      subst h
      rw [leastOf_eq_none hbest]
      simp
    | some best =>
      obtain ⟨hmem, hleast⟩ := ih hl hbest
      rw [hbest] at h
      dsimp only at h
      split at h
      · rename_i hsmaller
        rw [hless] at hsmaller
        rw [Option.some.injEq] at h
        subst h
        refine ⟨List.mem_append_right _ List.mem_cons_self, fun b hb => ?_⟩
        rcases List.mem_append.mp hb with hb | hb
        · rcases hleast b hb with rfl | hsize | ⟨hsize, -⟩
          · exact .inr (.inl hsmaller)
          · exact .inr (.inl (hsmaller.trans hsize))
          · exact .inr (.inl (hsize ▸ hsmaller))
        · exact .inl (List.mem_singleton.mp hb)
      · rename_i hnot
        rw [hless, not_lt] at hnot
        rw [Option.some.injEq] at h
        subst h
        refine ⟨List.mem_append_left _ hmem, fun b hb => ?_⟩
        rcases List.mem_append.mp hb with hb | hb
        · exact hleast b hb
        · rw [List.mem_singleton.mp hb]
          rcases hnot.lt_or_eq with hsize | hsize
          · exact .inr (.inl hsize)
          · exact .inr (.inr ⟨hsize, hlast best hmem last (List.mem_singleton.mpr rfl)⟩)

variable {F : Type} [Field F] [LinearOrder F] [IsStrictOrderedRing F] {net low high : F}

def room (net : F) : F := 2 * max net 0

theorem room_nonneg (net : F) : 0 ≤ room net :=
  mul_nonneg zero_le_two (le_max_right net 0)

/-- The ends of a sum are no worse than the sum itself exactly when what is taken from it and what is
added to it have room. -/
theorem peak_le_abs_iff (hlow : 0 ≤ low) (hhigh : 0 ≤ high) :
    peak (net - low) (net + high) ≤ |net| ↔ low ≤ room net ∧ high ≤ room (-net) := by
  unfold peak room
  rw [max_le_iff]
  rcases le_total 0 net with hnet | hnet
  · rw [abs_of_nonneg hnet, max_eq_left hnet, max_eq_right (by linarith), abs_le, abs_le]
    constructor
    · rintro ⟨⟨hleft, -⟩, -, hright⟩
      constructor
      · linarith
      · linarith
    · rintro ⟨hleft, hright⟩
      refine ⟨⟨?_, ?_⟩, ?_, ?_⟩
      · linarith
      · linarith
      · linarith
      · linarith
  · rw [abs_of_nonpos hnet, max_eq_right hnet, max_eq_left (by linarith), abs_le, abs_le]
    constructor
    · rintro ⟨⟨hleft, -⟩, -, hright⟩
      constructor
      · linarith
      · linarith
    · rintro ⟨hleft, hright⟩
      refine ⟨⟨?_, ?_⟩, ?_, ?_⟩
      · linarith
      · linarith
      · linarith
      · linarith

theorem room_lt_low (hworse : |net| < peak (net - low) (net + high))
    (hside : |net + high| ≤ |net - low|) (hnegative : net - low < 0) : room net < low := by
  have hlow : |net| < low - net := by
    rw [peak, max_eq_left hside, abs_of_neg hnegative, neg_sub] at hworse
    exact hworse
  unfold room
  rcases le_total 0 net with hnet | hnet
  · rw [abs_of_nonneg hnet] at hlow
    rw [max_eq_left hnet]
    linarith
  · rw [abs_of_nonpos hnet] at hlow
    rw [max_eq_right hnet]
    linarith

/-- The upper end is the worse one, or the lower one is not negative: too much is added. -/
theorem room_lt_high (hlow : 0 ≤ low) (hhigh : 0 ≤ high)
    (hworse : |net| < peak (net - low) (net + high))
    (hside : ¬ (|net + high| ≤ |net - low| ∧ net - low < 0)) : room (-net) < high := by
  have hlarge : |net| < |net + high| := by
    by_contra hnot
    rw [not_lt] at hnot
    have hleft : |net| < |net - low| := by
      rcases lt_max_iff.mp hworse with h | h
      · exact h
      · exact absurd h (not_lt.mpr hnot)
    have hpositive : 0 ≤ net - low := by
      by_contra hnegative
      exact hside ⟨hnot.trans hleft.le, not_le.mp hnegative⟩
    rw [abs_of_nonneg hpositive, abs_of_nonneg (by linarith)] at hleft
    linarith
  unfold room
  rcases le_total 0 net with hnet | hnet
  · rw [abs_of_nonneg hnet, abs_of_nonneg (by linarith)] at hlarge
    rw [max_eq_right (by linarith)]
    linarith
  · rw [abs_of_nonpos hnet] at hlarge
    rw [max_eq_left (by linarith)]
    rcases lt_abs.mp hlarge with h | h
    · linarith
    · linarith

end CopyTrade.Foundation
