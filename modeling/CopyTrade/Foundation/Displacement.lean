import Mathlib.Algebra.Order.BigOperators.Group.Finset

/-!
# Displacing the weakest

Items are displaced one at a time: for every threshold of a falling list the weakest item that is
left, if its level lies below the threshold.  The weakest but `n` meets the threshold with number
`n`, so what is displaced can be said without the loop.
-/

namespace CopyTrade.Foundation

open Finset

variable {ι K L : Type} [LinearOrder K] [LinearOrder L] {key : ι → K}
  {level : ι → L} {thresholds : List L} {all : Finset ι}

def weakerThan (key : ι → K) (all : Finset ι) (i : ι) : ℕ := #{j ∈ all | key j < key i}

/-- The items displaced by a falling list of thresholds: each one whose level lies below the
threshold that has as many others before it as there are weaker items. -/
def displaced (key : ι → K) (level : ι → L) (all : Finset ι) (thresholds : List L) : Finset ι :=
  {i ∈ all | thresholds[weakerThan key all i]?.any fun threshold => decide (level i < threshold)}

theorem mem_displaced {i : ι} : i ∈ displaced key level all thresholds ↔
    i ∈ all ∧ ∃ threshold, thresholds[weakerThan key all i]? = some threshold ∧
      level i < threshold := by
  unfold displaced
  rw [mem_filter, Option.any_eq_true]
  simp

theorem displaced_subset : displaced key level all thresholds ⊆ all :=
  filter_subset _ _

@[simp] theorem displaced_nil : displaced key level all [] = ∅ := by
  simp [displaced]

theorem displaced_eq_empty (h : ∀ i ∈ all, ∀ threshold ∈ thresholds, threshold ≤ level i) :
    displaced key level all thresholds = ∅ := by
  apply eq_empty_of_forall_notMem
  intro i hi
  obtain ⟨hmem, threshold, hget, hlow⟩ := mem_displaced.mp hi
  exact absurd hlow (not_lt.mpr (h i hmem threshold (List.mem_of_getElem? hget)))

theorem weakerThan_weakest {weakest : ι} (h : ∀ i ∈ all, key weakest ≤ key i) :
    weakerThan key all weakest = 0 := by
  unfold weakerThan
  rw [card_eq_zero, filter_eq_empty_iff]
  intro i hi
  exact not_lt.mpr (h i hi)

variable [DecidableEq ι]

theorem weakerThan_erase {weakest i : ι} (hmem : weakest ∈ all) (hweaker : key weakest < key i) :
    weakerThan key all i = weakerThan key (all.erase weakest) i + 1 := by
  unfold weakerThan
  rw [filter_erase, card_erase_add_one]
  exact mem_filter.mpr ⟨hmem, hweaker⟩

/-- A threshold above the level of the weakest item displaces it, and the others the rest. -/
theorem displaced_cons (hkey : Function.Injective key) {weakest : ι} (hmem : weakest ∈ all)
    (hweakest : ∀ i ∈ all, key weakest ≤ key i) {threshold : L} (hlow : level weakest < threshold) :
    displaced key level all (threshold :: thresholds) =
      insert weakest (displaced key level (all.erase weakest) thresholds) := by
  ext i
  rw [mem_insert, mem_displaced, mem_displaced, mem_erase]
  by_cases hsame : i = weakest
  · subst hsame
    rw [weakerThan_weakest hweakest]
    simp [hmem, hlow]
  · by_cases hi : i ∈ all
    · have hweaker : key weakest < key i :=
        lt_of_le_of_ne (hweakest i hi) fun heq => hsame (hkey heq).symm
      rw [weakerThan_erase hmem hweaker, List.getElem?_cons_succ]
      simp [hsame, hi]
    · simp [hsame, hi]

end CopyTrade.Foundation
