import CopyTrade.Foundation.Maps

/-!
# Filling a set up to a size

The elements of a list that are wanted go into a set as long as it is smaller than its capacity.
The set gets no larger than that, and either it is full or every wanted element is in it.
-/

namespace CopyTrade.Foundation

open Std (ExtTreeSet TransOrd LawfulEqOrd)

variable {α : Type} [Ord α] [TransOrd α] [LawfulEqOrd α]

def putWithin (capacity : ℕ) (wanted : α → Bool) (s : ExtTreeSet α) (a : α) : ExtTreeSet α :=
  if wanted a && decide (s.size < capacity) then s.insert a else s

def fillWithin (capacity : ℕ) (wanted : α → Bool) (l : List α) (s : ExtTreeSet α) : ExtTreeSet α :=
  l.foldl (putWithin capacity wanted) s

variable {capacity : ℕ} {wanted : α → Bool} {l : List α} {s : ExtTreeSet α} {a b : α}

theorem mem_putWithin_of_mem (h : b ∈ s) : b ∈ putWithin capacity wanted s a := by
  unfold putWithin
  split
  · exact (mem_set_insert s a b).mpr (.inr h)
  · exact h

omit [LawfulEqOrd α] in
theorem size_putWithin_le (h : s.size ≤ capacity) :
    (putWithin capacity wanted s a).size ≤ capacity := by
  unfold putWithin
  split
  · rename_i hroom
    rw [Bool.and_eq_true, decide_eq_true_eq] at hroom
    have hle : (s.insert a).size ≤ s.size + 1 := ExtTreeSet.size_insert_le
    omega
  · exact h

theorem mem_fillWithin_of_mem (h : b ∈ s) : b ∈ fillWithin capacity wanted l s := by
  induction l generalizing s with
  | nil => exact h
  | cons a l ih => exact ih (mem_putWithin_of_mem h)

omit [LawfulEqOrd α] in
theorem size_le_size_fillWithin : s.size ≤ (fillWithin capacity wanted l s).size := by
  induction l generalizing s with
  | nil => exact le_rfl
  | cons a l ih =>
    refine le_trans ?_ ih
    unfold putWithin
    split
    · exact ExtTreeSet.size_le_size_insert
    · exact le_rfl

omit [LawfulEqOrd α] in
theorem size_fillWithin_le (h : s.size ≤ capacity) :
    (fillWithin capacity wanted l s).size ≤ capacity := by
  induction l generalizing s with
  | nil => exact h
  | cons a l ih => exact ih (size_putWithin_le h)

/-- What is in the set was there, or is a wanted element that went in while there was room. -/
theorem mem_of_mem_fillWithin (h : b ∈ fillWithin capacity wanted l s) :
    b ∈ s ∨ b ∈ l ∧ wanted b = true ∧ s.size < capacity := by
  induction l generalizing s with
  | nil => exact .inl h
  | cons a l ih =>
    unfold fillWithin at h ih
    rw [List.foldl_cons] at h
    rcases ih h with hput | ⟨hmem, hwanted, hroom⟩
    · unfold putWithin at hput
      split at hput
      · rename_i hroom
        rw [Bool.and_eq_true, decide_eq_true_eq] at hroom
        rcases (mem_set_insert s a b).mp hput with rfl | hold
        · exact .inr ⟨List.mem_cons_self, hroom.1, hroom.2⟩
        · exact .inl hold
      · exact .inl hput
    · refine .inr ⟨List.mem_cons_of_mem _ hmem, hwanted, lt_of_le_of_lt ?_ hroom⟩
      exact size_le_size_fillWithin (l := [a])

theorem mem_fillWithin_of_wanted (h : (fillWithin capacity wanted l s).size < capacity)
    (hmem : b ∈ l) (hwanted : wanted b = true) : b ∈ fillWithin capacity wanted l s := by
  induction l generalizing s with
  | nil => cases hmem
  | cons a l ih =>
    rcases List.mem_cons.mp hmem with rfl | htail
    · refine mem_fillWithin_of_mem (l := l) (s := putWithin capacity wanted s b) ?_
      have hroom : s.size < capacity := size_le_size_fillWithin.trans_lt h
      unfold putWithin
      rw [if_pos (by simp [hwanted, hroom])]
      exact (mem_set_insert s b b).mpr (.inl rfl)
    · exact ih h htail

end CopyTrade.Foundation
